import Scriptlet.Text.Decimal

/-!
# Types of scalars

A bare scalar is taken for a truth value, a number, a date or nothing if it is
spelled like one, and for a text otherwise.
-/

namespace Scriptlet

namespace Yaml

/-- What a scalar is taken for. -/
inductive ScalarType where
  | null
  | bool
  | int
  | float
  | timestamp
  | text
deriving DecidableEq, Repr

namespace ScalarType

/-- The name of a scalar type in messages. -/
def tag : ScalarType → String
  | .null => "!!null"
  | .bool => "!!bool"
  | .int => "!!int"
  | .float => "!!float"
  | .timestamp => "!!timestamp"
  | .text => "!!str"

end ScalarType

namespace Scalar

/-- The spellings of nothing. -/
def nullWords : List String :=
  ["", "~", "null", "Null", "NULL"]

/-- The spellings of truth values. -/
def boolWords : List String :=
  ["y", "Y", "yes", "Yes", "YES", "true", "True", "TRUE", "on", "On", "ON",
    "n", "N", "no", "No", "NO", "false", "False", "FALSE", "off", "Off", "OFF"]

/-- The spellings of numbers beyond all others. -/
def floatWords : List String :=
  [".nan", ".NaN", ".NAN", ".inf", ".Inf", ".INF", "+.inf", "+.Inf", "+.INF",
    "-.inf", "-.Inf", "-.INF"]

/-- Takes a leading sign off. -/
def unsigned : List Char → List Char
  | '+' :: rest => rest
  | '-' :: rest => rest
  | chars => chars

/-- Whether a text is one or more digits. -/
def isDigits (chars : List Char) : Bool :=
  !chars.isEmpty && chars.all Char.isDigit

/-! ## Integers -/

/-- The value of a digit in bases up to sixteen. -/
def digitValue? (char : Char) : Option Nat :=
  if char.isDigit then
    some (char.toNat - '0'.toNat)
  else if 'a' ≤ char ∧ char ≤ 'f' then
    some (char.toNat - 'a'.toNat + 10)
  else if 'A' ≤ char ∧ char ≤ 'F' then
    some (char.toNat - 'A'.toNat + 10)
  else
    none

/-- The number that digits denote in a base. -/
def readBase? (base : Nat) (chars : List Char) : Option Nat :=
  chars.foldlM
    (fun number char =>
      (digitValue? char).bind fun digit =>
        if digit < base then some (base * number + digit) else none)
    0

/-- The number that an unsigned integer denotes. Its first characters tell the
base. -/
def readMagnitude? : List Char → Option Nat
  | [] => none
  | ['0'] => some 0
  | '0' :: mark :: digit :: rest =>
    match mark.toLower with
    | 'b' => readBase? 2 (digit :: rest)
    | 'o' => readBase? 8 (digit :: rest)
    | 'x' => readBase? 16 (digit :: rest)
    | _ => readBase? 8 (mark :: digit :: rest)
  | '0' :: rest => readBase? 8 rest
  | chars => readBase? 10 chars

/-- Whether a number behind a sign, if there is one, has 64 bits. Only one without
sign may use all of them for its magnitude. -/
def fits : List Char → Nat → Bool
  | '-' :: _, magnitude => magnitude ≤ Nat.pow 2 63
  | '+' :: _, magnitude => magnitude < Nat.pow 2 63
  | _, magnitude => magnitude < Nat.pow 2 64

/-- The number that one or more binary digits denote. -/
def readBinary? : List Char → Option Nat
  | [] => none
  | digits => readBase? 2 digits

/-- Whether a text is an integer of 64 bits. A binary one may also have its sign
behind the letter that tells the base. -/
def isInt (chars : List Char) : Bool :=
  (readMagnitude? (unsigned chars)).any (fits chars) ||
    match chars with
    | '0' :: 'b' :: digits => (readBinary? (unsigned digits)).any (fits digits)
    | _ => false

/-! ## Decimal fractions -/

/-- A decimal fraction taken apart: the digits before and after the point, if
there is one, and the exponent. -/
structure Fraction where
  whole : List Char
  decimals : Option (List Char)
  exponent : Int

namespace Fraction

/-- Takes the text behind the sign apart. -/
def ofChars? (chars : List Char) : Option Fraction :=
  let (mantissa, power) := chars.span fun char => char ≠ 'e' ∧ char ≠ 'E'
  let (whole, point) := mantissa.span (· ≠ '.')
  let decimals :=
    match point with
    | [] => none
    | _ :: digits => some digits
  match power with
  | [] => some ⟨whole, decimals, 0⟩
  | _ :: digits => (Decimal.readInt? digits).map fun exponent => ⟨whole, decimals, exponent⟩

/-- Whether there are digits where they have to be, and nothing else. -/
def isWellFormed (fraction : Fraction) : Bool :=
  match fraction.decimals with
  | none => isDigits fraction.whole
  | some digits =>
    if fraction.whole.isEmpty then
      isDigits digits
    else
      isDigits fraction.whole && digits.all Char.isDigit

/-- Whether the number is in the range of 64-bit floating point numbers: it is
below the middle between the largest of them and the next power of two. -/
def isFinite (fraction : Fraction) : Bool :=
  let decimals := fraction.decimals.getD []
  let digits := (fraction.whole ++ decimals).dropWhile (· = '0')
  let power := fraction.exponent - decimals.length
  let bound := (Nat.pow 2 54 - 1) * Nat.pow 2 970
  if digits.isEmpty ∨ digits.length + power < 300 then
    true
  else if digits.length + power > 320 then
    false
  else
    Decimal.natOfDigits digits * Nat.pow 10 power.toNat < bound * Nat.pow 10 (-power).toNat

end Fraction

/-- Whether a text behind its sign is a decimal fraction in range. -/
def isFloat (chars : List Char) : Bool :=
  match Fraction.ofChars? chars with
  | some fraction => fraction.isWellFormed && fraction.isFinite
  | none => false

/-- Takes out the underscores of a number, if each stands between two digits. -/
def withoutSeparators? : List Char → Option (List Char)
  | [] => some []
  | '_' :: _ => none
  | char :: '_' :: next :: rest =>
    if char.isDigit ∧ next.isDigit then
      (withoutSeparators? (next :: rest)).map (char :: ·)
    else
      none
  | char :: rest => (withoutSeparators? rest).map (char :: ·)

/-! ## Dates and times -/

/-- A number of one or two digits at the front of a text. -/
def shortNumber? : List Char → Option (Nat × List Char)
  | first :: second :: rest =>
    if first.isDigit then
      if second.isDigit then
        some (Decimal.natOfDigits [first, second], rest)
      else
        some (Decimal.natOfDigits [first], second :: rest)
    else
      none
  | [digit] => if digit.isDigit then some (Decimal.natOfDigits [digit], []) else none
  | [] => none

/-- The text behind a character that must come first. -/
def skip? (char : Char) : List Char → Option (List Char)
  | [] => none
  | first :: rest => if first = char then some rest else none

/-- The number of days of a month. -/
def daysIn (year month : Nat) : Nat :=
  if month = 2 then
    if year % 4 = 0 ∧ (year % 100 ≠ 0 ∨ year % 400 = 0) then 29 else 28
  else if month = 4 ∨ month = 6 ∨ month = 9 ∨ month = 11 then
    30
  else
    31

/-- The text behind a date of a four-digit year, a month and a day. -/
def skipDate? (chars : List Char) : Option (List Char) := do
  let digits := chars.takeWhile Char.isDigit
  if digits.length ≠ 4 then
    none
  else
    let rest ← skip? '-' (chars.drop 4)
    let (month, rest) ← shortNumber? rest
    let rest ← skip? '-' rest
    let (day, rest) ← shortNumber? rest
    let year := Decimal.natOfDigits digits
    if 1 ≤ month ∧ month ≤ 12 ∧ 1 ≤ day ∧ day ≤ daysIn year month then some rest else none

/-- The text behind a time of hours, minutes and seconds with optional decimals. -/
def skipTime? (chars : List Char) : Option (List Char) := do
  let (hour, rest) ← shortNumber? chars
  let rest ← skip? ':' rest
  let (minute, rest) ← shortNumber? rest
  let rest ← skip? ':' rest
  let (second, rest) ← shortNumber? rest
  if hour < 24 ∧ minute < 60 ∧ second < 60 then
    match rest with
    | point :: digit :: more =>
      if (point = '.' ∨ point = ',') ∧ digit.isDigit then
        some (more.dropWhile Char.isDigit)
      else
        some rest
    | _ => some rest
  else
    none

/-- Whether a text is a time zone: `Z`, or hours and minutes from it. -/
def isZone : List Char → Bool
  | ['Z'] => true
  | [sign, hour₁, hour₂, colon, minute₁, minute₂] =>
    (sign = '+' || sign = '-') && colon = ':' &&
      isDigits [hour₁, hour₂, minute₁, minute₂] &&
      Decimal.natOfDigits [hour₁, hour₂] ≤ 24 && Decimal.natOfDigits [minute₁, minute₂] ≤ 60
  | _ => false

/-- Whether a text is a date, a date and a time behind a blank, or a date and a
time with a zone behind the letter `T`. -/
def isTimestamp (chars : List Char) : Bool :=
  match skipDate? chars with
  | none => false
  | some [] => true
  | some (mark :: rest) =>
    if mark = ' ' then
      skipTime? (rest.dropWhile (· = ' ')) == some []
    else if mark = 'T' ∨ mark = 't' then
      (skipTime? rest).any isZone
    else
      false

/-! ## Types of bare scalars -/

/-- What a bare number, date or text is taken for, if dates are looked for or not. -/
def typeOfNumeral (dates : Bool) (chars : List Char) : ScalarType :=
  let plain := chars.filter (· ≠ '_')
  if dates && isTimestamp chars then
    .timestamp
  else if isInt plain then
    .int
  else if isFloat (unsigned plain) then
    .float
  else
    .text

/-- What a scalar is taken for if it is spelled without quotes. -/
def typeOf (dates : Bool) (content : String) : ScalarType :=
  if nullWords.contains content then
    .null
  else if boolWords.contains content then
    .bool
  else if floatWords.contains content then
    .float
  else
    match content.toList with
    | [] => .null
    | first :: rest =>
      if first = '.' then
        if (withoutSeparators? rest).any fun digits => isFloat ('.' :: digits) then
          .float
        else
          .text
      else if first.isDigit ∨ first = '+' ∨ first = '-' then
        typeOfNumeral dates content.toList
      else
        .text

/-- Whether a number in base sixty can end with some characters: with decimals, if
with anything. -/
def endsSexagesimal : List Char → Bool
  | [] => true
  | '.' :: decimals => decimals.all fun char => char.isDigit || char = '_'
  | _ => false

/-- Whether some characters are a number below sixty behind a colon, repeatedly,
with optional decimals at the end. -/
def isSexagesimalTail : List Char → Bool
  | ':' :: tens :: ones :: rest =>
    if tens.isDigit ∧ ones.isDigit then
      tens < '6' && (endsSexagesimal rest || isSexagesimalTail rest)
    else
      tens.isDigit && (endsSexagesimal (ones :: rest) || isSexagesimalTail (ones :: rest))
  | [':', digit] => digit.isDigit
  | _ => false

/-- Whether a text looks like a number in base sixty, which some readers take it
for. -/
def isSexagesimal (content : String) : Bool :=
  match unsigned content.toList with
  | [] => false
  | first :: rest =>
    first.isDigit && isSexagesimalTail (rest.dropWhile fun char => char.isDigit || char = '_')

end Scalar

end Yaml

end Scriptlet
