import Scriptlet.Text.Escape
import Scriptlet.Text.Letter

/-!
# Numbers and quoted texts in Go code

When a number or a quoted text is well formed, and the form that numbers are
written in.
-/

namespace Scriptlet

namespace Code

namespace Numeral

/-- The base that a letter behind a zero stands for. -/
def base? (letter : Char) : Option Nat :=
  match letter.toLower with
  | 'x' => some 16
  | 'o' => some 8
  | 'b' => some 2
  | _ => none

/-- Whether a character is a digit of a base. -/
def isDigit (base : Nat) (char : Char) : Bool :=
  (Escape.digit? char).any (· < base)

/-- Whether each underscore stands between two digits. -/
def isSeparated (base : Nat) (behindDigit : Bool) : List Char → Bool
  | [] => true
  | '_' :: rest => behindDigit && rest.head?.any (isDigit base) && isSeparated base false rest
  | char :: rest => isSeparated base (isDigit base char) rest

/-- Whether some characters are digits of a base, with underscores among them. -/
def areDigits (base : Nat) (chars : List Char) : Bool :=
  chars.all fun char => char = '_' || isDigit base char

/-- Whether there is a digit among digits and underscores. -/
def hasDigit (chars : List Char) : Bool :=
  chars.any (· ≠ '_')

/-- Whether some characters are an exponent behind its letter. -/
def isExponent (chars : List Char) : Bool :=
  let digits :=
    match chars with
    | '+' :: digits | '-' :: digits => digits
    | digits => digits
  areDigits 10 digits && hasDigit digits

/-- Whether some characters are an integer, or a fraction, or a number with an exponent
behind a letter. An integer can have another base. -/
def isNumber (base integerBase : Nat) (letter : Char) (chars : List Char) : Bool :=
  let (mantissa, exponent) := chars.span fun char => char.toLower ≠ letter
  let (whole, point) := mantissa.span (· ≠ '.')
  let fraction := point.drop 1
  let isInteger := exponent.isEmpty && point.isEmpty
  areDigits (if isInteger then integerBase else base) whole && areDigits base fraction &&
    hasDigit (whole ++ fraction) && (exponent.isEmpty || isExponent (exponent.drop 1))

/-- Whether a number is well formed without the letter of imaginary numbers. A zero in
front gives an integer the base eight, unless it is imaginary. A fraction of base
sixteen needs an exponent. -/
def isReal (imaginary : Bool) (chars : List Char) : Bool :=
  let plain :=
    isSeparated 10 false chars &&
      isNumber 10 (if chars.head? = some '0' && !imaginary then 8 else 10) 'e' chars
  match chars with
  | '0' :: letter :: digits =>
    match base? letter with
    | some 16 =>
      isSeparated 16 true digits && isNumber 16 16 'p' digits &&
        (!digits.contains '.' || digits.any fun char => char.toLower = 'p')
    | some base =>
      isSeparated 10 true digits && areDigits (if imaginary then 10 else base) digits &&
        hasDigit digits
    | none => plain
  | _ => plain

/-- Whether a number is an imaginary integer. -/
def isImaginaryInteger (chars : List Char) : Bool :=
  chars.getLast? = some 'i' && !chars.any fun char => char = '.' || char.toLower = 'e'

/-- An imaginary integer without zeros in front. -/
def withoutZeros (chars : List Char) : List Char :=
  match chars.dropWhile fun char => char = '0' || char = '_' with
  | ['i'] => ['0', 'i']
  | rest => rest

/-- A number in which a letter is small. -/
def withSmall (letter : Char) (chars : List Char) : List Char :=
  chars.map fun char => if char.toLower = letter then letter else char

/-- A number with its base and its exponent in small letters. -/
def normalized (chars : List Char) : List Char :=
  let plain := if isImaginaryInteger chars then withoutZeros chars else withSmall 'e' chars
  match chars with
  | '0' :: letter :: digits =>
    match base? letter with
    | some 16 => '0' :: 'x' :: withSmall 'p' digits
    | some _ => '0' :: letter.toLower :: digits
    | none => plain
  | _ => plain

/-- A number as it is written, if it is well formed. -/
def spelling? (chars : List Char) : Option String :=
  let imaginary := chars.getLast? = some 'i'
  if isReal imaginary (if imaginary then chars.dropLast else chars) then
    some (String.ofList (normalized chars))
  else
    none

/-- Whether a number is an integer, so that a point behind it would become a part of
it. -/
def isInteger (spelling : String) : Bool :=
  let chars := spelling.toList
  match chars with
  | '0' :: 'x' :: digits => digits.all fun char => char ≠ '.' && char ≠ 'p' && char ≠ 'i'
  | _ => chars.all fun char => char ≠ '.' && char ≠ 'e' && char ≠ 'i'

/-- The letter in front of the exponent of a number, whose last character comes
first. -/
def exponentLetter (chars : List Char) : Char :=
  match chars.reverse with
  | '0' :: letter :: _ => if base? letter = some 16 then 'p' else 'e'
  | _ => 'e'

/-- Whether a number, whose last character comes first, goes on with a character. A
point can follow only the digits in front of it, and a sign only the letter of the
exponent. -/
def continues (chars : List Char) (char : Char) : Bool :=
  let letter := exponentLetter chars
  if char = '.' then
    !chars.contains '.' && chars.head? ≠ some 'i' &&
      !chars.any fun other => other.toLower = letter
  else if char = '+' || char = '-' then
    chars.head?.any fun last => last.toLower = letter
  else
    continuesName char

end Numeral

namespace Literal

/-- The number of characters that the text between two quotes stands for, if it is
well formed. Of the quotes, only the surrounding ones can be escaped. -/
def length? (quote : Char) : List Char → Option Nat
  | [] => some 0
  | '\\' :: 'x' :: a :: b :: rest => do
    let _ ← Escape.byte? (← Escape.number? 16 [a, b])
    pure ((← length? quote rest) + 1)
  | '\\' :: 'u' :: a :: b :: c :: d :: rest => do
    let _ ← Escape.char? (← Escape.number? 16 [a, b, c, d])
    pure ((← length? quote rest) + 1)
  | '\\' :: 'U' :: a :: b :: c :: d :: e :: f :: g :: h :: rest => do
    let _ ← Escape.char? (← Escape.number? 16 [a, b, c, d, e, f, g, h])
    pure ((← length? quote rest) + 1)
  | '\\' :: char :: rest =>
    if char = quote ∨ (Escape.letter? char).isSome then do
      pure ((← length? quote rest) + 1)
    else
      match rest with
      | b :: c :: rest => do
        let _ ← Escape.byte? (← Escape.number? 8 [char, b, c])
        pure ((← length? quote rest) + 1)
      | _ => none
  | char :: rest => do
    if char = '\\' then none else pure ((← length? quote rest) + 1)

/-- Whether the text between two quotes is well formed. Between single quotes, it
stands for one character. -/
def isWellFormed (quote : Char) (chars : List Char) : Bool :=
  match length? quote chars with
  | some length => quote = '"' || length = 1
  | none => false

end Literal

end Code

end Scriptlet
