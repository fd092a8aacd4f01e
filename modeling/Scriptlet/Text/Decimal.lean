/-!
# Decimal numbers

Integers are written with the fewest digits and no plus sign. Reading accepts an
optional sign before one or more ASCII digits, leading zeros included, as long
as the number fits in 64 bits.
-/

namespace Scriptlet

namespace Decimal

/-- The digits of a natural number, without leading zeros. -/
def digits (number : Nat) : List Char :=
  Nat.toDigits 10 number

/-- The written form of an integer. -/
def chars : Int → List Char
  | .ofNat number => digits number
  | .negSucc number => '-' :: digits (number + 1)

/-- The written form of an integer as a string. -/
def text (number : Int) : String :=
  String.ofList (chars number)

/-- The number that some digits denote. -/
def natOfDigits (digits : List Char) : Nat :=
  digits.foldl (fun number digit => 10 * number + (digit.toNat - '0'.toNat)) 0

/-- The number that the characters denote, if they are one or more digits. -/
def readNat? (chars : List Char) : Option Nat :=
  if chars ≠ [] ∧ chars.all Char.isDigit then some (natOfDigits chars) else none

/-- The number that the characters denote, if they are digits after at most one
sign. -/
def readInt? : List Char → Option Int
  | '+' :: rest => (readNat? rest).map Int.ofNat
  | '-' :: rest => (readNat? rest).map fun number => -Int.ofNat number
  | chars => (readNat? chars).map Int.ofNat

/-- Whether an integer is in the range of 64-bit values. -/
def fits (number : Int) : Bool :=
  decide (Int64.minValue.toInt ≤ number ∧ number ≤ Int64.maxValue.toInt)

/-- The 64-bit value that the characters denote, if there is one. -/
def readInt64? (chars : List Char) : Option Int64 :=
  (readInt? chars).bind fun number =>
    if fits number then some (Int64.ofInt number) else none

end Decimal

end Scriptlet
