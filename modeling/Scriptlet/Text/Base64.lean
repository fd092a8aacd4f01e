import Scriptlet.Text.Bytes

/-!
# Bytes as text

Any bytes can be written with sixty-four characters, four for every three bytes.
At the end, equals signs fill up the last four characters.
-/

namespace Scriptlet

namespace Base64

/-- The number that a character stands for. -/
def value? (char : Char) : Option Nat :=
  if 'A' ≤ char ∧ char ≤ 'Z' then
    some (char.toNat - 'A'.toNat)
  else if 'a' ≤ char ∧ char ≤ 'z' then
    some (char.toNat - 'a'.toNat + 26)
  else if '0' ≤ char ∧ char ≤ '9' then
    some (char.toNat - '0'.toNat + 52)
  else if char = '+' then
    some 62
  else if char = '/' then
    some 63
  else
    none

/-- The three bytes that four numbers stand for. -/
def bytesOf (a b c d : Nat) : Bytes :=
  let number := ((a * 64 + b) * 64 + c) * 64 + d
  [(number / 65536).toUInt8, (number / 256).toUInt8, number.toUInt8]

/-- The bytes that characters on one line stand for. Bits that are left over at the
end do not count. -/
def decodeLine? : List Char → Option Bytes
  | [] => some []
  | [a, b, '=', '='] => do
    pure ((bytesOf (← value? a) (← value? b) 0 0).take 1)
  | [a, b, c, '='] => do
    pure ((bytesOf (← value? a) (← value? b) (← value? c) 0).take 2)
  | a :: b :: c :: d :: rest => do
    pure (bytesOf (← value? a) (← value? b) (← value? c) (← value? d) ++ (← decodeLine? rest))
  | _ => none

/-- The bytes that a text stands for. It may have several lines. -/
def decode? (text : String) : Option Bytes :=
  decodeLine? (text.toList.filter fun char => char ≠ '\n' && char ≠ '\r')

end Base64

end Scriptlet
