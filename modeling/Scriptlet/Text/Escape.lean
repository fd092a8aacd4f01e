import Scriptlet.Text.Bytes

/-!
# Escapes in quoted texts

What stands behind a backslash in a quoted text: a letter, or the number of a byte
or a character in some base.
-/

namespace Scriptlet

namespace Escape

/-- The value of a hexadecimal digit. -/
def digit? (char : Char) : Option Nat :=
  if '0' ≤ char ∧ char ≤ '9' then
    some (char.toNat - '0'.toNat)
  else if 'a' ≤ char ∧ char ≤ 'f' then
    some (char.toNat - 'a'.toNat + 10)
  else if 'A' ≤ char ∧ char ≤ 'F' then
    some (char.toNat - 'A'.toNat + 10)
  else
    none

/-- The number that some digits of a base spell. -/
def number? (base : Nat) (chars : List Char) : Option Nat :=
  chars.foldlM
    (fun number char => do
      let digit ← digit? char
      if digit < base then some (number * base + digit) else none)
    0

/-- The byte with a number. -/
def byte? (number : Nat) : Option Bytes :=
  if number < 256 then some [number.toUInt8] else none

/-- The encoding of the character with a number. -/
def char? (number : Nat) : Option Bytes :=
  if number.isValidChar then some (String.utf8EncodeChar (Char.ofNat number)) else none

/-- The character that a letter after a backslash stands for. -/
def letter? (char : Char) : Option Char :=
  match char with
  | 'a' => some '\x07'
  | 'b' => some '\x08'
  | 'f' => some '\x0c'
  | 'n' => some '\n'
  | 'r' => some '\r'
  | 't' => some '\t'
  | 'v' => some '\x0b'
  | '\\' => some '\\'
  | _ => none

/-- What the text between two quotes stands for. A double quote must be escaped,
and can be escaped only where double quotes surround the text. -/
def resolve (surrounding : Char) : List Char → Option Bytes
  | [] => some []
  | '\\' :: 'x' :: a :: b :: rest => do
    let bytes ← byte? (← number? 16 [a, b])
    pure (bytes ++ (← resolve surrounding rest))
  | '\\' :: 'u' :: a :: b :: c :: d :: rest => do
    let bytes ← char? (← number? 16 [a, b, c, d])
    pure (bytes ++ (← resolve surrounding rest))
  | '\\' :: 'U' :: a :: b :: c :: d :: e :: f :: g :: h :: rest => do
    let bytes ← char? (← number? 16 [a, b, c, d, e, f, g, h])
    pure (bytes ++ (← resolve surrounding rest))
  | '\\' :: char :: rest =>
    match letter? char with
    | some meant => do
      pure (String.utf8EncodeChar meant ++ (← resolve surrounding rest))
    | none =>
      if char = '"' ∧ surrounding = '"' then do
        pure (String.utf8EncodeChar '"' ++ (← resolve surrounding rest))
      else
        match rest with
        | b :: c :: rest => do
          let bytes ← byte? (← number? 8 [char, b, c])
          pure (bytes ++ (← resolve surrounding rest))
        | _ => none
  | char :: rest => do
    if char = '"' ∨ char = '\\' then
      none
    else
      pure (String.utf8EncodeChar char ++ (← resolve surrounding rest))

end Escape

end Scriptlet
