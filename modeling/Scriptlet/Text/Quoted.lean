import Scriptlet.Text.Printable

/-!
# Quoted text

Messages show texts between quotes on one line. The quote and the backslash are
escaped, printable characters stand as they are, and every other character is
written by its escape letter or its code.
-/

namespace Scriptlet

namespace Quoted

/-- The letter after the backslash for a control character that has one. -/
def escapeLetter? (char : Char) : Option Char :=
  match char.toNat with
  | 0x07 => some 'a'
  | 0x08 => some 'b'
  | 0x0c => some 'f'
  | 0x0a => some 'n'
  | 0x0d => some 'r'
  | 0x09 => some 't'
  | 0x0b => some 'v'
  | _ => none

/-- A number in lowercase hexadecimal, filled with zeros up to a width. -/
def hex (width number : Nat) : List Char :=
  let digits := Nat.toDigits 16 number
  List.replicate (width - digits.length) '0' ++ digits

/-- A character as it stands between two quotes of the given kind. -/
def escape (quote char : Char) : List Char :=
  if char = quote ∨ char = '\\' then
    ['\\', char]
  else if isPrintable char then
    [char]
  else
    match escapeLetter? char with
    | some letter => ['\\', letter]
    | none =>
      if char.toNat < 0x80 then
        ['\\', 'x'] ++ hex 2 char.toNat
      else if char.toNat < 0x10000 then
        ['\\', 'u'] ++ hex 4 char.toNat
      else
        ['\\', 'U'] ++ hex 8 char.toNat

/-- A text between double quotes. -/
def text (content : String) : String :=
  String.ofList ('"' :: content.toList.flatMap (escape '"') ++ ['"'])

/-- A character between single quotes. -/
def char (content : Char) : String :=
  String.ofList ('\'' :: escape '\'' content ++ ['\''])

/-- The character with a given code. A number that is no character's code stands
for the replacement character. -/
def charOfCode (code : Int) : Char :=
  if code.toNat.isValidChar ∧ 0 ≤ code then Char.ofNat code.toNat else '\ufffd'

end Quoted

end Scriptlet
