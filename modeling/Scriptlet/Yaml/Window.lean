import Scriptlet.Yaml.Mark

/-!
# The window on a document

A document is read through a window. At the start of a line, where a token could
stand, a byte order mark is looked for, but at the start of the window and not at
the place. As long as the window starts with such a mark, one character is passed
over there, whatever it is; otherwise none is, and a byte order mark at the place
counts as any other character.

The window moves on to the place when it shows fewer characters than a token
needs to be recognised.
-/

namespace Scriptlet

namespace Yaml

/-- The part of a document that is in view. -/
structure Window where
  /-- Whether it starts with a byte order mark. -/
  isMarked : Bool := false
  /-- The number of characters behind it, as long as it has not moved. -/
  beyond : Option Nat := some 0
deriving DecidableEq, Repr

namespace Window

/-- The number of bytes in view behind the byte order mark of the document. -/
def size : Nat := 509

/-- The number of characters by which a token is recognised. -/
def lookahead : Nat := 4

/-- The number of characters that do not fit into some bytes. -/
def countBeyond (room : Nat) : List Char → Nat
  | [] => 0
  | char :: rest =>
    if char.utf8Size ≤ room then countBeyond (room - char.utf8Size) rest else rest.length + 1

/-- Whether a text starts with a byte order mark. -/
def startsMarked (chars : List Char) : Bool :=
  chars.head? = some byteOrderMark

/-- The window at the start of a document. -/
def ofText (chars : List Char) : Window where
  isMarked := startsMarked chars
  beyond := some (countBeyond size chars)

/-- Whether there are at most so many characters. -/
def isAtMost (count : Nat) (chars : List Char) : Bool :=
  (chars.drop count).isEmpty

/-- The window at a place behind a token. If it ends before the place, it has moved. -/
def pass (window : Window) (chars : List Char) : Window :=
  match window.beyond with
  | some beyond =>
    if isAtMost beyond chars then { isMarked := false, beyond := none } else window
  | none => window

/-- The window at a place where a token starts. Once it has moved, the end of the
document is in view, and counts as a character. -/
def look (window : Window) (chars : List Char) : Window :=
  let shown :=
    match window.beyond with
    | some beyond => beyond + (lookahead - 1)
    | none => lookahead - 2
  if isAtMost shown chars then
    { isMarked := startsMarked chars, beyond := none }
  else
    window

/-- Whether the end of a document is passed over at the start of a line. -/
def passesEnd (window : Window) : Bool :=
  window.isMarked && window.beyond.isNone

end Window

end Yaml

end Scriptlet
