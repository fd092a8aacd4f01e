/-!
# Characters and places in a document

A document is a text of lines. Three characters end a line, and blanks separate
the words in it. A place is a line and a column, both counted from zero.
-/

namespace Scriptlet

namespace Yaml

/-- The line separator, which ends a line. -/
def lineSeparator : Char := '\u2028'

/-- The paragraph separator, which ends a line. -/
def paragraphSeparator : Char := '\u2029'

/-- The mark that may stand in front of a text and is no part of it. -/
def byteOrderMark : Char := '\ufeff'

/-- Whether a character ends a line. -/
def isBreak (char : Char) : Bool :=
  char = '\n' || char = lineSeparator || char = paragraphSeparator

/-- Whether a character separates words in a line. -/
def isBlank (char : Char) : Bool :=
  char = ' ' || char = '\t'

/-- Whether a character separates words or lines. -/
def isSpace (char : Char) : Bool :=
  isBlank char || isBreak char

/-- Whether a text is at its end or goes on with a blank or a new line. -/
def startsSpace : List Char → Bool
  | [] => true
  | char :: _ => isSpace char

/-- Whether a text is at its end or goes on with a new line. -/
def startsBreak : List Char → Bool
  | [] => true
  | char :: _ => isBreak char

/-- Whether a text starts with the mark for the start of a document. -/
def startsOpening (chars : List Char) : Bool :=
  ['-', '-', '-'].isPrefixOf chars && startsSpace (chars.drop 3)

/-- Whether a text starts with the mark for the end of a document. -/
def startsClosing (chars : List Char) : Bool :=
  ['.', '.', '.'].isPrefixOf chars && startsSpace (chars.drop 3)

/-- A place in a document. -/
structure Mark where
  line : Nat := 0
  column : Nat := 0
deriving DecidableEq, Repr

namespace Mark

/-- The place behind a character. -/
def after (mark : Mark) (char : Char) : Mark :=
  if isBreak char then ⟨mark.line + 1, 0⟩ else ⟨mark.line, mark.column + 1⟩

/-- The place some characters further in the same line. -/
def right (mark : Mark) (count : Nat) : Mark :=
  ⟨mark.line, mark.column + count⟩

/-- The start of the next line, unless this is the start of a line. -/
def closeLine (mark : Mark) : Mark :=
  if mark.column = 0 then mark else ⟨mark.line + 1, 0⟩

end Mark

end Yaml

end Scriptlet
