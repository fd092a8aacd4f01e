/-!
# Characters

Properties of characters are given by the ranges of code points that have them. A text is cut at
every occurrence of a character. Braces, which structure scripts and code alike, have names here.
-/

namespace Scriptlet

/-- The code points from a first to a last one, both included. -/
abbrev CharRange := Nat × Nat

namespace CharRange

/-- Whether a character lies in one of the ranges. -/
def anyContains (ranges : List CharRange) (char : Char) : Bool :=
  ranges.any fun range => range.1 ≤ char.toNat && char.toNat ≤ range.2

end CharRange

/-- The pieces of a text between the occurrences of a separator. Joining them with the separator
gives the text back. -/
def splitAt (separator : Char) : List Char → List (List Char)
  | [] => [[]]
  | char :: rest =>
    if char = separator then
      [] :: splitAt separator rest
    else
      match splitAt separator rest with
      | [] => [[char]]
      | piece :: pieces => (char :: piece) :: pieces

/-- The brace that opens a block. -/
@[match_pattern]
abbrev braceOpen : String := "\x7b"

/-- The brace that closes a block. -/
@[match_pattern]
abbrev braceClose : String := "\x7d"

/-- A text between braces. -/
def inBraces (text : String) : String :=
  braceOpen ++ text ++ braceClose

@[simp]
theorem toList_braceOpen : braceOpen.toList = ['{'] :=
  rfl

@[simp]
theorem toList_braceClose : braceClose.toList = ['}'] :=
  rfl

@[simp]
theorem toList_inBraces (text : String) :
    (inBraces text).toList = '{' :: (text.toList ++ ['}']) := by
  simp [inBraces]

/-- A text between backquotes. -/
def inBackquotes (text : String) : String :=
  "\x60" ++ text ++ "\x60"

end Scriptlet
