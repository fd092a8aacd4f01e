import Scriptlet.Text.Decimal
import Scriptlet.Text.Glyph

/-!
# Positions and spans

A position counts lines and columns in characters, from one, and the offset in
bytes, from zero. Spans found by the lexer lie inside a source; spans of trees
and tokens built by hand may hold any numbers.
-/

namespace Scriptlet

/-- A place in a source file. -/
structure Position where
  line : Int := 0
  column : Int := 0
  offset : Int := 0
  file : String := ""
deriving DecidableEq, Repr, Inhabited

namespace Position

/-- The first position of a file. -/
def start (file : String) : Position where
  line := 1
  column := 1
  file := file

/-- The position behind a character. -/
def after (position : Position) (glyph : Glyph) : Position :=
  if glyph.char = '\n' then
    { position with
      line := position.line + 1
      column := 1
      offset := position.offset + glyph.size }
  else
    { position with
      column := position.column + 1
      offset := position.offset + glyph.size }

/-- The position behind some characters. -/
def afterAll (position : Position) (glyphs : List Glyph) : Position :=
  glyphs.foldl after position

/-- The name by which messages call a file. -/
def fileName (position : Position) : String :=
  if position.file = "" then "<unknown>" else position.file

/-- A position in a message: file, line and column. -/
def describe (position : Position) : String :=
  position.fileName ++ ":" ++ Decimal.text position.line ++ ":" ++
    Decimal.text position.column

@[simp]
theorem afterAll_nil (position : Position) : position.afterAll [] = position :=
  rfl

@[simp]
theorem afterAll_cons (position : Position) (glyph : Glyph) (glyphs : List Glyph) :
    position.afterAll (glyph :: glyphs) = (position.after glyph).afterAll glyphs :=
  rfl

@[simp]
theorem afterAll_append (position : Position) (left right : List Glyph) :
    position.afterAll (left ++ right) = (position.afterAll left).afterAll right := by
  simp [afterAll]

end Position

/-- A stretch of source text between two positions. -/
structure Span where
  start : Position := {}
  finish : Position := {}
deriving DecidableEq, Repr, Inhabited

namespace Span

/-- The empty span at a position. -/
def point (position : Position) : Span where
  start := position
  finish := position

/-- The span from the start of one span to the finish of another. -/
def join (first last : Span) : Span where
  start := first.start
  finish := last.finish

/-- A span in a message: the start, then line and column of the finish. -/
def describe (span : Span) : String :=
  span.start.describe ++ "-" ++ Decimal.text span.finish.line ++ ":" ++
    Decimal.text span.finish.column

end Span

end Scriptlet
