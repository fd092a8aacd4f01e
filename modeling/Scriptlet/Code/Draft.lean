import Scriptlet.Code.Layout
import Scriptlet.Code.Scan

/-!
# Drafts of code

A file of Go code, made of pieces. Some are in their form already, others are texts
that have to be brought into it. Each piece is read by itself if it can be. If it
cannot, it may go on in the pieces behind it, so all of them are read together.
-/

namespace Scriptlet

namespace Code

/-- A piece of code. -/
inductive Piece where
  /-- A declaration in its form, which starts with a keyword. A comment may stand in
  front of it. -/
  | rows (keyword : String) (comment : Option String) (rows : List Row)
  /-- Declarations that have to be brought into form. -/
  | text (text : String)
deriving DecidableEq, Repr

namespace Piece

/-- A piece as a text. -/
def lines : Piece → List String
  | .rows _ comment list => comment.toList ++ Row.align list
  | .text content => [content]

/-- The text of some pieces. -/
def join (pieces : List Piece) : String :=
  "\n".intercalate (pieces.flatMap lines)

end Piece

/-- A file of code: a comment, the name of its package, and pieces. -/
structure Draft where
  comment : String
  package : String
  pieces : List Piece
deriving DecidableEq, Repr

namespace Page

/-- Whether comments in front of a place are the documentation of what stands there: they
end on the line before, and do not belong to the line of the last symbol. -/
def isDocumented (page : Page) (place : Place) : Bool :=
  let groups := page.comments.filter fun group =>
    group.head?.any fun comment => comment.place.offset < place.offset
  groups.getLast?.any fun group =>
    (group.getLast?.any fun last => last.finish.line + 1 = place.line) &&
      group.head?.any fun first => first.place.line ≠ page.last.line

/-- Writes a line in its form that stands at a place. -/
def writeRow (page : Page) (place : Place) (row : Row) : Page :=
  let page := row.cells.foldl
    (fun page cell => (page.writeText page.place cell.text).endCell cell.isFirm)
    { page with place }
  page.writeText page.place row.text

/-- Writes lines in their form, of which the first starts with a keyword at a place. -/
def writeRows (page : Page) (keyword : String) (place : Place) (rows : List Row) : Page :=
  let page := (page.noteOpening.approach (.keyword keyword) place).1
  match rows with
  | [] => page
  | first :: rest =>
    let page := rest.foldl
      (fun page row =>
        let page := page.endLine false
        page.writeRow page.place row)
      (page.writeRow place first)
    { page with canEnd := true, symbol := some (.sign braceClose) }

/-- Adds comments that have not been written. -/
def addComments (page : Page) (groups : List (List Comment)) : Page :=
  { page with comments := page.comments ++ groups }

end Page

namespace Setting

/-- Writes a declaration that starts at a place, behind one with another keyword or the
same one. An empty line stands between different kinds of declarations and in front of
documentation. -/
def declared (previous keyword : String) (place : Place) (isLong : Bool)
    (setting : Setting Unit) : Setting Unit := do
  let least := if previous ≠ keyword || (← get).isDocumented place then 2 else 1
  let _ ← breakTo place.line least false isLong
  setting

/-- Writes declarations behind one with a keyword, and gives the keyword of the last. -/
def declarations (previous : String) : List GoDecl → Setting String
  | [] => pure previous
  | first :: rest => do
    declared previous first.keyword first.start first.isLong (Layout.declaration first)
    declarations first.keyword rest

end Setting

namespace Draft

/-- Code that is being written: the page, the keyword of the last declaration, and the
place where the next piece starts. -/
structure Progress where
  page : Page
  keyword : String
  place : Place
deriving DecidableEq, Repr

namespace Progress

/-- Writes declarations that are read from a text. -/
def addText (progress : Progress) (text : String) : Option Progress := do
  let lexemes ← Lexemes.scan progress.place text
  let declarations ← GoReader.readAll GoReader.allDeclarations lexemes.list
  let page := progress.page.addComments (lexemes.groups progress.place.line)
  let (keyword, page) := (Setting.declarations progress.keyword declarations).run page
  pure { page, keyword, place := (progress.place.afterText text).after '\n' }

/-- Writes a declaration in its form. Nothing but imports stands in front of imports. -/
def addRows (progress : Progress) (keyword : String) (comment : Option String)
    (rows : List Row) : Option Progress :=
  if keyword = "import" && progress.keyword ≠ "package" && progress.keyword ≠ "import" then
    none
  else
    let lines := (Piece.rows keyword comment rows).lines
    let page := progress.page.addComments (comment.toList.map fun text =>
      [{ text, place := progress.place }])
    let place := (comment.map fun text => (progress.place.afterText text).after '\n').getD
      progress.place
    let isLong := keyword = "func" && 1 < rows.length
    let setting := Setting.declared progress.keyword keyword place isLong
      (modify (·.writeRows keyword place rows))
    let next := lines.foldl (fun place line => (place.afterText line).after '\n') progress.place
    some { page := (setting.run page).2, keyword, place := next }

/-- Writes a piece. -/
def add (progress : Progress) : Piece → Option Progress
  | .rows keyword comment rows => progress.addRows keyword comment rows
  | .text text => progress.addText text

/-- Writes pieces. One that cannot be read by itself is read with those behind it. -/
def addAll (progress : Progress) : List Piece → Option Progress
  | [] => some progress
  | piece :: rest =>
    match progress.add piece with
    | some progress => progress.addAll rest
    | none => progress.addText (Piece.join (piece :: rest))

end Progress

/-- The line with the name of the package, behind the comment and an empty line. -/
def packageText (draft : Draft) : String :=
  "package " ++ draft.package

/-- The draft as one text without the comment, before it is brought into form. -/
def text (draft : Draft) : String :=
  draft.packageText ++ "\n\n" ++ Piece.join draft.pieces

/-- Writes the comment and what is read from a text that starts with the name of the
package. -/
def start (draft : Draft) (text : String) : Option Progress := do
  let comment : Comment := { text := draft.comment, place := {} }
  let place := (comment.finish.after '\n').after '\n'
  let lexemes ← Lexemes.scan place text
  let (start, name, declarations) ← GoReader.readAll GoReader.packageFile lexemes.list
  let groups := lexemes.groups place.line
  let setting : Setting String := do
    Setting.put (.keyword "package") start
    Setting.gap .blank
    Setting.put (.name name.spelling) name.place
    Setting.declarations "package" (declarations.map (·.sortImports groups.flatten))
  let (keyword, page) := setting.run { comments := [comment] :: groups }
  pure { page, keyword, place := ((place.afterText text).after '\n').after '\n' }

/-- Writes all of a draft. If the line with the name of the package cannot be read by
itself, it is read with all pieces. -/
def progress? (draft : Draft) : Option Progress :=
  match draft.start draft.packageText with
  | some progress => progress.addAll draft.pieces
  | none => draft.start draft.text

/-- The lines of a draft in their form, if it is code. -/
def lines? (draft : Draft) : Option (List String) :=
  draft.progress?.map fun progress => Row.align progress.page.finish

end Draft

end Code

end Scriptlet
