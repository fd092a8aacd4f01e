import Scriptlet.Code.Literal
import Scriptlet.Code.Remark
import Scriptlet.Code.Row

/-!
# Pages of code

Code is written on a page symbol by symbol. What separates two symbols is written
only when the second one comes, because there may be comments between them. A
comment stands in front of the first symbol whose place is behind it. It takes the
place of blanks, and line breaks move behind it.

While it is written, a page knows the place that it has reached in the code it was
read from. A symbol without a place of its own is taken to follow the one before.
-/

namespace Scriptlet

namespace Code

/-- What separates symbols. -/
inductive Gap where
  | blank
  /-- The end of a cell. -/
  | cell
  /-- The end of a line. -/
  | line
  /-- The end of a line and of all columns. -/
  | lastLine
  | indent
  | outdent
  /-- What is left of a gap where a comment stands. -/
  | nothing
deriving DecidableEq, Repr

namespace Gap

/-- Whether a gap ends a line. -/
def isBreak (gap : Gap) : Bool :=
  gap = .line || gap = .lastLine

/-- Whether a gap separates symbols on one line. -/
def isInner (gap : Gap) : Bool :=
  gap = .blank || gap = .cell

/-- A gap in front of a comment on a line of its own. -/
def withoutInner (gap : Gap) : Gap :=
  if gap.isInner then .nothing else gap

/-- Gaps in the order in which they are written. Where the indentation ends behind a
line, it does so before the line is left. -/
def settle : List Gap → List Gap
  | [] => []
  | gap :: rest =>
    let settled := settle rest
    if gap.isBreak && rest.head? = some .outdent then
      settled.takeWhile (· = .outdent) ++ .lastLine :: settled.dropWhile (· = .outdent)
    else
      gap :: settled

end Gap

namespace Comment

/-- Whether comments that belong together cannot be followed by something on their
line. -/
def needBreak (comments : List Comment) : Bool :=
  comments.any fun comment =>
    comment.fillsLine || comment.finish.line ≠ comment.place.line ||
      comments.any fun other => comment.place.line ≠ other.place.line

end Comment

/-- A page that is being written. -/
structure Page where
  /-- The complete lines, the last one first. -/
  rows : List Row := []
  /-- The complete cells of the line at hand, the last one first. -/
  cells : List Cell := []
  /-- What stands behind them. -/
  text : String := ""
  /-- The number of bytes on the line at hand, where the end of a cell is one. -/
  column : Nat := 0
  /-- The number of lines, with those inside of texts. -/
  lineCount : Nat := 0
  indent : Nat := 0
  /-- What is to be written in front of the next symbol. -/
  gaps : List Gap := []
  /-- The comments that have not been written. -/
  comments : List (List Comment) := []
  /-- The place that has been reached. -/
  place : Place := {}
  /-- The place behind the last symbol or comment. -/
  last : Place := {}
  /-- Whether the end of the line would end what is written. -/
  canEnd : Bool := false
  /-- The last symbol, if nothing separates it from the next one. -/
  symbol : Option Symbol := none
  /-- The last symbol, if it is an opening bracket. -/
  opening : Option Symbol := none
  /-- Whether a text with several lines keeps columns from going on. -/
  isBroken : Bool := false
  /-- The number of values with parts that have not been completed. -/
  level : Nat := 0
  /-- Whether a comment in front of the next symbol stays on its line. -/
  keepsLine : Bool := false
  /-- Whether no blank separates a comment from the next symbol. -/
  isTight : Bool := false
  /-- The lines where things start whose start is to be known, the innermost first. -/
  starts : List (Option Nat) := []
deriving DecidableEq, Repr

namespace Page

/-- The number of line breaks that can follow each other. -/
def maxBreaks : Nat := 2

/-- Whether nothing has been written. -/
def isEmpty (page : Page) : Bool :=
  page.rows.isEmpty && page.column = 0

/-! ## Writing -/

/-- Indents the line at hand if there is nothing on it. -/
def startLine (page : Page) : Page :=
  if page.column = 0 then
    { page with
      cells := List.replicate page.indent { isFirm := true } ++ page.cells
      column := page.indent }
  else
    page

/-- Writes a text that stands at a place. -/
def writeText (page : Page) (place : Place) (text : String) : Page :=
  let page := page.startLine
  let behind := place.afterText text
  let breaks := behind.line - place.line
  { page with
    text := page.text ++ text
    column := if breaks = 0 then page.column + text.utf8ByteSize else behind.column
    lineCount := page.lineCount + breaks
    place := behind
    last := behind
    isBroken := page.isBroken || breaks ≠ 0 }

/-- Writes a blank. -/
def writeBlank (page : Page) : Page :=
  let page := page.startLine
  { page with
    text := page.text ++ " "
    column := page.column + 1
    place := page.place.after ' ' }

/-- Ends the cell at hand. -/
def endCell (page : Page) (isFirm : Bool) : Page :=
  if page.isBroken then
    page.writeBlank
  else
    let page := page.startLine
    { page with
      cells := { text := page.text, isFirm } :: page.cells
      text := ""
      column := page.column + 1
      place := page.place.after ' ' }

/-- Ends the line at hand as it stands. -/
def addRow (page : Page) (closes : Bool) : Page :=
  let row : Row :=
    { cells := page.cells.reverse, text := page.text, closes := closes || page.isBroken }
  { page with
    rows := row :: page.rows
    cells := []
    text := ""
    column := 0
    lineCount := page.lineCount + 1
    place := page.place.after '\n'
    isBroken := false }

/-- Ends the line at hand and some lines behind it. -/
def endLines (page : Page) (closes : Bool) : Nat → Page
  | 0 => page
  | count + 1 => (List.range count).foldl (fun page _ => page.addRow closes)
      (page.startLine.addRow closes)

/-- Ends the line at hand. -/
def endLine (page : Page) (closes : Bool) : Page :=
  page.endLines closes 1

/-- Writes a gap. -/
def writeGap (page : Page) : Gap → Page
  | .blank => page.writeBlank
  | .cell => page.endCell false
  | .line => page.endLine false
  | .lastLine => page.endLine true
  | .indent => { page with indent := page.indent + 1 }
  | .outdent => { page with indent := page.indent - 1 }
  | .nothing => page

/-- Writes some gaps. -/
def writeGaps (page : Page) (gaps : List Gap) : Page :=
  (Gap.settle gaps).foldl writeGap page

/-- Writes all gaps that are to be written. -/
def writeAllGaps (page : Page) : Page :=
  { page.writeGaps page.gaps with gaps := [] }

/-! ## Comments -/

/-- Whether comments are to be written in front of a place. Comments that need a line
break wait for one where it would end what is written. -/
def isDue (page : Page) (next : Place) (group : List Comment) : Bool :=
  (group.head?.any fun comment => comment.place.offset < next.offset) &&
    (!page.canEnd || !Comment.needBreak group)

/-- Whether the next comments are to be written in front of a place. -/
def hasDue (page : Page) (next : Place) : Bool :=
  page.comments.head?.any (page.isDue next)

/-- Separates a comment from what stands before it on its line. Blanks do not count. If
nothing ends a cell, a blank or the end of a cell does: a blank if the next symbol
is on the same line. -/
def separate (page : Page) (isFirst : Bool) (comment : Comment) (next : Place) : Page :=
  let (front, back) := page.gaps.span fun gap => gap.isInner || gap = .indent
  let kept := front.map fun gap => if gap = .blank then .nothing else gap
  let (page, isSeparate) :=
    if !isFirst then
      (page, false)
    else if back.isEmpty then
      ({ page with gaps := kept }, front.contains .cell)
    else
      ({ page.writeGaps kept with gaps := back }, front.contains .cell)
  if isSeparate then
    page
  else if comment.place.line = next.line then
    page.writeBlank
  else
    page.endCell true

/-- The gaps in front of a comment on a line of its own: those that apply to it, those
that do not, and whether a line break was among them. There is nothing to part if
no gap stands between it and what follows. -/
def partGaps (aligned : Bool) : List Gap → Option (List Gap × List Gap × Bool)
  | [] => none
  | gap :: rest =>
    let further := (partGaps aligned rest).map fun (front, back, broken) =>
      (gap.withoutInner :: front, back, broken)
    match gap with
    | .blank | .cell | .indent => further
    | .outdent =>
      if rest.head? = some .outdent || aligned then further else some ([], gap :: rest, false)
    | .line | .lastLine => some ([], .nothing :: rest, true)
    | .nothing => some ([], gap :: rest, false)

/-- Starts a new line for a comment. Empty lines before it are kept. -/
def startLineFor (page : Page) (previous : Option Comment) (comment : Comment) (next : Place)
    (symbol : Option Symbol) : Page :=
  let aligned := symbol ≠ some (.sign braceClose) && comment.place.column = next.column
  let (page, dropped) :=
    match partGaps aligned page.gaps with
    | some (front, back, broken) =>
      ({ page.writeGaps front with gaps := back }, broken && previous.isNone)
    | none => ({ page with gaps := page.gaps.map Gap.withoutInner }, false)
  let breaks := comment.place.line - page.last.line
  let breaks := if page.indent = 0 && dropped then breaks + 1 else breaks
  let breaks := if breaks = 0 && previous.any (·.fillsLine) then 1 else breaks
  page.endLines true (min breaks maxBreaks)

/-- Writes the lines of a comment. -/
def writeLines (page : Page) (place : Place) : List String → Page
  | [] => page
  | first :: rest =>
    rest.foldl
      (fun page line =>
        let page := page.endLine true
        if line.isEmpty then page else page.writeText page.place line)
      (page.writeText place first)

/-- Goes to where a comment in front of a symbol stands, behind another comment if there
is one. Nothing separates it from the start of the page. -/
def reachComment (page : Page) (previous : Option Comment) (comment : Comment) (next : Place)
    (symbol : Option Symbol) : Page :=
  if page.isEmpty then
    page
  else if comment.place.line = page.last.line && !previous.any (·.fillsLine) then
    page.separate previous.isNone comment next
  else
    page.startLineFor previous comment next symbol

/-- Writes a comment in front of a symbol, behind another comment if there is one. One
that goes on to the end of its line and states a line of other code is not indented. -/
def writeComment (page : Page) (previous : Option Comment) (comment : Comment) (next : Place)
    (symbol : Option Symbol) : Page :=
  let page := page.reachComment previous comment next symbol
  let indent := page.indent
  let page := if comment.fillsLine && comment.statesLine then { page with indent := 0 } else page
  { page.writeLines comment.place (comment.lines (0 < indent)) with indent }

/-- Whether comments start in the first column of a line and end in front of a place. They
are the documentation of what stands there. -/
def isDocumentation (next : Place) (symbol : Option Symbol) (group : List Comment) : Bool :=
  symbol ≠ some (.keyword "import") && (group.head?.any fun first => first.place.column = 0) &&
    group.getLast?.any fun last => last.finish.offset + 1 = next.offset

/-- Writes some comments in front of a symbol, behind another one if there is one, and
gives the last one. -/
def writeList (next : Place) (symbol : Option Symbol) (page : Page) (previous : Option Comment)
    (comments : List Comment) : Page × Option Comment :=
  comments.foldl
    (fun (page, previous) comment =>
      (page.writeComment previous comment next symbol, some comment))
    (page, previous)

/-- Writes comments that belong together. Documentation is brought into form. If nothing
is left of it, the symbol follows at once. -/
def writeGroup (next : Place) (symbol : Option Symbol) (page : Page) (previous : Option Comment)
    (group : List Comment) : Page × Option Comment :=
  match isDocumentation next symbol group, group.head?, group.getLast? with
  | true, some first, some last =>
    match Comment.documentation group with
    | [] =>
      ({ page.reachComment previous first next symbol with place := next, last := next }, none)
    | comments =>
      let page := (writeList next symbol page previous comments).1
      ({ page with place := last.finish, last := last.finish }, some last)
  | _, _, _ => writeList next symbol page previous group

/-- Writes the comments in front of a symbol, and gives the last one. -/
def writeComments (next : Place) (symbol : Option Symbol) (page : Page)
    (previous : Option Comment) : List (List Comment) → Page × Option Comment
  | [] => ({ page with comments := [] }, previous)
  | group :: rest =>
    if page.isDue next group then
      let (page, previous) := writeGroup next symbol page previous group
      writeComments next symbol page previous rest
    else
      ({ page with comments := group :: rest }, previous)

/-- The gaps behind a comment: blanks are left out, and of the line breaks one is kept
if it is needed. Also tells whether it is still needed and whether a last line of
columns was left out. -/
def trimGaps (needed : Bool) : List Gap → List Gap × Bool × Bool
  | [] => ([], needed, false)
  | gap :: rest =>
    let keep := needed && gap.isBreak
    let (gaps, needed, dropped) := trimGaps (needed && !gap.isBreak) rest
    match gap with
    | .blank | .cell | .nothing => (.nothing :: gaps, needed, dropped)
    | .indent | .outdent => (gap :: gaps, needed, dropped)
    | .line | .lastLine =>
      if keep then
        (gap :: gaps, needed, dropped)
      else
        (.nothing :: gaps, needed, dropped || gap = .lastLine)

/-- Whether a blank separates a comment from a symbol behind it on the same line. There
is none in front of a comma or a bracket that closes something with content. -/
def needsBlank (page : Page) (symbol : Option Symbol) : Bool :=
  !page.isTight && symbol ≠ some (.sign ",") &&
    (symbol ≠ some (.sign ")") || page.opening = some (.sign "(")) &&
    (symbol ≠ some (.sign "]") || page.opening = some (.sign "["))

/-- Goes on behind the last comment in front of a symbol. Tells whether a line break
was written and whether a last line of columns was left out. -/
def afterComments (page : Page) (comment : Comment) (next : Place) (symbol : Option Symbol) :
    Page × Bool × Bool :=
  let followed :=
    !comment.fillsLine && comment.place.line = next.line && page.needsBlank symbol
  let breaks := page.gaps.any (·.isBreak) && !page.keepsLine && page.level = 0
  let page := if followed && !breaks then page.writeBlank else page
  let needed :=
    followed && breaks || comment.fillsLine || symbol.isNone ||
      (symbol = some (.sign braceClose) && !page.keepsLine)
  let (gaps, still, dropped) := trimGaps needed page.gaps
  let page := { page.writeGaps gaps with gaps := [] }
  (if still then page.endLine false else page, needed, dropped)

/-- Writes everything in front of a symbol, or of the end of the code: gaps, and comments
between them. Tells whether a line break was written and whether a last line of columns
was left out. -/
def flush (page : Page) (next : Place) (symbol : Option Symbol) : Page × Bool × Bool :=
  if page.hasDue next then
    match writeComments next symbol page none page.comments with
    | (page, some comment) => page.afterComments comment next symbol
    | (page, none) =>
      let (gaps, _, dropped) := trimGaps false page.gaps
      ({ page.writeGaps gaps with gaps := [] }, false, dropped)
  else
    (page.writeAllGaps, false, false)

/-! ## Symbols -/

/-- Remembers the last symbol if it is an opening bracket, and forgets an earlier one if
it is not. -/
def noteOpening (page : Page) : Page :=
  match page.symbol with
  | none => page
  | some symbol =>
    let isOpening := symbol = .sign "(" || symbol = .sign "["
    { page with opening := if isOpening then some symbol else none }

/-- Adds a gap in front of the next symbol. -/
def addGap (page : Page) (gap : Gap) : Page :=
  { page.noteOpening with
    gaps := page.gaps ++ [gap]
    canEnd := page.canEnd && !gap.isBreak
    symbol := none }

/-- Whether a symbol would be read as a part of the one before it. -/
def clashes (previous symbol : Symbol) : Bool :=
  match symbol with
  | .sign spelling | .keyword spelling =>
    let first := spelling.toList.head?
    match previous with
    | .number number => Numeral.isInteger number && first = some '.'
    | .sign "+" => first = some '+'
    | .sign "-" => first = some '-'
    | .sign "/" => first = some '*'
    | .sign "<" => first = some '-' || first = some '<'
    | .sign "&" => first = some '&' || first = some '^'
    | _ => false
  | _ => false

/-- Writes what stands in front of a symbol. An empty line behind a comment is kept. Tells
whether a line was ended last. -/
def approach (page : Page) (symbol : Symbol) (next : Place) : Page × Bool :=
  let (page, broke, dropped) :=
    { page with symbol := some symbol, place := next }.flush next (some symbol)
  let breaks := if page.canEnd then 0 else min (next.line - page.place.line) maxBreaks
  let breaks := if broke && breaks = maxBreaks then maxBreaks - 1 else breaks
  let page := page.endLines dropped breaks
  let starts := page.starts.map fun start => start <|> some page.lineCount
  ({ page with starts }, breaks ≠ 0)

/-- Writes a symbol, with everything in front of it. -/
def putSymbol (page : Page) (symbol : Symbol) (place : Option Place) : Page :=
  let page := page.noteOpening
  let page := if page.symbol.any (clashes · symbol) then { page with gaps := [.blank] } else page
  let next := place.getD page.place
  let (page, broke) := page.approach symbol next
  { page.writeText next symbol.spelling with canEnd := symbol.canEnd && !broke }

/-- Whether something stands on the line at hand. -/
def hasLine (page : Page) : Bool :=
  !(page.cells.all (·.text.isEmpty) && page.text.isEmpty)

/-- All lines of a page, once the comments behind the last symbol have been written. -/
def finish (page : Page) : List Row :=
  let behind := (page.comments.flatten.map (·.finish)).foldl
    (fun last place => if last.offset < place.offset then place else last) page.place
  let next : Place := { offset := behind.offset + 1, line := behind.line + maxBreaks + 1 }
  let page := ({ page.addGap .line with canEnd := false }.flush next none).1
  (if page.hasLine then page.addRow false else page).rows.reverse

end Page

/-- Writes on a page. -/
abbrev Setting : Type → Type := StateM Page

namespace Setting

/-- Writes a symbol at a place. -/
def put (symbol : Symbol) (place : Place) : Setting Unit :=
  modify (·.putSymbol symbol (some place))

/-- Writes a symbol that follows the one before. -/
def follow (symbol : Symbol) : Setting Unit :=
  modify (·.putSymbol symbol none)

/-- Writes a gap in front of the next symbol. -/
def gap (gap : Gap) : Setting Unit :=
  modify (·.addGap gap)

/-- Goes on to a line of the code that was read, with at least some line breaks. Tells how
many there are; the end of all columns counts twice. Indentation may start with them. -/
def breakTo (line least : Nat) (indents closes : Bool) : Setting Nat := do
  let breaks := max (min (line - (← get).place.line) Page.maxBreaks) least
  if breaks = 0 then
    pure 0
  else
    if indents then gap .indent
    gap (if closes then .lastLine else .line)
    if 1 < breaks then gap .line
    pure (if closes then breaks + 1 else breaks)

/-- The line that has been reached in the code that was read. -/
def line : Setting Nat := do
  pure (← get).place.line

/-- Whether there are comments in front of a place. -/
def hasComments (place : Place) : Setting Bool := do
  pure ((← get).hasDue place)

/-- Writes something and gives the line where it starts. -/
def started (setting : Setting Unit) : Setting Nat := do
  modify fun page => { page with starts := none :: page.starts }
  setting
  let page ← get
  set { page with starts := page.starts.drop 1 }
  pure ((page.starts.head?.join).getD page.lineCount)

/-- Writes the parts of a value. -/
def inside (parts : Setting Unit) : Setting Unit := do
  modify fun page => { page with level := page.level + 1 }
  parts
  modify fun page => { page with level := page.level - 1 }

/-- Writes something that is not a part of a value, even if it stands in one. -/
def outside (setting : Setting Unit) : Setting Unit := do
  let level := (← get).level
  modify fun page => { page with level := 0 }
  setting
  modify fun page => { page with level }

/-- Writes a closing brace. A comment in front of it stays on its line, and no blank
separates them if it is tight. -/
def closeBrace (isTight : Bool) (place : Place) : Setting Unit := do
  modify fun page => { page with keepsLine := true, isTight }
  put (.sign braceClose) place
  modify fun page => { page with keepsLine := false, isTight := false }

/-- The number of bytes that are written, if they fit on one line. -/
def size? (setting : Setting Unit) : Option Nat :=
  let page := (setting.run {}).2
  if page.rows.isEmpty && !page.isBroken then some page.column else none

end Setting

end Code

end Scriptlet
