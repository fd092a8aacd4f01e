/-!
# Rows of cells

Lines of code with cells that are aligned in columns. A column reaches over
neighbouring lines that have a cell in it. It ends with a line that closes all
columns.
-/

namespace Scriptlet

namespace Code

/-- The part of a line in one column. -/
structure Cell where
  text : String := ""
  /-- Whether the column is kept even if all its cells are empty. -/
  isFirm : Bool := false
deriving DecidableEq, Repr

/-- A line of code: what has its place, cells that get theirs, and the rest. -/
structure Row where
  placed : String := ""
  cells : List Cell := []
  text : String := ""
  /-- Whether all columns end with the line. -/
  closes : Bool := false
  /-- Whether all cells that have their place are empty. -/
  isIndented : Bool := true
deriving DecidableEq, Repr

namespace Row

/-- A line without cells. -/
def ofLine (line : String) : Row where
  text := line

/-- Whether the line has a cell that gets its place. -/
def hasCell (row : Row) : Bool :=
  !row.cells.isEmpty

/-- Whether the first column reaches from a line to the next one. -/
def joins (row next : Row) : Bool :=
  !row.closes && row.hasCell == next.hasCell

/-- The distance between two stops of the tabulator. -/
def tabWidth : Nat := 8

/-- What follows a cell up to a width. Empty cells in front of everything else are as
wide as tabulators. -/
def filling (width : Nat) (isIndented : Bool) (text : String) : String :=
  if isIndented && text.isEmpty then
    String.ofList (List.replicate ((width + tabWidth - 1) / tabWidth) '\t')
  else
    String.ofList (List.replicate (width - text.length) ' ')

/-- Gives the first cell its place and a width. -/
def place (width : Nat) (row : Row) : Row :=
  match row.cells with
  | [] => row
  | cell :: cells =>
    { row with
      placed := row.placed ++ cell.text ++ filling width row.isIndented cell.text
      cells
      isIndented := row.isIndented && cell.text.isEmpty }

/-- The width of the first column of neighbouring rows. There is a blank behind the
longest cell. A column that is empty may be left out. -/
def width (rows : List Row) : Nat :=
  let cells := rows.filterMap (·.cells.head?)
  if cells.any fun cell => cell.isFirm || !cell.text.isEmpty then
    (cells.map (·.text.length)).foldl max 0 + 1
  else
    0

/-- Gives the first cells of all rows their places. -/
def placeColumn (rows : List Row) : List Row :=
  (rows.splitBy joins).flatMap fun run => run.map (place (width run))

/-- The line that a row becomes once its cells have their places. There are no blanks
at its end. -/
def line (row : Row) : String :=
  let chars := (row.placed ++ row.text).toList.reverse
  String.ofList (chars.dropWhile fun char => char = ' ' || char = '\t').reverse

/-- Aligns rows, column by column. -/
def align (rows : List Row) : List String :=
  let columns := (rows.map (·.cells.length)).foldl max 0
  ((List.range columns).foldl (fun rows _ => placeColumn rows) rows).map line

end Row

end Code

end Scriptlet
