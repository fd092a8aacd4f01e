import Scriptlet.Code.Page
import Scriptlet.Code.Reader

/-!
# Writing parts of code

How lists, parameters, types with braces and blocks are written, given how to write
their parts. Lists that are written on several lines keep their line breaks. A
structure, an interface or a function that is short enough stays on one line.
-/

namespace Scriptlet

namespace Code

/-- A key and a value that can be written. -/
structure PairPart where
  key : Setting Unit
  /-- The number of bytes that the key takes on one line, if it fits. -/
  keySize : Unit → Option Nat
  colon : Place
  value : Setting Unit

/-- An expression that can be written at some depth. -/
structure Part where
  set : Nat → Setting Unit
  /-- The number of bytes that it takes on one line, if it fits. -/
  size : Unit → Option Nat
  pair : Option PairPart := none

namespace Part

/-- An expression whose size is that of its own form. -/
def ofSetting (set : Nat → Setting Unit) : Part where
  set
  size := fun _ => (set 1).size?

/-- A name. -/
def ofLabel (label : Label) : Part :=
  ofSetting fun _ => .put (.name label.spelling) label.place

/-- A key and a value. -/
def ofPair (key : Setting Unit) (colon : Place) (value : Setting Unit) : Part where
  set := fun _ => do
    key
    Setting.put (.sign ":") colon
    Setting.gap .blank
    value
  size := fun _ => Setting.size? do
    key
    Setting.put (.sign ":") colon
    Setting.gap .blank
    value
  pair := some { key, keySize := fun _ => key.size?, colon, value }

end Part

/-- A statement that can be written, also in front of a closing brace. -/
structure StmtPart where
  set : Bool → Setting Unit
  /-- The number of bytes that it takes on one line, if it fits. -/
  size : Unit → Option Nat
  start : Place
  isEmpty : Bool
  /-- The number of labels in front of it. -/
  labels : Nat

namespace StmtPart

/-- A statement, given how it is written. -/
def ofSetting (stmt : GoStmt) (set : Bool → Setting Unit) : StmtPart where
  set
  size := fun _ => (set false).size?
  start := stmt.start
  isEmpty := stmt.isEmpty
  labels := stmt.labelCount

end StmtPart

/-- How what is declared behind a keyword is written. -/
inductive SpecForm where
  /-- By itself. -/
  | alone
  /-- As the only declaration between parentheses. -/
  | only
  /-- As one of several declarations, which may have a column for types. -/
  | column (types : Bool)
deriving DecidableEq, Repr

/-- What is declared behind a keyword, if it can be written. -/
structure SpecPart where
  set : SpecForm → Setting Unit
  start : Place
  hasType : Bool
  hasValues : Bool

namespace SpecPart

/-- What is declared behind a keyword, given how it is written. -/
def ofSetting (spec : GoSpec) (set : SpecForm → Setting Unit) : SpecPart where
  set
  start := spec.start
  hasType := spec.hasType
  hasValues := spec.hasValues

end SpecPart

namespace Setting

/-! ## Lists -/

/-- How a list of expressions is written. -/
structure ListForm where
  depth : Nat := 1
  /-- Where the list starts, if it is known. -/
  opening : Option Place := none
  /-- Where the list ends, if it is known. -/
  closing : Option Place := none
  /-- Whether a line break starts indentation. -/
  indents : Bool := true
  /-- Whether a comma stands at the end of the last line. -/
  closesLine : Bool := false

/-- What is known about the members of a list that have been written. -/
structure ListState where
  /-- Whether indentation is still to start. -/
  indents : Bool
  /-- The line of the last member, or else of the start of the list. -/
  line : Option Nat
  /-- The number of members up to the first one of the line at hand. -/
  lineStart : Nat := 0
  /-- The number of members. -/
  index : Nat := 0
  /-- The size of the last member, or zero if it does not fit on one line. -/
  size : Nat := 0
  /-- The product of the sizes of members that are aligned, and their number. -/
  product : Nat := 1
  count : Nat := 0

/-- The size up to which members of different sizes are aligned. -/
def smallSize : Nat := 40

namespace ListState

/-- Whether a member is aligned with the one before. Both must fit on one line, and a
long one must be neither much longer nor much shorter than the mean of those before:
the factor is two and a half. -/
def aligns (state : ListState) (size : Nat) : Bool :=
  state.size ≠ 0 && size ≠ 0 &&
    (state.count = 0 || (state.size ≤ smallSize && size ≤ smallSize) ||
      (Nat.pow 2 state.count * state.product < Nat.pow (5 * size) state.count &&
        Nat.pow (2 * size) state.count < Nat.pow 5 state.count * state.product))

end ListState

/-- Writes a comma in front of a member of a list. It stands with the member, unless
that starts a new line. -/
def comma (breaks : Bool) (place : Place) : Setting Unit :=
  if breaks then follow (.sign ",") else put (.sign ",") place

/-- Writes members on one line. -/
def oneLine (depth : Nat) : List (Member Part) → Setting Unit
  | [] => pure ()
  | [last] => last.content.set depth
  | first :: next :: rest => do
    first.content.set depth
    put (.sign ",") next.first
    gap .blank
    oneLine depth (next :: rest)

/-- The size of a member of a list, where only the key counts if there is one. -/
def memberSize (form : ListForm) (part : Part) : Nat :=
  if form.opening.isSome && form.closing.isSome then
    ((part.size ()).bind fun size =>
      match part.pair with
      | some pair => pair.keySize ()
      | none => some size).getD 0
  else
    0

/-- Separates a member of a list from the one before. Where a member starts a new line,
it keeps it. -/
def separateMember (aligns : Bool) (state : ListState) (first : Place) : Setting ListState := do
  let breaks := state.line.any (· < first.line)
  comma breaks first
  let count ←
    if breaks then
      breakTo first.line 0 state.indents (!aligns || state.lineStart < state.index)
    else
      pure 0
  if count = 0 then gap .blank
  let state :=
    if count = 0 then state
    else { state with indents := false, lineStart := state.index + 1 }
  pure (if 1 < count then { state with product := 1, count := 0 } else state)

/-- Writes a member of a list. Keys of members that start new lines have a column. -/
def listMember (form : ListForm) (isOnly : Bool) (state : ListState) (member : Member Part) :
    Setting ListState := do
  let breaks := state.line.any (· < member.first.line)
  let size := memberSize form member.content
  let aligns := state.aligns size
  let state ← if state.index = 0 then pure state else separateMember aligns state member.first
  match member.content.pair with
  | some pair =>
    if !isOnly && size ≠ 0 && breaks then
      pair.key
      put (.sign ":") pair.colon
      gap .cell
      pair.value
    else
      member.content.set form.depth
  | none => member.content.set form.depth
  let state :=
    if size = 0 then state
    else { state with product := state.product * size, count := state.count + 1 }
  pure { state with line := some member.first.line, index := state.index + 1, size }

/-- Writes a list of expressions. -/
def list (form : ListForm) (members : List (Member Part)) : Setting Unit := do
  match members with
  | [] => pure ()
  | first :: _ =>
    let openingLine := form.opening.map (·.line)
    let lastLine := (members.getLast?.map (·.lastLine)).getD first.lastLine
    if openingLine = some first.first.line && first.first.line = lastLine then
      oneLine form.depth members
    else
      let count ←
        if openingLine.any (· < first.first.line) then
          breakTo first.first.line 0 form.indents true
        else
          pure 0
      let start : ListState :=
        { indents := form.indents && count = 0, line := openingLine
          lineStart := if count = 0 then 0 else 1 }
      let state ← members.foldlM (listMember form (members.length = 1)) start
      let isIndented := form.indents && !state.indents
      let reached ← line
      if form.closesLine && form.closing.any (reached < ·.line) then
        follow (.sign ",")
        if isIndented then gap .outdent
        gap .lastLine
      else if isIndented then
        gap .outdent

/-- Writes a list of expressions between two brackets. -/
def members (depth : Nat) (closesLine : Bool) (members : Members Part) : Setting Unit :=
  list { depth, opening := some members.opening, closing := some members.closing, closesLine }
    members.list

/-- Writes names with commas between them. -/
def names (indents : Bool) (labels : List Label) : Setting Unit :=
  list { indents } (labels.map fun label =>
    { content := .ofLabel label, first := label.place, lastLine := label.place.line })

/-! ## Parameters -/

/-- Writes parameters behind a line. Tells whether indentation is still to start, and
the line of the last one. -/
def parameterList (isFirst indents : Bool) (line : Nat) :
    List (Member Part) → Setting (Bool × Nat)
  | [] => pure (indents, line)
  | parameter :: rest => do
    let breaks := line < parameter.first.line
    if !isFirst then comma breaks parameter.first
    let count ← if breaks then breakTo parameter.first.line 0 indents true else pure 0
    if count = 0 && !isFirst then gap .blank
    let indents := indents && count = 0
    if !parameter.names.isEmpty then
      names indents parameter.names
      gap .blank
    parameter.content.set 1
    parameterList false indents parameter.lastLine rest

/-- Writes parameters between two brackets. A comma is added at the end of the last
line, and where it is needed. -/
def parameters (opening closing : String) (needsComma : Bool) (list : Members Part) :
    Setting Unit := do
  put (.sign opening) list.opening
  let (indents, lastLine) ← parameterList true true list.opening.line list.list
  if !list.list.isEmpty then
    if lastLine < list.closing.line then
      follow (.sign ",")
      let _ ← breakTo list.closing.line 0 false true
    else if needsComma then
      follow (.sign ",")
    if !indents then gap .outdent
  put (.sign closing) list.closing

/-- Writes what a function takes and gives. A single result without a name needs no
parentheses. -/
def signature (taken given : Members Part) : Setting Unit := do
  parameters "(" ")" false taken
  match given.list with
  | [] => pure ()
  | [{ names := [], content, .. }] =>
    gap .blank
    content.set 1
  | _ =>
    gap .blank
    parameters "(" ")" false given

/-! ## Structures and interfaces -/

/-- The longest member that can share a line with braces. -/
def maxMemberSize : Nat := 30

/-- The only member, if it is short enough to stand between braces on one line. Names
count as much as the blank behind them. -/
def short? (members : Members Part) : Option (Member Part) :=
  match members.list with
  | [member] =>
    let names := if member.names.isEmpty then 0 else 1
    if member.tag.isNone && !member.isCommented &&
        (member.content.size ()).any (fun size => names + size ≤ maxMemberSize) then
      some member
    else
      none
  | _ => none

/-- Writes names on one line. -/
def shortNames : List Label → Setting Unit
  | [] => pure ()
  | [last] => put (.name last.spelling) last.place
  | first :: rest => do
    put (.name first.spelling) first.place
    follow (.sign ",")
    gap .blank
    shortNames rest

/-- Writes a field on one line. -/
def shortField (field : Member Part) : Setting Unit := do
  if !field.names.isEmpty then
    shortNames field.names
    gap .blank
  field.content.set 1

/-- Writes a method without the keyword of its type, or types. -/
def element (element : Member Part) : Setting Unit := do
  shortNames element.names
  element.content.set 1

/-- Writes some gaps of one kind. -/
def gaps (count : Nat) (kind : Gap) : Setting Unit :=
  match count with
  | 0 => pure ()
  | count + 1 => do
    gap kind
    gaps count kind

/-- Writes a field on a line of its own. Several fields have columns for their types,
tags and comments. -/
def longField (isOnly : Bool) (field : Member Part) : Setting Unit := do
  let column := if isOnly then Gap.blank else .cell
  if !field.names.isEmpty then
    names false field.names
    gap column
  field.content.set 1
  match field.tag with
  | some tag =>
    if !field.names.isEmpty && !isOnly then gap column
    gap column
    put (.text tag.spelling) tag.place
  | none =>
    if field.isCommented then gaps (if field.names.isEmpty then 2 else 1) column

/-- Writes things on lines of their own, given where they start and how they are written.
Behind one with several lines, the columns end. -/
def lines (start : Option Nat) : List (Place × Setting Unit) → Setting Unit
  | [] => pure ()
  | (place, setting) :: rest => do
    if let some start := start then
      let _ ← breakTo place.line 1 false (start < (← get).lineCount)
    let start ← started setting
    lines (some start) rest

/-- Writes members between braces. Without members, or with a short one, they stay on
one line, unless they have several lines in the code that was read or there are
comments. -/
def braced (short long : Member Part → Setting Unit) (members : Members Part) :
    Setting Unit := do
  let commented ← hasComments members.closing
  let fits := !commented && members.opening.line = members.closing.line
  let only := if fits then short? members else none
  if fits && members.list.isEmpty then
    put (.sign braceOpen) members.opening
    put (.sign braceClose) members.closing
  else if let some only := only then
    put (.sign braceOpen) members.opening
    gap .blank
    short only
    gap .blank
    put (.sign braceClose) members.closing
  else
    gap .blank
    put (.sign braceOpen) members.opening
    gap .indent
    if commented || !members.list.isEmpty then gap .lastLine
    lines none (members.list.map fun member => (member.first, long member))
    gap .outdent
    gap .lastLine
    put (.sign braceClose) members.closing

/-! ## Other expressions -/

/-- Writes a name behind a point. Tells whether it starts a new line, with
indentation. -/
def selection (label : Label) : Setting Bool := do
  follow (.sign ".")
  let breaks := (← line) < label.place.line
  if breaks then
    gap .indent
    gap .line
  put (.name label.spelling) label.place
  pure breaks

/-- Writes something that ends the indentation it starts. -/
def complete (setting : Setting Unit) : Setting Bool := do
  setting
  pure false

/-- Ends the indentation that something has started. -/
def closed (setting : Setting Bool) : Setting Unit := do
  if ← setting then gap .outdent

/-- Writes a function type. -/
def functionType (place : Place) (taken given : Members Part) : Setting Unit := do
  put (.keyword "func") place
  signature taken given

/-- A method, which is written without the keyword of its type, though it counts for its
size, or else a function type. -/
def methodPart (isMethod : Bool) (place : Place) (taken given : Members Part) : Part where
  set := fun _ => if isMethod then signature taken given else functionType place taken given
  size := fun _ => (functionType place taken given).size?

/-- Writes bounds with colons between them, which may stand between blanks. -/
def bounds (depth : Nat) (spaced : Bool) : List (Option Part) → Setting Unit
  | [] => pure ()
  | first :: rest => do
    if let some first := first then first.set depth
    match rest with
    | [] => pure ()
    | next :: _ =>
      if spaced && first.isSome then gap .blank
      follow (.sign ":")
      if spaced && next.isSome then gap .blank
    bounds depth spaced rest

/-! ## Statements -/

/-- Writes statements on lines of their own. There are so many up to the last one, and
columns end behind a statement with several lines, or behind each one. -/
def statementLines (ends braceFollows : Bool) (last : Nat) (index : Nat) (start : Option Nat) :
    List StmtPart → Setting Unit
  | [] => pure ()
  | part :: rest => do
    if part.isEmpty then
      statementLines ends braceFollows last index start rest
    else
      let closes := ends || start.all (· < (← get).lineCount)
      let _ ← breakTo part.start.line 1 false closes
      let start ← started (part.set (braceFollows && index = last))
      statementLines ends braceFollows last (index + 1) (some (start + part.labels)) rest

/-- Writes statements of a block, with indentation unless they are cases of a switch. -/
def statements (indents braceFollows : Bool) (list : List StmtPart) : Setting Unit := do
  if indents then gap .indent
  statementLines (!indents) braceFollows (list.length - 1) 0 none list
  if indents then gap .outdent

/-- Writes a block on several lines. -/
def block (indents : Bool) (body : Braced StmtPart) : Setting Unit := do
  put (.sign braceOpen) body.opening
  statements indents true body.list
  let _ ← breakTo body.closing.line 1 false true
  put (.sign braceClose) body.closing

/-- The longest function that can stand on one line, and the number of its statements. -/
def maxFunctionSize : Nat := 100

def maxFunctionStmts : Nat := 5

/-- Writes statements on one line. -/
def shortStatements : List StmtPart → Setting Unit
  | [] => pure ()
  | [last] => last.set true
  | first :: rest => do
    first.set false
    follow (.sign ";")
    gap .blank
    shortStatements rest

/-- The number of bytes in the comments in front of a place. -/
def commentSize (place : Place) : Setting Nat := do
  let page ← get
  let groups := page.comments.takeWhile (page.isDue place)
  pure ((groups.flatten.map (·.text.utf8ByteSize)).foldl Nat.add 0)

/-- Whether the body of a function can share a line with what stands before it, if that
has a size. -/
def fitsLine (size : Nat) (body : Braced StmtPart) : Setting Bool := do
  let comments ← commentSize body.closing
  if body.opening.line = body.closing.line && body.list.length ≤ maxFunctionStmts then
    match body.list.mapM fun part => part.size () with
    | some sizes =>
      pure (size + comments + sizes.foldl Nat.add 0 + 2 * (sizes.length - 1) ≤ maxFunctionSize)
    | none => pure false
  else
    pure false

/-- Writes the body of a function behind a gap. A short one stays on one line. -/
def functionBody (size : Option Nat) (separator : Gap) (body : Braced StmtPart) : Setting Unit :=
  outside do
    let fits ←
      match size with
      | some size => fitsLine size body
      | none => pure false
    if fits then
      gap separator
      put (.sign braceOpen) body.opening
      if !body.list.isEmpty then
        gap .blank
        shortStatements body.list
        gap .blank
      closeBrace false body.closing
    else
      gap .blank
      block true body

/-- The number of bytes from a column on, if the line is still the same. -/
def sizeFrom (place : Place) (column extra : Nat) : Setting (Option Nat) := do
  let page ← get
  pure (if place.line = page.place.line then some (page.column - column + extra) else none)

/-- Writes a function with its body. -/
def closure (place : Place) (taken given : Members Part) (body : Braced StmtPart) :
    Setting Unit := do
  put (.keyword "func") place
  let column := (← get).column
  signature taken given
  functionBody (← sizeFrom place column "func".length) .blank body

/-- Writes what stands between a keyword and a block. All semicolons are written if there
is more than a condition. -/
def header (isLoop : Bool) (first : Option StmtPart) (condition : Option (Setting Unit))
    (last : Option StmtPart) : Setting Unit := do
  gap .blank
  let semicolons := first.isSome || last.isSome
  if let some first := first then first.set false
  if semicolons then
    follow (.sign ";")
    gap .blank
  if let some condition := condition then condition
  if semicolons && isLoop then
    follow (.sign ";")
    gap .blank
    if let some last := last then
      last.set false
      gap .blank
  else if condition.isSome then
    gap .blank

/-- Whether values on several lines are indented as a whole: if one of them does not start
where the one before ends, or if there are several with more than one line. -/
def indentsAll (values : List (Member Part)) : Bool :=
  let starts := (values.zip (values.drop 1)).any fun (value, next) =>
    value.lastLine < next.first.line
  let long := values.filter fun value => value.first.line < value.lastLine
  starts || 1 < long.length

/-- Writes the values of a function. -/
def result (values : List (Member Part)) : Setting Unit := do
  if !values.isEmpty then
    gap .blank
    if indentsAll values then
      gap .indent
      list { indents := false } values
      gap .outdent
    else
      list {} values

/-! ## Declarations -/

/-- Whether the lines of several declarations have a column for types: those of a run of
declarations with values do if one of them has a type. -/
def typeColumns : List SpecPart → List Bool
  | [] => []
  | part :: rest =>
    let run := rest.takeWhile (·.hasValues)
    let columns := typeColumns rest
    if !part.hasValues then
      false :: columns
    else if part.hasType || run.any (·.hasType) then
      (List.replicate (run.length + 1) true) ++ columns.drop run.length
    else
      false :: columns

/-- Writes declarations between parentheses. Several constants or variables have columns
for types and values. -/
def specs (isValues : Bool) (opening closing : Place) (list : List SpecPart) :
    Setting Unit := do
  put (.sign "(") opening
  if !list.isEmpty then
    gap .indent
    gap .lastLine
    let forms : List SpecForm :=
      match list with
      | [_] => [.only]
      | _ => (if isValues then typeColumns list else list.map fun _ => false).map .column
    lines none ((list.zip forms).map fun (part, form) => (part.start, part.set form))
    gap .outdent
    gap .lastLine
  put (.sign ")") closing

/-- Writes constants or variables. -/
def values (form : SpecForm) (labels : List Label) (type : Option (Setting Unit))
    (given : List (Member Part)) (isCommented : Bool) : Setting Unit := do
  names (form = .alone) labels
  match form with
  | .column types =>
    if type.isSome || types then gap .cell
    if let some type := type then type
    if !given.isEmpty then
      gap .cell
      follow (.sign "=")
      gap .blank
      list {} given
    if isCommented then
      let used := (if type.isSome || types then 1 else 0) + (if given.isEmpty then 0 else 1)
      gaps (3 - used) .cell
  | _ =>
    if let some type := type then
      gap .blank
      type
    if !given.isEmpty then
      gap .blank
      follow (.sign "=")
      gap .blank
      list {} given

end Setting

end Code

end Scriptlet
