import Scriptlet.Code.Tree

/-!
# Reading symbols in order

A reader takes symbols from the front of some code. It knows where the last one stood,
and whether it is in front of a block, where a brace behind a name starts the block.
-/

namespace Scriptlet

namespace Code

/-- The symbols that have not been read, and what is known about those that have. -/
structure Rest where
  lexemes : List Lexeme
  /-- The place of the last symbol. -/
  place : Place := {}
  /-- The line where the last symbol ends. -/
  lastLine : Nat := 0
  /-- Whether a brace behind a name starts a block. -/
  isHeader : Bool := false
  /-- Whether there was a value whose braces would be taken for those of a block. -/
  guards : Bool := false
deriving DecidableEq, Repr

/-- Reads something from the front of the rest, or fails. -/
abbrev GoReader (α : Type) : Type := StateT Rest Option α

namespace GoReader

/-- The next symbol. -/
def peek : GoReader (Option Symbol) := do
  pure ((← get).lexemes.head?.map (·.symbol))

/-- The next two symbols. -/
def peekTwo : GoReader (List Symbol) := do
  pure (((← get).lexemes.take 2).map (·.symbol))

/-- The place of the next symbol. -/
def nextPlace : GoReader Place := do
  let rest ← get
  pure ((rest.lexemes.head?.map (·.place)).getD rest.place)

/-- The place of the last symbol. -/
def lastPlace : GoReader Place := do
  pure (← get).place

/-- The line where the last symbol ends. -/
def lastLine : GoReader Nat := do
  pure (← get).lastLine

/-- Reads something in front of a block, or something that is not. -/
def within {α : Type} (isHeader : Bool) (reader : GoReader α) : GoReader α := do
  let outer := (← get).isHeader
  modify fun rest => { rest with isHeader }
  let value ← reader
  modify fun rest => { rest with isHeader := outer }
  pure value

/-- Reads something and tells whether there was a value in it whose braces would be taken
for those of a block. -/
def guarded {α : Type} (reader : GoReader α) : GoReader (α × Bool) := do
  let outer := (← get).guards
  modify fun rest => { rest with guards := false }
  let value ← reader
  let guards := (← get).guards
  modify fun rest => { rest with guards := outer }
  pure (value, guards)

/-- Takes a symbol that passes a test. -/
def take {α : Type} (test : Symbol → Option α) : GoReader α := fun rest =>
  match rest.lexemes with
  | [] => none
  | lexeme :: lexemes =>
    (test lexeme.symbol).map fun value =>
      (value, { rest with lexemes, place := lexeme.place, lastLine := lexeme.finish.line })

/-- Takes a given symbol. -/
def exactly (symbol : Symbol) : GoReader Unit :=
  take fun other => if other = symbol then some () else none

/-- Takes a given symbol if it is the next one. -/
def optional (symbol : Symbol) : GoReader Bool := do
  if (← peek) = some symbol then
    exactly symbol
    pure true
  else
    pure false

def sign (spelling : String) : GoReader Unit :=
  exactly (.sign spelling)

def keyword (spelling : String) : GoReader Unit :=
  exactly (.keyword spelling)

/-- Takes a name. -/
def label : GoReader Label := do
  let spelling ← take fun
    | .name spelling => some spelling
    | _ => none
  pure ⟨← lastPlace, spelling⟩

/-- Takes a quoted text if it is the next symbol. -/
def tag? : GoReader (Option Label) := do
  match ← peek with
  | some (.text spelling) =>
    exactly (.text spelling)
    pure (some ⟨← lastPlace, spelling⟩)
  | _ => pure none

/-- Whether the comments behind a symbol on a line stand at the end of the line. -/
def hasRemark (line : Nat) : List Lexeme → Bool
  | [] => false
  | next :: _ =>
    match (Comment.onLine line next.comments).1.getLast? with
    | none => false
    | some last =>
      next.place.line ≠ last.finish.line || next.symbol = .sign ";" || next.symbol = .lineEnd

/-- Ends a declaration, a statement or a member, and tells whether a comment at the end
of the line belongs to it. Nothing needs to stand in front of a closing bracket. -/
def finish : GoReader Bool := fun rest =>
  match rest.lexemes with
  | ⟨.sign ";", place, _⟩ :: lexemes =>
    some (hasRemark place.line lexemes, { rest with lexemes })
  | ⟨.lineEnd, _, comments⟩ :: lexemes =>
    let isCommented := comments.head?.any fun comment => comment.place.line = rest.place.line
    some (isCommented, { rest with lexemes })
  | ⟨.sign ")", _, _⟩ :: _ | ⟨.sign braceClose, _, _⟩ :: _ => some (false, rest)
  | _ => none

/-- Reads the same thing for as long as the next symbol can start it. There may not be more
of it than a limit. -/
def many {α : Type} (starts : Symbol → Bool) (item : GoReader α) : Nat → GoReader (List α)
  | 0 => do
    if (← peek).any starts then failure else pure []
  | limit + 1 => do
    if (← peek).any starts then
      let first ← item
      pure (first :: (← many starts item limit))
    else
      pure []

/-- Reads the same thing up to a closing bracket, with commas between, up to a
limit. A comma may also stand in front of the bracket. -/
def separated {α : Type} (closing : String) (item : GoReader α) : Nat → GoReader (List α)
  | 0 => failure
  | limit + 1 => do
    if ← optional (.sign closing) then
      pure []
    else
      let first ← item
      if ← optional (.sign ",") then
        pure (first :: (← separated closing item limit))
      else
        sign closing
        pure [first]

/-- An expression as a member of a list. -/
def member (content : GoReader GoExpr) : GoReader (Member GoExpr) := do
  let first ← nextPlace
  let content ← content
  pure { content, first, lastLine := ← lastLine }

/-- Reads members up to a closing bracket. The opening one has been read. -/
def membersUpTo (closing : String) (content : GoReader GoExpr) (limit : Nat) :
    GoReader (Members GoExpr) := do
  let opening ← lastPlace
  let list ← separated closing (member content) limit
  pure { list, opening, closing := ← lastPlace }

/-- How strongly a sign between two expressions binds. -/
def strength? (sign : String) : Option Nat :=
  if sign = "||" then some 1
  else if sign = "&&" then some 2
  else if ["==", "!=", "<", "<=", ">", ">="].contains sign then some 3
  else if ["+", "-", "|", "^"].contains sign then some 4
  else if ["*", "/", "%", "<<", ">>", "&", "&^"].contains sign then some 5
  else none

/-- The signs that can stand in front of a constant. -/
def unarySigns : List String :=
  ["+", "-", "!", "^", "&", "~"]

/-- Whether a type can start with a symbol. -/
def startsType : Symbol → Bool
  | .name _ => true
  | .keyword spelling => ["struct", "func", "interface", "map", "chan"].contains spelling
  | .sign spelling => ["[", "*", "<-", "("].contains spelling
  | _ => false

/-- Whether a field can start with a symbol. -/
def startsField : Symbol → Bool
  | .name _ => true
  | .sign spelling => spelling = "*"
  | _ => false

/-- Whether an element of an interface can start with a symbol. -/
def startsElement (symbol : Symbol) : Bool :=
  symbol = .sign "~" || startsType symbol

/-- Whether a brace behind an expression starts the parts of a value. It does not behind a
name in front of a block. -/
def startsParts (isHeader : Bool) : GoExpr → Bool
  | .name _ | .selected _ _ | .indexed _ _ => !isHeader
  | .array _ _ _ | .record _ _ | .map _ _ _ => true
  | _ => false

/-- Whether a statement can start with a symbol that starts an expression. -/
def startsSimple : Symbol → Bool
  | .name _ | .number _ | .text _ | .char _ => true
  | .keyword spelling => ["func", "struct", "map", "chan", "interface"].contains spelling
  | .sign spelling => ["(", "[", "+", "-", "*", "&", "^", "<-", "!"].contains spelling
  | .lineEnd => false

/-- The signs that store a value. -/
def assignmentSigns : List String :=
  [":=", "=", "+=", "-=", "*=", "/=", "%=", "&=", "|=", "^=", "<<=", ">>=", "&^="]

/-- Whether a symbol is a semicolon or stands for one. -/
def isSemicolon (symbol : Symbol) : Bool :=
  symbol = .sign ";" || symbol = .lineEnd

/-- Whether the statements of a block or a case end in front of a symbol. -/
def endsStatements (symbol : Symbol) : Bool :=
  symbol = .sign braceClose || symbol = .keyword "case" || symbol = .keyword "default"

/-- A channel behind an arrow, from which one can receive. The arrow of a channel to
send to belongs to the channel that is sent. -/
def receiving (arrow : Place) : GoExpr → Option GoExpr
  | .channel _ direction element =>
    match direction with
    | .both => some (.channel arrow .receive element)
    | .send inner => (receiving inner element).map (.channel arrow .receive ·)
    | .receive => none
  | _ => none

/-- A parameter before names and types have been told apart. -/
structure Entry where
  name : Option Label := none
  type : Option GoExpr := none
  first : Place := {}
  lastLine : Nat := 0

namespace Entry

/-- Whether an entry has a name and a type. -/
def isFull (entry : Entry) : Bool :=
  entry.name.isSome && entry.type.isSome

/-- A parameter without a name. -/
def unnamed (entry : Entry) : Option (Member GoExpr) := do
  let type ← entry.type <|> entry.name.map GoExpr.name
  pure { content := type.ungrouped, first := entry.first, lastLine := entry.lastLine }

/-- Parameters with names. A name without a type has the type of the next one. -/
def share (names : List Label) : List Entry → Option (List (Member GoExpr))
  | [] => if names.isEmpty then some [] else none
  | entry :: rest => do
    let names := names ++ [← entry.name]
    match entry.type with
    | none => share names rest
    | some type =>
      let first := (names.head?.map (·.place)).getD entry.first
      let parameter : Member GoExpr :=
        { names, content := type.ungrouped, first, lastLine := entry.lastLine }
      pure (parameter :: (← share [] rest))

/-- The parameters that entries stand for. Either all of them have names or none
has one. -/
def members (entries : List Entry) : Option (List (Member GoExpr)) :=
  if entries.any isFull then share [] entries else entries.mapM unnamed

end Entry

/-- Whether a member takes any number of values. -/
def isVariadic (member : Member GoExpr) : Bool :=
  member.content matches .dots _ _

/-- Whether only the last member takes any number of values, if one may do so. -/
def variadicLast (allowed : Bool) (members : List (Member GoExpr)) : Bool :=
  match members.reverse with
  | [] => true
  | last :: others =>
    !others.any isVariadic && (!isVariadic last || (allowed && last.names.length ≤ 1))

/-- Reads members between braces. -/
def braced (list : GoReader (List (Member GoExpr))) : GoReader (Members GoExpr) := do
  sign braceOpen
  let opening ← lastPlace
  let list ← list
  sign braceClose
  pure { list, opening, closing := ← lastPlace }

/-- Reads parameters up to a closing bracket. The opening one and some entries have
been read. -/
def parametersUpTo (closing : String) (variadic : Bool) (opening : Place) (entries : List Entry)
    (entry : GoReader Entry) (limit : Nat) : GoReader (Members GoExpr) := do
  let entries := entries ++ (← separated closing entry limit)
  let list ← (Entry.members entries : Option _)
  if !variadicLast variadic list then failure
  pure { list, opening, closing := ← lastPlace }

/-- Reads parameters between parentheses. -/
def parameters (variadic : Bool) (entry : GoReader Entry) (limit : Nat) :
    GoReader (Members GoExpr) := do
  sign "("
  parametersUpTo ")" variadic (← lastPlace) [] entry limit

/-- Reads further names of a field. -/
def moreNames (limit : Nat) : GoReader (List Label) :=
  many (· = .sign ",") (do sign ","; label) limit

/-- Reads expressions with commas between them. -/
def list (content : GoReader GoExpr) (limit : Nat) : GoReader (List (Member GoExpr)) := do
  let first ← member content
  pure (first :: (← many (· = .sign ",") (do sign ","; member content) limit))

/-- Takes a semicolon, or what stands for one. -/
def semicolon : GoReader Unit :=
  take fun symbol => if isSemicolon symbol then some () else none

/-- Reads a block. -/
def block (statement : GoReader GoStmt) (limit : Nat) : GoReader (Braced GoStmt) := do
  sign braceOpen
  let opening ← lastPlace
  let list ← within false (many (!endsStatements ·) statement limit)
  sign braceClose
  pure { list, opening, closing := ← lastPlace }

/-- Reads the cases of a switch. -/
def cases (clause : GoReader GoStmt) (limit : Nat) : GoReader (Braced GoStmt) := do
  sign braceOpen
  let opening ← lastPlace
  let list ← many (fun symbol => endsStatements symbol && symbol ≠ .sign braceClose) clause limit
  sign braceClose
  pure { list, opening, closing := ← lastPlace }

/-- The only expression of a list. -/
def single? : List (Member GoExpr) → Option GoExpr
  | [only] => some only.content
  | _ => none

/-- A short statement in front of a block. -/
inductive Short where
  | stmt (stmt : GoStmt)
  /-- The elements of something get names or are stored. -/
  | range (left : List (Member GoExpr)) (stored : Option (Place × String)) (range : Place)
      (list : GoExpr)

namespace Short

/-- Whether a short statement is about the elements of something. -/
def isRange : Short → Bool
  | .stmt _ => false
  | .range _ _ _ _ => true

/-- A short statement that is not about elements. -/
def stmt? : Short → Option GoStmt
  | .stmt inner => some inner
  | .range _ _ _ _ => none

end Short

/-- The expression that a statement consists of. -/
def exprOf? : GoStmt → Option GoExpr
  | .expr expr => some expr
  | _ => none

/-- Whether an expression asks for the type of a value. -/
def asksType : GoExpr → Bool
  | .asserted _ _ none _ => true
  | _ => false

/-- Whether a statement in front of the cases of a switch asks for the type of a value.
It may give the value a new name. -/
def isTypeGuard : GoStmt → Option Bool
  | .expr expr => some (asksType expr)
  | .assign [_] _ sign [value] =>
    if !asksType value.content then some false
    else if sign = ":=" then some true
    else none
  | _ => some false

end GoReader

end Code

end Scriptlet
