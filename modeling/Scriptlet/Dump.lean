import Scriptlet.Syntax.Tree
import Scriptlet.Text.Chars
import Scriptlet.Token.Basic

/-!
# Dumps

Tokens and trees written out in full, as nested records with one field a line.
A field that holds nothing worth showing (zero, an empty text, an absent list, a
record of such fields) is left out.
-/

namespace Scriptlet

/-- What a dump shows. -/
inductive Datum where
  /-- A number, a name or a quoted text. -/
  | atom (text : String)
  /-- A list that is there but has no items. -/
  | emptyList
  /-- Items behind the name of their list. -/
  | list (name : String) (items : List Datum)
  /-- Named fields behind the name of their record, which may be left out. -/
  | record (name : String) (fields : List (String × Datum))
deriving Repr, Inhabited

namespace Datum

/-- Two blanks for each level of nesting. -/
def indentation (level : Nat) : String :=
  String.ofList (List.replicate (2 * level) ' ')

mutual

/-- A datum whose first line stands on a given level. -/
def render (level : Nat) : Datum → String
  | .atom text => text
  | .emptyList => ""
  | .list name items =>
    name ++ inBraces ("\n" ++ renderItems (level + 1) items ++ indentation level)
  | .record name fields =>
    name ++ inBraces ("\n" ++ renderFields (level + 1) fields ++ indentation level)

/-- Items, one below the other. -/
def renderItems (level : Nat) : List Datum → String
  | [] => ""
  | item :: rest =>
    indentation level ++ render level item ++ ",\n" ++ renderItems level rest

/-- Fields, one below the other. -/
def renderFields (level : Nat) : List (String × Datum) → String
  | [] => ""
  | (name, value) :: rest =>
    indentation level ++ name ++ ": " ++ render level value ++ ",\n" ++
      renderFields level rest

end

/-- A field of a record, if there is anything to show. -/
abbrev Field := Option (String × Datum)

/-- A record of the fields that have something to show. -/
def ofFields (name : String) (fields : List Field) : Datum :=
  .record name (fields.filterMap id)

/-- A number field. -/
def number (name : String) (value : Int) : Field :=
  if value = 0 then none else some (name, .atom (Decimal.text value))

/-- A text field. -/
def text (name content : String) : Field :=
  if content = "" then none else some (name, .atom (Quoted.text content))

/-- A place in a source. -/
def position (name : String) (value : Position) : Field :=
  if value = {} then
    none
  else
    some (name, ofFields "types.Position"
      [number "Line" value.line, number "Column" value.column,
        number "Offset" value.offset, text "Filename" value.file])

/-- A stretch of a source. -/
def span (name : String) (value : Span) : Field :=
  if value = {} then
    none
  else
    some (name, ofFields "types.Span" [position "From" value.start, position "To" value.finish])

/-- A token. The list it stands in says what it is. -/
def token (value : Token) : Datum :=
  let kind : Field :=
    if value.kind = .endOfInput then
      none
    else
      some ("Kind", .atom ("types.TokenKind(" ++ value.kind.name ++ ")"))
  ofFields "" [kind, text "Lexeme" value.lexeme, span "Location" value.span]

/-- A list of tokens. -/
def tokens (values : List Token) : Datum :=
  .list "[]types.Token" (values.map token)

/-- A string value. Bytes outside every character are shown as the replacement
character. -/
def bytes (name : String) (value : Bytes) : Field :=
  text name (Glyph.spelling (Glyph.decode value))

/-- The operator of an expression. Addition goes without saying. -/
def operator (value : Operator) : Field :=
  if value = .add then none else some ("Operator", .atom ("ast.Operator(" ++ value.sign ++ ")"))

/-- An expression, unless it is missing. -/
def expr (name : String) : Expr → Field
  | .number value place =>
    some (name, ofFields "ast.NumberLiteral" [number "Value" value.toInt, span "Pos" place])
  | .string value place =>
    some (name, ofFields "ast.StringLiteral" [bytes "Value" value, span "Pos" place])
  | .variableRef spelling place =>
    some (name, ofFields "ast.VariableReference" [text "Name" spelling, span "Pos" place])
  | .binary left sign right place =>
    some (name, ofFields "ast.BinaryOp"
      [expr "Left" left, operator sign, expr "Right" right, span "Pos" place])
  | .gap => none

/-- The statements of a block. -/
def block : List Datum → Datum
  | [] => .emptyList
  | items => .list "[]ast.Statement" items

mutual

/-- A statement. -/
def stmt : Stmt → Datum
  | .assign name value place =>
    ofFields "ast.Assignment" [text "Name" name, expr "Value" value, span "Pos" place]
  | .print value place =>
    ofFields "ast.PrintStatement" [expr "Value" value, span "Pos" place]
  | .ifThen condition body place =>
    ofFields "ast.IfStatement"
      [expr "Condition" condition, some ("Then", block (stmts body)), span "Pos" place]
  | .ifElse condition body otherwise place =>
    ofFields "ast.IfStatement"
      [expr "Condition" condition, some ("Then", block (stmts body)),
        some ("Else", block (stmts otherwise)),
        span "Pos" place]
  | .whileDo condition body place =>
    ofFields "ast.WhileStatement"
      [expr "Condition" condition, some ("Body", block (stmts body)), span "Pos" place]
  | .gap => .atom "nil"

/-- Statements in order. -/
def stmts : List Stmt → List Datum
  | [] => []
  | statement :: rest => stmt statement :: stmts rest

end

/-- A program. -/
def program (statements : Program) : Datum :=
  let field : Field :=
    match statements with
    | [] => none
    | _ => some ("Statements", .list "[]ast.Statement" (stmts statements))
  ofFields "ast.Program" [field]

end Datum

end Scriptlet
