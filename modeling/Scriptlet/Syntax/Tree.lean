import Scriptlet.Source.Position

/-!
# Syntax trees

A program is a list of statements. Trees that the parser builds are complete;
a tree made by hand may have gaps and operators outside the four of the
language, and the operations on trees say what they do with them.
-/

namespace Scriptlet

/-- Binary operators. Numbers that name no operator are kept as they are. -/
inductive Operator where
  | add
  | sub
  | mul
  | div
  | unknown (code : Int)
deriving DecidableEq, Repr

namespace Operator

/-- The operator with a given number. -/
def ofCode : Int → Operator
  | 0 => .add
  | 1 => .sub
  | 2 => .mul
  | 3 => .div
  | code => .unknown code

/-- The sign of an operator. -/
def sign : Operator → String
  | .add => "+"
  | .sub => "-"
  | .mul => "*"
  | .div => "/"
  | .unknown code => "Operator(" ++ Decimal.text code ++ ")"

/-- How tightly an operator binds its operands. -/
def precedence : Operator → Nat
  | .mul => 2
  | .div => 2
  | _ => 1

end Operator

/-- Expressions. -/
inductive Expr where
  | number (value : Int64) (span : Span)
  | string (value : Bytes) (span : Span)
  | variableRef (name : String) (span : Span)
  | binary (left : Expr) (operator : Operator) (right : Expr) (span : Span)
  /-- A place where an expression is missing. -/
  | gap
deriving DecidableEq, Repr, Inhabited

namespace Expr

/-- Where an expression stands. A gap stands nowhere. -/
def span : Expr → Span
  | .number _ span => span
  | .string _ span => span
  | .variableRef _ span => span
  | .binary _ _ _ span => span
  | .gap => {}

end Expr

/-- Statements. -/
inductive Stmt where
  | assign (name : String) (value : Expr) (span : Span)
  | print (value : Expr) (span : Span)
  | ifThen (condition : Expr) (body : List Stmt) (span : Span)
  | ifElse (condition : Expr) (body : List Stmt) (otherwise : List Stmt) (span : Span)
  | whileDo (condition : Expr) (body : List Stmt) (span : Span)
  /-- A place where a statement is missing. -/
  | gap
deriving Repr, Inhabited

/-- Programs are run from the first statement to the last. -/
abbrev Program := List Stmt

/-- The two sorts of nodes, either of which a tree may be missing. -/
inductive NodeSort where
  | expression
  | statement
deriving DecidableEq, Repr

namespace NodeSort

/-- What is reported when a node of this sort is missing. -/
def missingMessage : NodeSort → String
  | .expression => "unknown Expression variant <nil>"
  | .statement => "unknown Statement variant <nil>"

end NodeSort

end Scriptlet
