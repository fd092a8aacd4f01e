import Scriptlet.Code.Symbol

/-!
# Trees of Go code

Expressions, statements and declarations of Go. Types and constants are both
expressions, because Go's grammar often allows one where the other can stand. Trees
keep the places of their parts: code that is written on several lines keeps them, and
comments stay between the same parts.
-/

namespace Scriptlet

namespace Code

/-- What a channel can be used for. -/
inductive Direction where
  | both
  /-- Sending only, said by an arrow at a place. -/
  | send (arrow : Place)
  | receive
deriving DecidableEq, Repr

/-- A name with its place. -/
structure Label where
  place : Place
  spelling : String
deriving DecidableEq, Repr

/-- A part of a list: a field, a method, a parameter or an argument. It may have
names and a tag. -/
structure Member (α : Type) where
  names : List Label := []
  content : α
  tag : Option Label := none
  /-- Whether a comment at the end of the line belongs to it. -/
  isCommented : Bool := false
  first : Place
  lastLine : Nat
deriving DecidableEq, Repr

/-- A list between two brackets. -/
structure Members (α : Type) where
  list : List (Member α) := []
  opening : Place := {}
  closing : Place := {}
deriving DecidableEq, Repr

/-- Statements between two braces. -/
structure Braced (α : Type) where
  list : List α
  opening : Place
  closing : Place
deriving DecidableEq, Repr

mutual

/-- An expression of Go. -/
inductive GoExpr where
  | name (label : Label)
  /-- A number, a text or a character. -/
  | literal (place : Place) (symbol : Symbol)
  | selected (operand : GoExpr) (name : Label)
  /-- An expression between parentheses. They may guard a value whose braces would be
  taken for those of a statement. -/
  | group (place : Place) (inner : GoExpr) (closing : Place) (guards : Bool)
  /-- A call. Three dots can stand behind the last argument. -/
  | call (function : GoExpr) (arguments : Members GoExpr) (dots : Option Place)
  /-- An element of a list, or a type with arguments. -/
  | indexed (operand : GoExpr) (arguments : Members GoExpr)
  /-- A part of a list, with what stands between the colons. -/
  | sliced (operand : GoExpr) (opening : Place) (bounds : List (Option GoExpr)) (closing : Place)
  /-- A value as one of a type. If none is given, the type is asked for. -/
  | asserted (operand : GoExpr) (opening : Place) (type : Option GoExpr) (closing : Place)
  /-- A value with parts. -/
  | composite (type : Option GoExpr) (parts : Members GoExpr)
  | pair (key : GoExpr) (colon : Place) (value : GoExpr)
  | unary (place : Place) (sign : String) (operand : GoExpr)
  | binary (left : GoExpr) (place : Place) (sign : String) (right : GoExpr)
  /-- A pointer, or what a pointer leads to. -/
  | pointer (place : Place) (target : GoExpr)
  /-- An array, or without a length a slice. -/
  | array (place : Place) (length : Option GoExpr) (element : GoExpr)
  | map (place : Place) (key value : GoExpr)
  | channel (place : Place) (direction : Direction) (element : GoExpr)
  | function (place : Place) (parameters results : Members GoExpr)
  /-- A function as a value, with its body. -/
  | closure (place : Place) (parameters results : Members GoExpr) (body : Braced GoStmt)
  | record (place : Place) (fields : Members GoExpr)
  | interface (place : Place) (elements : Members GoExpr)
  /-- Three dots, in front of a type or in place of a length. -/
  | dots (place : Place) (element : Option GoExpr)

/-- A statement of Go. -/
inductive GoStmt where
  | empty (place : Place)
  | labeled (label : Label) (colon : Place) (target : GoStmt)
  | expr (expr : GoExpr)
  | send (channel : GoExpr) (arrow : Place) (value : GoExpr)
  /-- Adds one to something, or takes one away. -/
  | count (operand : GoExpr) (place : Place) (sign : String)
  | assign (left : List (Member GoExpr)) (place : Place) (sign : String)
      (right : List (Member GoExpr))
  /-- A call that runs beside the rest or at the end. -/
  | deferred (place : Place) (keyword : String) (call : GoExpr)
  | result (place : Place) (values : List (Member GoExpr))
  /-- Goes on at another place. -/
  | jump (place : Place) (keyword : String) (label : Option Label)
  | block (body : Braced GoStmt)
  | conditional (place : Place) (first : Option GoStmt) (condition : GoExpr)
      (body : Braced GoStmt) (otherwise : Option GoStmt)
  | switch (place : Place) (first : Option GoStmt) (value : Option GoExpr)
      (body : Braced GoStmt)
  /-- A switch on the type of a value. -/
  | typeSwitch (place : Place) (first : Option GoStmt) (value : GoStmt) (body : Braced GoStmt)
  /-- A switch on channels. -/
  | select (place : Place) (body : Braced GoStmt)
  /-- A case of a switch, or without values the one for all others. -/
  | clause (place : Place) (values : List (Member GoExpr)) (colon : Place) (body : List GoStmt)
  /-- A case of a switch on channels, or the one for all others. -/
  | ready (place : Place) (statement : Option GoStmt) (colon : Place) (body : List GoStmt)
  | loop (place : Place) (first : Option GoStmt) (condition : Option GoExpr)
      (step : Option GoStmt) (body : Braced GoStmt)
  /-- A loop over the elements of something. They may get names or be stored. -/
  | rangeLoop (place : Place) (key value : Option GoExpr) (stored : Option (Place × String))
      (range : Place) (list : GoExpr) (body : Braced GoStmt)
  | declaration (declaration : GoDecl)

/-- A declaration of Go. -/
inductive GoDecl where
  /-- Declarations behind a keyword. Several stand between parentheses. -/
  | group (keyword : String) (place : Place) (parens : Option (Place × Place))
      (list : List GoSpec)
  /-- A function or a method. It ends on a line. -/
  | function (place : Place) (isMethod : Bool) (receiver : Members GoExpr) (name : Label)
      (typeParameters parameters results : Members GoExpr) (body : Option (Braced GoStmt))
      (lastLine : Nat)

/-- What is declared behind a keyword. -/
inductive GoSpec where
  | package (name : Option Label) (path : Label)
  /-- A type. The name may be another name for one. -/
  | type (name : Label) (parameters : Members GoExpr) (isAlias : Bool) (type : GoExpr)
  /-- Constants or variables. A comment at the end of the line may belong to them. -/
  | value (names : List Label) (type : Option GoExpr) (values : List (Member GoExpr))
      (isCommented : Bool)

end

namespace GoExpr

/-- The place where an expression starts. -/
def start : GoExpr → Place
  | .name label => label.place
  | .literal place _ | .group place _ _ _ | .unary place _ _ | .pointer place _
  | .array place _ _ | .map place _ _ | .channel place _ _ | .function place _ _
  | .closure place _ _ _ | .record place _ | .interface place _ | .dots place _ => place
  | .selected operand _ | .call operand _ _ | .indexed operand _ | .sliced operand _ _ _
  | .asserted operand _ _ _ | .pair operand _ _ | .binary operand _ _ _ => operand.start
  | .composite type parts =>
    match type with
    | some type => type.start
    | none => parts.opening

/-- Whether an expression stands between parentheses. -/
def isGroup : GoExpr → Bool
  | .group _ _ _ _ => true
  | _ => false

/-- Whether an expression is a call. -/
def isCall : GoExpr → Bool
  | .call _ _ _ => true
  | _ => false

/-- Whether an expression is the type of a channel. -/
def isChannel : GoExpr → Bool
  | .channel _ _ _ => true
  | _ => false

/-- An expression without the parentheses around it. -/
def ungrouped : GoExpr → GoExpr
  | .group _ inner _ _ => inner.ungrouped
  | expr => expr

/-- An expression between parentheses. One pair of them is enough. -/
def grouped (place : Place) (inner : GoExpr) (closing : Place) (guards : Bool) : GoExpr :=
  match inner with
  | .group _ _ _ _ => inner
  | _ => .group place inner closing guards

/-- An expression in front of a block, where it needs no parentheses unless they guard
something. -/
def bare (expr : GoExpr) : GoExpr :=
  match expr with
  | .group _ inner _ false => inner.bare
  | _ => expr

/-- Whether an expression can be the name of a type. -/
def isTypeName : GoExpr → Bool
  | .name _ => true
  | .selected operand _ => operand.isTypeName
  | _ => false

/-- Whether an expression can only be an element of a set of types. -/
def isTypeElement : GoExpr → Bool
  | .array _ _ _ | .record _ _ | .function _ _ _ | .interface _ _ | .map _ _ _
  | .channel _ _ _ => true
  | .unary _ sign _ => sign = "~"
  | .binary left _ _ right => left.isTypeElement || right.isTypeElement
  | .group _ inner _ _ => inner.isTypeElement
  | _ => false

/-- Whether a name in front of a type would be multiplied by it. -/
def combinesWithName : GoExpr → Bool
  | .pointer _ target => !target.isTypeElement
  | .binary left _ _ right => left.combinesWithName && !right.isTypeElement
  | _ => false

/-- Takes an expression for a name and the type behind it. A product can be a name and
a pointer, and a call a name and a type between parentheses. That is what they are
if they hold what is no constant, or if it is certain for another reason. -/
def splitName (certain : Bool) : GoExpr → Option (Label × Option GoExpr)
  | .name label => some (label, none)
  | .binary left place sign right =>
    match left with
    | .name label =>
      if sign = "*" ∧ (certain ∨ right.isTypeElement) then
        some (label, some (.pointer place right))
      else
        none
    | _ =>
      if sign = "|" then
        match left.splitName (certain || right.isTypeElement) with
        | some (label, some type) => some (label, some (.binary type place sign right))
        | _ => none
      else
        none
  | .call (.name label) { list := [argument], opening, closing } none =>
    if certain ∨ argument.content.isTypeElement then
      some (label, some (.group opening argument.content closing false))
    else
      none
  | _ => none

end GoExpr

namespace GoSpec

/-- The place where a declaration behind a keyword starts. -/
def start : GoSpec → Place
  | .package name path => (name.getD path).place
  | .type name _ _ _ => name.place
  | .value names _ _ _ => (names.head?.map (·.place)).getD {}

/-- Whether constants or variables have a type. -/
def hasType : GoSpec → Bool
  | .value _ given _ _ => given.isSome
  | _ => false

/-- Whether constants or variables have values. -/
def hasValues : GoSpec → Bool
  | .value _ _ values _ => !values.isEmpty
  | _ => false

end GoSpec

namespace GoDecl

/-- The place where a declaration starts. -/
def start : GoDecl → Place
  | .group _ place _ _ => place
  | .function place _ _ _ _ _ _ _ _ => place

/-- The keyword of a declaration. -/
def keyword : GoDecl → String
  | .group keyword _ _ _ => keyword
  | .function _ _ _ _ _ _ _ _ _ => "func"

/-- Whether a declaration is a function on several lines. -/
def isLong : GoDecl → Bool
  | .group _ _ _ _ => false
  | .function place _ _ _ _ _ _ _ lastLine => place.line < lastLine

end GoDecl

namespace GoStmt

/-- The place where a statement starts. -/
def start : GoStmt → Place
  | .empty place | .deferred place _ _ | .result place _ | .jump place _ _
  | .conditional place _ _ _ _ | .switch place _ _ _ | .typeSwitch place _ _ _ | .select place _
  | .clause place _ _ _ | .ready place _ _ _ | .loop place _ _ _ _
  | .rangeLoop place _ _ _ _ _ _ => place
  | .labeled label _ _ => label.place
  | .expr operand | .send operand _ _ | .count operand _ _ => operand.start
  | .assign left _ _ _ => (left.head?.map (·.first)).getD {}
  | .block body => body.opening
  | .declaration inner => inner.start

/-- Whether there is nothing in a statement. -/
def isEmpty : GoStmt → Bool
  | .empty _ => true
  | _ => false

/-- Whether a label stands in front of a statement. -/
def isLabeled : GoStmt → Bool
  | .labeled _ _ _ => true
  | _ => false

/-- The number of labels in front of a statement. -/
def labelCount : GoStmt → Nat
  | .labeled _ _ target => target.labelCount + 1
  | _ => 0

end GoStmt

end Code

end Scriptlet
