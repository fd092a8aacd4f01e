import Scriptlet.Syntax.Tree
import Scriptlet.Token.Lexer

/-! # Trees without positions, and properties of all nodes

Two trees are equal up to positions if erasing the positions makes them equal. A
tree is complete if it has no gap, and well formed if every node of it can be
written down: names, numbers, strings and operators are those of the language.
-/

namespace Scriptlet

open Lexical

namespace Expr

/-- The expression with all positions erased. -/
def erase : Expr → Expr
  | .number value _ => .number value {}
  | .string value _ => .string value {}
  | .variableRef name _ => .variableRef name {}
  | .binary left operator right _ => .binary left.erase operator right.erase {}
  | .gap => .gap

/-- A property holds at every node of an expression. -/
def Every (holds : Expr → Prop) : Expr → Prop
  | .number value span => holds (.number value span)
  | .string value span => holds (.string value span)
  | .variableRef name span => holds (.variableRef name span)
  | .binary left operator right span =>
    holds (.binary left operator right span) ∧ left.Every holds ∧ right.Every holds
  | .gap => holds .gap

end Expr

namespace Stmt

mutual

/-- The statement with all positions erased. -/
def erase : Stmt → Stmt
  | .assign name value _ => .assign name value.erase {}
  | .print value _ => .print value.erase {}
  | .ifThen condition body _ => .ifThen condition.erase (eraseAll body) {}
  | .ifElse condition body otherwise _ =>
    .ifElse condition.erase (eraseAll body) (eraseAll otherwise) {}
  | .whileDo condition body _ => .whileDo condition.erase (eraseAll body) {}
  | .gap => .gap

/-- The statements with all positions erased. -/
def eraseAll : List Stmt → List Stmt
  | [] => []
  | statement :: others => statement.erase :: eraseAll others

end

mutual

/-- Properties hold at every expression and at every statement inside a
statement. -/
def Every (exprs : Expr → Prop) (statements : Stmt → Prop) : Stmt → Prop
  | .assign name value span => statements (.assign name value span) ∧ value.Every exprs
  | .print value span => statements (.print value span) ∧ value.Every exprs
  | .ifThen condition body span =>
    statements (.ifThen condition body span) ∧ condition.Every exprs ∧
      EveryIn exprs statements body
  | .ifElse condition body otherwise span =>
    statements (.ifElse condition body otherwise span) ∧ condition.Every exprs ∧
      EveryIn exprs statements body ∧ EveryIn exprs statements otherwise
  | .whileDo condition body span =>
    statements (.whileDo condition body span) ∧ condition.Every exprs ∧
      EveryIn exprs statements body
  | .gap => statements .gap

/-- Properties hold at every expression and at every statement inside some
statements. -/
def EveryIn (exprs : Expr → Prop) (statements : Stmt → Prop) : List Stmt → Prop
  | [] => True
  | statement :: others => statement.Every exprs statements ∧ EveryIn exprs statements others

end

/-- A property of all statements of two lists is one of all statements of both
together. -/
theorem everyIn_append_iff {exprs : Expr → Prop} {statements : Stmt → Prop}
    {left right : List Stmt} :
    EveryIn exprs statements (left ++ right) ↔
      EveryIn exprs statements left ∧ EveryIn exprs statements right := by
  induction left with
  | nil => exact ⟨fun every => ⟨trivial, every⟩, fun every => every.2⟩
  | cons statement others ih =>
      rw [List.cons_append, EveryIn, EveryIn, ih, and_assoc]

end Stmt

/-- The words that are no names. -/
def keywords : List String :=
  ["if", "else", "while", "print"]

/-- Names are words other than the keywords. -/
def IsName (name : String) : Prop :=
  name ∉ keywords ∧ ∃ first others, name.toList = first :: others ∧ startsWord first ∧
    ∀ char ∈ others, continuesWord char

/-- A word is an identifier unless it is a keyword. -/
theorem ofWord_eq_identifier_iff {word : String} :
    TokenKind.ofWord word = .identifier ↔ word ∉ keywords := by
  unfold TokenKind.ofWord
  split
  · simp [keywords]
  · simp [keywords]
  · simp [keywords]
  · simp [keywords]
  · rename_i notIf notElse notWhile notPrint
    simp only [keywords, List.mem_cons, List.not_mem_nil, or_false, not_or, true_iff]
    exact ⟨notIf, notElse, notWhile, notPrint⟩

/-- Whether a node of an expression can be written down: numbers have no sign,
strings are encoded characters other than the quote, variables have names, and
operators are those of the language. -/
def Expr.Writable : Expr → Prop
  | .number value _ => 0 ≤ value.toInt
  | .string value _ => ∃ content, value = Bytes.ofChars content ∧ '"' ∉ content
  | .variableRef name _ => IsName name
  | .binary _ operator _ _ => operator ∈ [Operator.add, .sub, .mul, .div]
  | .gap => False

/-- Whether a statement can be written down, its parts aside: an assigned variable
has a name, and the statement is not missing. -/
def Stmt.Writable : Stmt → Prop
  | .assign name _ _ => IsName name
  | .gap => False
  | _ => True

namespace Program

/-- The program with all positions erased. -/
def erase (program : Program) : Program :=
  Stmt.eraseAll program

/-- Every node of the program can be written down. -/
def WellFormed (program : Program) : Prop :=
  Stmt.EveryIn Expr.Writable Stmt.Writable program

/-- No node of the program is missing. -/
def Complete (program : Program) : Prop :=
  Stmt.EveryIn (· ≠ .gap) (· ≠ .gap) program

end Program

end Scriptlet
