import Scriptlet.Proofs.Syntax.Derivation
import Scriptlet.Proofs.Syntax.Tree

/-! # Trees at other places

Tokens and trees are relocated by moving all positions in them. Where tokens stand
decides only where the nodes stand that they derive (`DerivesStmts.relocate`).
Erasing the positions of a tree is one such move (`Stmt.relocateAll_erase`).
-/

namespace Scriptlet

variable (move : Position → Position)

def Span.relocate (span : Span) : Span where
  start := move span.start
  finish := move span.finish

def Token.relocate (token : Token) : Token :=
  { token with span := token.span.relocate move }

namespace Expr

/-- The expression with all positions moved. -/
def relocate : Expr → Expr
  | .number value span => .number value (span.relocate move)
  | .string value span => .string value (span.relocate move)
  | .variableRef name span => .variableRef name (span.relocate move)
  | .binary left operator right span =>
    .binary (relocate left) operator (relocate right) (span.relocate move)
  | .gap => .gap

/-- The span of an expression moves with it. -/
theorem span_relocate {expr : Expr} (present : expr ≠ .gap) :
    (expr.relocate move).span = expr.span.relocate move := by
  cases expr with
  | gap => exact absurd rfl present
  | _ => rfl

/-- Moving every span of an expression to the same place erases them. -/
theorem relocate_erase (expr : Expr) : expr.relocate (fun _ => {}) = expr.erase := by
  induction expr with
  | binary left operator right span ihLeft ihRight =>
      rw [relocate, erase, ihLeft, ihRight]
      rfl
  | _ => rfl

end Expr

namespace Stmt

mutual

/-- The statement with all positions moved. -/
def relocate : Stmt → Stmt
  | .assign name value span => .assign name (value.relocate move) (span.relocate move)
  | .print value span => .print (value.relocate move) (span.relocate move)
  | .ifThen condition body span =>
    .ifThen (condition.relocate move) (relocateAll body) (span.relocate move)
  | .ifElse condition body otherwise span =>
    .ifElse (condition.relocate move) (relocateAll body) (relocateAll otherwise)
      (span.relocate move)
  | .whileDo condition body span =>
    .whileDo (condition.relocate move) (relocateAll body) (span.relocate move)
  | .gap => .gap

/-- The statements with all positions moved. -/
def relocateAll : List Stmt → List Stmt
  | [] => []
  | statement :: others => relocate statement :: relocateAll others

end

/-- Statements behind each other move one after the other. -/
theorem relocateAll_append (left right : List Stmt) :
    relocateAll move (left ++ right) = relocateAll move left ++ relocateAll move right := by
  induction left with
  | nil => rfl
  | cons statement others ih =>
      rw [List.cons_append, relocateAll, ih, relocateAll, List.cons_append]

mutual

/-- Moving every span of a statement to the same place erases them. -/
theorem relocate_erase : ∀ statement : Stmt, statement.relocate (fun _ => {}) = statement.erase
  | .assign name value span => by
      rw [relocate, erase, Expr.relocate_erase]
      rfl
  | .print value span => by
      rw [relocate, erase, Expr.relocate_erase]
      rfl
  | .ifThen condition body span => by
      rw [relocate, erase, Expr.relocate_erase, relocateAll_erase body]
      rfl
  | .ifElse condition body otherwise span => by
      rw [relocate, erase, Expr.relocate_erase, relocateAll_erase body,
        relocateAll_erase otherwise]
      rfl
  | .whileDo condition body span => by
      rw [relocate, erase, Expr.relocate_erase, relocateAll_erase body]
      rfl
  | .gap => rfl

/-- Moving every span of statements to the same place erases them. -/
theorem relocateAll_erase :
    ∀ statements : List Stmt, relocateAll (fun _ => {}) statements = eraseAll statements
  | [] => rfl
  | statement :: others => by
      rw [relocateAll, eraseAll, relocate_erase statement, relocateAll_erase others]

end

end Stmt

namespace Grammar

/-- What is derived is no gap. -/
theorem DerivesExpr.ne_gap {level : Level} {tokens : List Token} {value : Expr}
    (derived : DerivesExpr level tokens value) : value ≠ .gap := by
  induction derived with
  | parens opened inside closed ih => exact ih
  | factor single ih => exact ih
  | term single ih => exact ih
  | _ => exact nofun

/-- Tokens spell the same expression at any place. -/
theorem DerivesExpr.relocate {level : Level} {tokens : List Token} {value : Expr}
    (derived : DerivesExpr level tokens value) :
    DerivesExpr level (tokens.map (Token.relocate move)) (value.relocate move) := by
  have joined {first second : Expr} (left : first ≠ .gap) (right : second ≠ .gap) :
      (first.span.join second.span).relocate move =
        (first.relocate move).span.join (second.relocate move).span := by
    rw [Expr.span_relocate move left, Expr.span_relocate move right]
    rfl
  induction derived with
  | @number token value kind denoted => exact @number (token.relocate move) value kind denoted
  | @identifier token kind => exact @identifier (token.relocate move) kind
  | @string token first last value kind quoted =>
      exact @string (token.relocate move) first last value kind quoted
  | @parens opening closing inner value opened inside closed ih =>
      rw [List.map_cons, List.map_append]
      exact @parens (opening.relocate move) (closing.relocate move) _ _ opened ih closed
  | factor single ih => exact .factor ih
  | @product left right sign first second operator before meaning behind ihBefore ihBehind =>
      rw [List.map_append, List.map_cons, Expr.relocate, joined before.ne_gap behind.ne_gap]
      exact @product _ _ (sign.relocate move) _ _ _ ihBefore meaning ihBehind
  | term single ih => exact .term ih
  | @sum left right sign first second operator before meaning behind ihBefore ihBehind =>
      rw [List.map_append, List.map_cons, Expr.relocate, joined before.ne_gap behind.ne_gap]
      exact @sum _ _ (sign.relocate move) _ _ _ ihBefore meaning ihBehind

/-- A condition moves with its tokens. -/
theorem DerivesCondition.relocate {tokens : List Token} {value : Expr}
    (derived : DerivesCondition tokens value) :
    DerivesCondition (tokens.map (Token.relocate move)) (value.relocate move) := by
  cases derived with
  | @parens opening closing inner value opened inside closed =>
      rw [List.map_cons, List.map_append]
      exact @parens (opening.relocate move) (closing.relocate move) _ _ opened
        (inside.relocate move) closed

mutual

/-- A statement moves with its tokens. -/
theorem DerivesStmt.relocate {tokens : List Token} {statement : Stmt} :
    DerivesStmt tokens statement →
      DerivesStmt (tokens.map (Token.relocate move)) (statement.relocate move)
  | @DerivesStmt.print word stop _ _ kind inside stopped => by
      rw [List.map_cons, List.map_append]
      exact @DerivesStmt.print (word.relocate move) (stop.relocate move) _ _ kind
        (inside.relocate move) stopped
  | @DerivesStmt.assign name sign stop _ _ kind assigned inside stopped => by
      rw [List.map_cons, List.map_cons, List.map_append]
      exact @DerivesStmt.assign (name.relocate move) (sign.relocate move) (stop.relocate move) _ _
        kind assigned (inside.relocate move) stopped
  | @DerivesStmt.ifThen word brace _ _ _ _ kind tested block => by
      rw [List.map_cons, List.map_append]
      exact @DerivesStmt.ifThen (word.relocate move) (brace.relocate move) _ _ _ _ kind
        (tested.relocate move) block.relocate
  | @DerivesStmt.ifElse word other middle brace _ _ _ _ _ _ kind tested block alternative second => by
      rw [List.map_cons, List.map_append, List.map_append, List.map_cons]
      exact @DerivesStmt.ifElse (word.relocate move) (other.relocate move) (middle.relocate move)
        (brace.relocate move) _ _ _ _ _ _ kind (tested.relocate move) block.relocate alternative
        second.relocate
  | @DerivesStmt.whileDo word brace _ _ _ _ kind tested block => by
      rw [List.map_cons, List.map_append]
      exact @DerivesStmt.whileDo (word.relocate move) (brace.relocate move) _ _ _ _ kind
        (tested.relocate move) block.relocate

/-- A block moves with its tokens. -/
theorem DerivesBlock.relocate {tokens : List Token} {body : List Stmt} {brace : Token} :
    DerivesBlock tokens body brace →
      DerivesBlock (tokens.map (Token.relocate move)) (Stmt.relocateAll move body)
        (brace.relocate move)
  | @DerivesBlock.braces opening closing _ _ opened inside closed => by
      rw [List.map_cons, List.map_append]
      exact @DerivesBlock.braces (opening.relocate move) (closing.relocate move) _ _ opened
        inside.relocate closed

/-- **Derivations at other places.** Tokens spell the same statements wherever they
stand. -/
theorem DerivesStmts.relocate {tokens : List Token} {statements : List Stmt} :
    DerivesStmts tokens statements →
      DerivesStmts (tokens.map (Token.relocate move)) (Stmt.relocateAll move statements)
  | .nil => .nil
  | .cons head tail => by
      rw [List.map_append]
      exact .cons head.relocate tail.relocate

end

/-- Two programs are spelled one behind the other. -/
theorem DerivesStmts.append {left right : List Token} {first second : List Stmt}
    (before : DerivesStmts left first) (behind : DerivesStmts right second) :
    DerivesStmts (left ++ right) (first ++ second) := by
  induction first generalizing left with
  | nil =>
      cases before
      exact behind
  | cons statement others ih =>
      cases before with
      | cons head tail =>
          rw [List.append_assoc]
          exact .cons head (ih tail)

end Grammar

end Scriptlet
