import Scriptlet.Proofs.Syntax.Language

/-! # Limits of the rules

The rules of the grammar call each other under limits, and a rule that is stopped by one
says so. A rule that is not stopped does the same under larger limits
(`Rule.Outlasts`). The limits that are set for a list of tokens stop no rule, so that
none of them has a part in what the parser does (`Parser.programRule_of_limit`).
-/

namespace Scriptlet

namespace Rule

variable {α β : Type}

/-- A rule does what another one does, unless limits stop the other one. -/
def Outlasts (larger smaller : Rule α) : Prop :=
  ∀ stream, larger stream = smaller stream ∨ (smaller stream).1 = .error .tooDeep

/-- A rule outlasts itself. -/
theorem Outlasts.refl (rule : Rule α) : rule.Outlasts rule :=
  fun _ => .inl rfl

/-- Every rule outlasts one that is too deep. -/
theorem Outlasts.tooDeep (rule : Rule α) : rule.Outlasts (fail .tooDeep) :=
  fun _ => .inr rfl

/-- Two rules outlast two others if each does so by itself: the second ones are compared
only where the first ones gave the same. -/
theorem Outlasts.bind {first larger : Rule α} {second other : α → Rule β}
    (head : larger.Outlasts first) (tail : ∀ value, (other value).Outlasts (second value)) :
    (larger >>= other).Outlasts (first >>= second) := by
  intro stream
  rw [bind_apply, bind_apply]
  rcases given : first stream with ⟨failure | value, next⟩
  · rcases head stream with same | stopped
    · rw [same, given]
      exact .inl rfl
    · rw [given] at stopped
      cases stopped
      exact .inr rfl
  · rcases head stream with same | stopped
    · rw [same, given]
      exact tail value next
    · rw [given] at stopped
      cases stopped

/-- A choice outlasts another if its branches do. -/
theorem Outlasts.choice {larger smaller yes no : Rule α} (holds : Bool)
    (accepted : larger.Outlasts yes) (declined : smaller.Outlasts no) :
    (if holds then larger else smaller).Outlasts (if holds then yes else no) := by
  cases holds with
  | true => exact accepted
  | false => exact declined

end Rule

namespace Grammar

open Rule

private theorem outlasts_factor {inner larger : Rule Expr} (nested : larger.Outlasts inner) :
    (factor larger).Outlasts (factor inner) := by
  refine (Outlasts.refl _).bind ?_
  intro token
  split
  · exact .refl _
  · exact .refl _
  · exact nested.bind fun value => .refl _
  · exact .refl _

private theorem outlasts_chainTail {operand larger : Rule Expr} {kinds : List TokenKind}
    (operands : larger.Outlasts operand) {limit above : Nat} (below : limit ≤ above) (left : Expr) :
    (chainTail larger kinds above left).Outlasts (chainTail operand kinds limit left) := by
  induction limit generalizing above left with
  | zero => exact .tooDeep _
  | succ limit ih =>
      obtain ⟨above, rfl⟩ := Nat.exists_eq_add_of_le below
      rw [Nat.add_right_comm, chainTail, chainTail]
      refine (Outlasts.refl _).bind fun found => .choice found ?_ (.refl _)
      refine (Outlasts.refl _).bind fun sign => operands.bind fun right => ?_
      exact ih (Nat.le_add_right limit above) _

/-- A chain with more room outlasts one with less. -/
theorem outlasts_chain {operand larger : Rule Expr} {kinds : List TokenKind}
    (operands : larger.Outlasts operand) {limit above : Nat} (below : limit ≤ above) :
    (chain larger kinds above).Outlasts (chain operand kinds limit) :=
  operands.bind fun left => outlasts_chainTail operands below left

/-- An expression with more room outlasts one with less. -/
theorem outlasts_expression {limit above : Nat} (below : limit ≤ above) {depth deeper : Nat}
    (within : depth ≤ deeper) : (expression above deeper).Outlasts (expression limit depth) := by
  induction depth generalizing deeper with
  | zero => exact .tooDeep _
  | succ depth ih =>
      obtain ⟨deeper, rfl⟩ := Nat.exists_eq_add_of_le within
      rw [Nat.add_right_comm, expression, expression]
      have factors := outlasts_factor (ih (Nat.le_add_right depth deeper))
      exact outlasts_chain (outlasts_chain factors below) below

/-- A condition with more room outlasts one with less. -/
theorem outlasts_condition (rule : String) {limit above : Nat} (below : limit ≤ above) :
    (condition rule above).Outlasts (condition rule limit) := by
  refine (Outlasts.refl _).bind fun _ => (outlasts_expression below below).bind fun value => ?_
  exact .refl _

private theorem outlasts_blockTail {rule : String} {inner larger : Rule Stmt}
    (statements : larger.Outlasts inner) {limit above : Nat} (below : limit ≤ above) :
    (blockTail rule larger above).Outlasts (blockTail rule inner limit) := by
  induction limit generalizing above with
  | zero => exact .tooDeep _
  | succ limit ih =>
      obtain ⟨above, rfl⟩ := Nat.exists_eq_add_of_le below
      rw [Nat.add_right_comm, blockTail, blockTail]
      refine (Outlasts.refl _).bind fun found => .choice found (.refl _) ?_
      refine statements.bind fun first => (ih (Nat.le_add_right limit above)).bind fun block => ?_
      exact .refl _

/-- A block with more room outlasts one with less. -/
theorem outlasts_block {rule : String} {inner larger : Rule Stmt}
    (statements : larger.Outlasts inner) {limit above : Nat} (below : limit ≤ above) :
    (block rule larger above).Outlasts (block rule inner limit) :=
  (Outlasts.refl _).bind fun _ => outlasts_blockTail statements below

private theorem outlasts_ifStatement {inner larger : Rule Stmt} (statements : larger.Outlasts inner)
    {limit above : Nat} (below : limit ≤ above) (word : Token) :
    (ifStatement word larger above).Outlasts (ifStatement word inner limit) := by
  refine (outlasts_condition _ below).bind fun test => ?_
  refine (outlasts_block statements below).bind fun body => ?_
  refine (Outlasts.refl _).bind fun found => .choice found ?_ (.refl _)
  refine (Outlasts.refl _).bind fun _ => (outlasts_block statements below).bind fun otherwise => ?_
  exact .refl _

/-- A statement that is read under some limits is read in the same way under larger
ones. The induction is on the depth, as for expressions: each pair of braces takes one
level. -/
theorem outlasts_statement {limit above : Nat} (below : limit ≤ above) {depth deeper : Nat}
    (within : depth ≤ deeper) : (statement above deeper).Outlasts (statement limit depth) := by
  induction depth generalizing deeper with
  | zero => exact .tooDeep _
  | succ depth ih =>
      obtain ⟨deeper, rfl⟩ := Nat.exists_eq_add_of_le within
      have inner := ih (Nat.le_add_right depth deeper)
      have values := outlasts_expression below below
      rw [Nat.add_right_comm, statement, statement]
      refine (Outlasts.refl _).bind fun token => ?_
      split
      · exact values.bind fun value => .refl _
      · exact outlasts_ifStatement inner below token
      · refine (outlasts_condition _ below).bind fun test => ?_
        exact (outlasts_block inner below).bind fun body => .refl _
      · exact (Outlasts.refl _).bind fun _ => values.bind fun value => .refl _

private theorem outlasts_program {inner larger : Rule Stmt} (statements : larger.Outlasts inner)
    {limit above : Nat} (below : limit ≤ above) :
    (program larger above).Outlasts (program inner limit) := by
  induction limit generalizing above with
  | zero => exact .tooDeep _
  | succ limit ih =>
      obtain ⟨above, rfl⟩ := Nat.exists_eq_add_of_le below
      rw [Nat.add_right_comm, program, program]
      refine (Outlasts.refl _).bind fun found => .choice found (.refl _) ?_
      refine statements.bind fun first => (ih (Nat.le_add_right limit above)).bind fun others => ?_
      exact .refl _

end Grammar

open Grammar

/-- **Limits have no part in parsing.** Under all limits above the number of tokens, the
parser does the same. -/
theorem Parser.programRule_of_limit (tokens : List Token) {limit : Nat}
    (enough : tokens.length < limit) :
    program (statement limit limit) limit (.ofList tokens) =
      Parser.programRule tokens (.ofList tokens) := by
  have statements := outlasts_statement (Nat.succ_le_of_lt enough) (Nat.succ_le_of_lt enough)
  rcases outlasts_program statements (Nat.succ_le_of_lt enough) (.ofList tokens) with
    same | stopped
  · exact same
  · exact absurd stopped (parse_ne_tooDeep tokens)

end Scriptlet
