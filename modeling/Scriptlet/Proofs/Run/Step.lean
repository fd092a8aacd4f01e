import Scriptlet.Proofs.Run.Interpretation
import Scriptlet.Proofs.Syntax.Nodes

/-! # What one step can do

A step binds a variable, prints a line, decides which statements come next, or
fails (`RunState.Performs`). So what holds along a run is shown for these few cases,
and the statements that a run works off are always nodes of its program
(`Program.execute_induction`).
-/

namespace Scriptlet

/-- A condition cannot be decided if it fails, or if it is no integer. -/
theorem Expr.holds_eq_error {env : Environment} {condition : Expr} {failure : RunFailure}
    (undecided : condition.holds env = .error failure) :
    condition.eval env = .error failure ∨
      ∃ value, condition.eval env = .ok value ∧ (∀ number, value ≠ .integer number) ∧
        failure = .runtime ⟨.typeMismatch,
          "condition must be an integer, got " ++ value.typeName, condition.span⟩ := by
  rw [holds] at undecided
  cases evaluated : condition.eval env with
  | error other =>
      rw [evaluated] at undecided
      cases undecided
      exact .inl rfl
  | ok value =>
      rw [evaluated] at undecided
      cases value with
      | integer number => cases undecided
      | text bytes =>
          refine .inr ⟨.text bytes, rfl, ?_, (Except.error.inj undecided).symm⟩
          intro number same
          cases same
      | absent =>
          refine .inr ⟨.absent, rfl, ?_, (Except.error.inj undecided).symm⟩
          intro number same
          cases same

namespace RunState

/-- A choice is made by its condition. -/
theorem Chooses.condition?_eq {statement : Stmt} {condition : Expr} {body otherwise : List Stmt}
    (chooses : Chooses statement condition body otherwise) :
    statement.condition? = some condition := by
  cases chooses <;> rfl

/-- What comes next stands inside the branch or loop, or is the loop again. -/
theorem Chooses.subset {statement : Stmt} {condition : Expr} {body otherwise : List Stmt}
    (chooses : Chooses statement condition body otherwise) :
    body ⊆ statement :: statement.inner ∧ otherwise ⊆ statement :: statement.inner := by
  cases chooses with
  | ifThen => exact ⟨List.subset_cons_self _ _, List.nil_subset _⟩
  | ifElse =>
      exact ⟨List.Subset.trans (List.subset_append_left _ _) (List.subset_cons_self _ _),
        List.Subset.trans (List.subset_append_right _ _) (List.subset_cons_self _ _)⟩
  | whileDo =>
      refine ⟨List.append_subset.mpr ⟨List.subset_cons_self _ _, ?_⟩, List.nil_subset _⟩
      exact List.cons_subset_cons _ (List.nil_subset _)

/-- The kinds of steps: what executing a statement gives, and why. -/
inductive Performs (state : RunState) : Stmt → Except RunFailure (List Stmt) × RunState → Prop
  | binds {name : String} {value : Expr} {span : Span} {result : Value}
      (evaluated : value.eval state.env = .ok result) :
      Performs state (.assign name value span)
        (.ok [], (state.record span.start (.assigned name result)).bind name result)
  | prints {value : Expr} {span : Span} {result : Value} {next : Option Nat}
      (evaluated : value.eval state.env = .ok result) (written : Writes state.room next) :
      Performs state (.print value span) (.ok [], state.printed span.start result next)
  | closed {value : Expr} {span : Span} {result : Value}
      (evaluated : value.eval state.env = .ok result) (full : state.room = some 0) :
      Performs state (.print value span)
        (.error .outputClosed, state.record span.start (.printed result))
  | chosen {statement : Stmt} {condition : Expr} {body otherwise : List Stmt}
      (chooses : Chooses statement condition body otherwise)
      (tested : condition.holds state.env = .ok true) : Performs state statement (.ok body, state)
  | declined {statement : Stmt} {condition : Expr} {body otherwise : List Stmt}
      (chooses : Chooses statement condition body otherwise)
      (tested : condition.holds state.env = .ok false) :
      Performs state statement (.ok otherwise, state)
  | failed {statement : Stmt} {expr : Expr} {failure : RunFailure}
      (own : statement.expr? = some expr) (evaluated : expr.eval state.env = .error failure) :
      Performs state statement (.error failure, state)
  | undecided {statement : Stmt} {condition : Expr} {value : Value}
      (own : statement.condition? = some condition)
      (evaluated : condition.eval state.env = .ok value)
      (other : ∀ number, value ≠ .integer number) :
      Performs state statement
        (.error (.runtime ⟨.typeMismatch,
          "condition must be an integer, got " ++ value.typeName, condition.span⟩), state)
  | missing : Performs state .gap (.error (.missing .statement), state)

/-- A step performs the choice of a statement. -/
theorem Chooses.performs {statement : Stmt} {condition : Expr} {body otherwise : List Stmt}
    (chooses : Chooses statement condition body otherwise) (state : RunState) :
    state.Performs statement (state.step statement) := by
  cases tested : condition.holds state.env with
  | error failure =>
      rw [step_undecided chooses tested]
      have deciding := chooses.condition?_eq
      rcases Expr.holds_eq_error tested with evaluated | ⟨value, evaluated, other, rfl⟩
      · exact .failed (Stmt.expr?_of_condition? deciding) evaluated
      · exact .undecided deciding evaluated other
  | ok holds =>
      cases holds with
      | true =>
          rw [step_chosen chooses tested]
          exact .chosen chooses tested
      | false =>
          rw [step_declined chooses tested]
          exact .declined chooses tested

/-- **Steps.** Whatever a step does is one of the ways to perform a statement. -/
theorem performs_step (state : RunState) (statement : Stmt) :
    state.Performs statement (state.step statement) := by
  cases statement with
  | assign name value span =>
      cases evaluated : value.eval state.env with
      | error failure =>
          rw [step_assign_error evaluated]
          exact .failed rfl evaluated
      | ok result =>
          rw [step_assign evaluated]
          exact .binds evaluated
  | print value span =>
      cases evaluated : value.eval state.env with
      | error failure =>
          rw [step_print_error evaluated]
          exact .failed rfl evaluated
      | ok result =>
          rcases writes_or_closed state.room with ⟨next, written⟩ | full
          · rw [step_print evaluated written]
            exact .prints evaluated written
          · rw [step_print_closed evaluated full]
            exact .closed evaluated full
  | ifThen condition body span => exact Chooses.ifThen.performs state
  | ifElse condition body otherwise span => exact Chooses.ifElse.performs state
  | whileDo condition body span => exact Chooses.whileDo.performs state
  | gap => exact .missing

/-- The statements put in the place of one stand inside it, or are that one. -/
theorem Performs.subset {state next : RunState} {statement : Stmt} {inserted : List Stmt}
    (performed : state.Performs statement (.ok inserted, next)) :
    inserted ⊆ statement :: statement.inner := by
  cases performed with
  | binds evaluated => exact List.nil_subset _
  | prints evaluated written => exact List.nil_subset _
  | chosen chooses tested => exact chooses.subset.1
  | declined chooses tested => exact chooses.subset.2

end RunState

/-- **What holds along a run.** Let a property of states be kept by every step that
executes a statement of a program. Then a run of the program ends in a state with
the property, or in one that a failing statement of the program left behind such a
state. The induction is on the steps; the statements that are left are always nodes
of the program. -/
theorem Program.execute_induction {program : Program} {holds : RunState → Prop}
    (keeps : ∀ state statement inserted next, statement ∈ program.statements → holds state →
      RunState.Performs state statement (.ok inserted, next) → holds next)
    {steps : Nat} {statements : List Stmt} {state : RunState}
    (within : statements ⊆ program.statements) (start : holds state) :
    (holds (execute steps statements state).state ∧
        ∀ failure, (execute steps statements state).ending ≠ .failed failure) ∨
      ∃ before statement failure, holds before ∧ statement ∈ program.statements ∧
        (execute steps statements state).ending = .failed failure ∧
        before.Performs statement (.error failure, (execute steps statements state).state) := by
  induction steps generalizing statements state with
  | zero =>
      left
      cases statements with
      | nil =>
          rw [execute]
          exact ⟨start, fun failure => Ending.noConfusion⟩
      | cons statement others =>
          rw [execute]
          exact ⟨start, fun failure => Ending.noConfusion⟩
  | succ steps ih =>
      cases statements with
      | nil =>
          rw [execute]
          exact .inl ⟨start, fun failure => Ending.noConfusion⟩
      | cons statement others =>
          obtain ⟨own, behind⟩ := List.cons_subset.mp within
          have performed := state.performs_step statement
          rw [execute]
          rcases stepped : state.step statement with ⟨failure | inserted, next⟩
          · rw [stepped] at performed
            exact .inr ⟨state, statement, failure, start, own, rfl, performed⟩
          · rw [stepped] at performed
            refine ih ?_ (keeps state statement inserted next own start performed)
            have inside : inserted ⊆ program.statements := by
              refine List.Subset.trans performed.subset ?_
              exact List.cons_subset.mpr ⟨own, inner_subset_statements own⟩
            exact List.append_subset.mpr ⟨inside, behind⟩

end Scriptlet
