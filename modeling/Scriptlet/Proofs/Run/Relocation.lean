import Scriptlet.Proofs.Syntax.Relocation
import Scriptlet.Run.Execution

/-! # Runs at other places

Positions reach a run only through the places that errors and records name. Moving
the positions of a program moves exactly these places (`execute_relocate`).
-/

namespace Scriptlet

variable (move : Position → Position)

/-- The failure with the place moved that it names. -/
def RunFailure.relocate : RunFailure → RunFailure
  | .runtime error => .runtime { error with span := error.span.relocate move }
  | failure => failure

def Ending.relocate : Ending → Ending
  | .failed failure => .failed (failure.relocate move)
  | ending => ending

def TraceRecord.relocate (record : TraceRecord) : TraceRecord :=
  { record with position := move record.position }

def RunState.relocate (state : RunState) : RunState :=
  { state with records := state.records.map (TraceRecord.relocate move) }

/-- The result with all places moved that it names. -/
def RunResult.relocate (result : RunResult) : RunResult where
  state := result.state.relocate move
  ending := result.ending.relocate move

/-- Positions do not matter to operators, except in their errors. -/
theorem Operator.applyValues_relocate (operator : Operator) (left right : Value) (span : Span) :
    operator.applyValues left right (span.relocate move) =
      (operator.applyValues left right span).mapError (RunFailure.relocate move) := by
  cases left with
  | integer first =>
      cases right with
      | integer second =>
          cases operator with
          | div =>
              by_cases zero : second = 0
              · simp only [applyValues, apply, if_pos zero]
                rfl
              · simp only [applyValues, apply, if_neg zero]
                rfl
          | _ => rfl
      | text bytes => rfl
      | absent => rfl
  | text bytes => rfl
  | absent => rfl

namespace Expr

/-- Positions do not matter to the value of an expression, except in its errors. -/
theorem eval_relocate (env : Environment) (expr : Expr) :
    (expr.relocate move).eval env = (expr.eval env).mapError (RunFailure.relocate move) := by
  induction expr with
  | number value span => rfl
  | string value span => rfl
  | variableRef name span =>
      rw [relocate, eval, eval]
      cases env.get? name <;> rfl
  | binary left operator right span ihLeft ihRight =>
      rw [relocate, eval, eval, ihLeft, ihRight]
      cases left.eval env with
      | error failure => rfl
      | ok first =>
          cases right.eval env with
          | error failure => rfl
          | ok second => exact operator.applyValues_relocate move first second span
  | gap => rfl

/-- Positions do not matter to the truth of a condition, except in its errors. -/
theorem holds_relocate (env : Environment) (condition : Expr) :
    (condition.relocate move).holds env =
      (condition.holds env).mapError (RunFailure.relocate move) := by
  -- A gap stands nowhere, but it fails before the place of the condition is asked for.
  by_cases present : condition = .gap
  · subst present
    rfl
  · rw [holds, holds, eval_relocate, span_relocate move present]
    cases condition.eval env with
    | error failure => rfl
    | ok value => cases value <;> rfl

end Expr

namespace RunState

/-- The environment holds no positions. -/
theorem env_relocate (state : RunState) : (state.relocate move).env = state.env :=
  rfl

/-- Records move with the positions. -/
theorem trace_relocate (state : RunState) :
    (state.relocate move).trace = state.trace.map (TraceRecord.relocate move) :=
  List.map_reverse.symm

private theorem record_relocate (state : RunState) (position : Position) (action : Action) :
    (state.record position action).relocate move =
      (state.relocate move).record (move position) action :=
  rfl

private theorem write_relocate (state : RunState) (line : Bytes) :
    (state.relocate move).write line = (state.write line).map (relocate move) := by
  obtain ⟨env, lines, records, room⟩ := state
  cases room with
  | none => rfl
  | some room => cases room <;> rfl

/-- Writing fails for want of room only. -/
theorem write_eq_error {state : RunState} {line : Bytes} {failure : RunFailure}
    (failed : state.write line = .error failure) : failure = .outputClosed := by
  unfold write at failed
  split at failed
  · exact nomatch failed
  · exact (Except.error.inj failed).symm
  · exact nomatch failed

/-- **One step at another place.** A statement does the same, or fails alike,
wherever it stands. -/
theorem step_relocate (state : RunState) (statement : Stmt) :
    (state.relocate move).step (statement.relocate move) =
      (((state.step statement).1.map (Stmt.relocateAll move)).mapError (RunFailure.relocate move),
        (state.step statement).2.relocate move) := by
  cases statement with
  | assign name value span =>
      simp only [Stmt.relocate, step, env_relocate, Expr.eval_relocate]
      cases value.eval state.env <;> rfl
  | print value span =>
      simp only [Stmt.relocate, step, env_relocate, Expr.eval_relocate]
      cases value.eval state.env with
      | error failure => rfl
      | ok result =>
          have recorded := record_relocate move state span.start (.printed result)
          simp only [Except.mapError, Span.relocate, ← recorded, write_relocate]
          cases written : (state.record span.start (.printed result)).write
              (result.display ++ Bytes.ofString "\n") with
          | error failure =>
              -- This failure names no place, so it stays as it is.
              cases write_eq_error written
              rfl
          | ok next => rfl
  | ifThen condition body span =>
      simp only [Stmt.relocate, step, env_relocate, Expr.holds_relocate]
      cases condition.holds state.env with
      | error failure => rfl
      | ok holds => cases holds <;> rfl
  | ifElse condition body otherwise span =>
      simp only [Stmt.relocate, step, env_relocate, Expr.holds_relocate]
      cases condition.holds state.env with
      | error failure => rfl
      | ok holds => cases holds <;> rfl
  | whileDo condition body span =>
      simp only [Stmt.relocate, step, env_relocate, Expr.holds_relocate]
      cases condition.holds state.env with
      | error failure => rfl
      | ok holds =>
          cases holds with
          | false => rfl
          | true =>
              simp only [Except.mapError, Except.map, Stmt.relocateAll_append]
              rfl
  | gap => rfl

end RunState

/-- **Runs at other places.** Statements are executed alike wherever they stand,
step by step. -/
theorem execute_relocate (steps : Nat) (statements : List Stmt) (state : RunState) :
    execute steps (Stmt.relocateAll move statements) (state.relocate move) =
      (execute steps statements state).relocate move := by
  induction steps generalizing statements state with
  | zero => cases statements <;> rfl
  | succ steps ih =>
      cases statements with
      | nil => rfl
      | cons statement others =>
          rw [Stmt.relocateAll, execute, execute, RunState.step_relocate]
          rcases state.step statement with ⟨failure | inserted, next⟩
          · rfl
          · simp only [Except.map, Except.mapError]
            rw [← Stmt.relocateAll_append, ih]

end Scriptlet
