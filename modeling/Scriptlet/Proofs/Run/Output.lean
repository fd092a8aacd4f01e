import Scriptlet.Proofs.Run.Sequence
import Scriptlet.Proofs.Run.Step

/-! # What a run prints

The records of a run tell which values its prints have computed
(`RunState.printedValues`). As long as no line was refused, the output is the text of
these values, a line for each (`Program.output_eq_flatMap`). A run only adds to its
records and its output, so what it has at some moment is an initial part of what it has
later (`execute_grows`).
-/

namespace Scriptlet

/-- The line that a print writes for a value. -/
def Value.line (value : Value) : Bytes :=
  value.display ++ Bytes.ofString "\n"

/-- The value that a print has computed. -/
def Action.printed? : Action → Option Value
  | .assigned _ _ => none
  | .printed value => some value

namespace RunState

/-- The values that prints have computed, in order. The line of the last one may have
been refused. -/
def printedValues (state : RunState) : List Value :=
  state.trace.filterMap fun record => record.action.printed?

@[simp]
theorem printedValues_record (state : RunState) (position : Position) (action : Action) :
    (state.record position action).printedValues =
      state.printedValues ++ action.printed?.toList := by
  cases action <;> simp [printedValues, trace, record, Action.printed?]

@[simp]
theorem printedValues_bind (state : RunState) (name : String) (value : Value) :
    (state.bind name value).printedValues = state.printedValues :=
  rfl

@[simp]
theorem printedValues_printed (state : RunState) (position : Position) (value : Value)
    (room : Option Nat) :
    (state.printed position value room).printedValues = state.printedValues ++ [value] :=
  state.printedValues_record position (.printed value)

/-- The output is the text of the values that were printed. -/
def Shows (state : RunState) : Prop :=
  state.output = state.printedValues.flatMap Value.line

/-- A step adds the lines of the values that it prints. -/
theorem Shows.of_performs {state next : RunState} {statement : Stmt} {inserted : List Stmt}
    (shows : state.Shows) (performed : state.Performs statement (.ok inserted, next)) :
    next.Shows := by
  cases performed with
  | @binds name value span result evaluated =>
      have silent :=
        (state.record span.start (.assigned name result)).printedValues_bind name result
      rw [printedValues_record] at silent
      rw [Shows, silent, Action.printed?, Option.toList_none, List.append_nil]
      exact shows
  | prints evaluated written =>
      rw [Shows, output_printed, printedValues_printed, List.flatMap_append, ← shows]
      simp [Value.line]
  | chosen chooses tested => exact shows
  | declined chooses tested => exact shows

end RunState

/-- The output consists of the lines of the printed values, unless the run fails. -/
theorem Program.output_eq_flatMap {program : Program} {env : Environment} {room : Option Nat}
    {steps : Nat} (going : ∀ failure, (program.run env room steps).ending ≠ .failed failure) :
    (program.run env room steps).state.output =
      (program.run env room steps).state.printedValues.flatMap Value.line := by
  have within : (program : List Stmt) ⊆ program.statements :=
    fun statement => mem_statements_of_mem
  have keeps (state : RunState) (statement : Stmt) (inserted : List Stmt) (next : RunState)
      (_ : statement ∈ program.statements) (shows : state.Shows)
      (performed : state.Performs statement (.ok inserted, next)) : next.Shows :=
    shows.of_performs performed
  have start : RunState.Shows { env := env, room := room } := rfl
  rcases @execute_induction program RunState.Shows keeps steps program _ within start with
    ⟨shows, _⟩ | ⟨_, _, failure, _, _, ended, _⟩
  · exact shows
  · exact absurd ended (going failure)

/-- Without steps nothing happens. -/
theorem execute_zero_state (statements : List Stmt) (state : RunState) :
    (execute 0 statements state).state = state := by
  cases statements <;> rfl

/-- A run keeps what was printed and recorded before it, and adds to it. -/
theorem execute_extends (steps : Nat) (statements : List Stmt) (state : RunState) :
    state.trace <+: (execute steps statements state).state.trace ∧
      state.output <+: (execute steps statements state).state.output := by
  have raised := execute_above steps statements { env := state.env, room := state.room } state
  have same : execute steps statements state =
      (execute steps statements { env := state.env, room := state.room }).above state := raised
  rw [same, RunResult.above, RunState.trace_above, RunState.output_above]
  exact ⟨List.prefix_append _ _, List.prefix_append _ _⟩

/-- What a run has printed and recorded after some steps is an initial part of what it
has printed and recorded after more. -/
theorem execute_grows {fewer more : Nat} (le : fewer ≤ more) (statements : List Stmt)
    (state : RunState) :
    (execute fewer statements state).state.trace <+:
        (execute more statements state).state.trace ∧
      (execute fewer statements state).state.output <+:
        (execute more statements state).state.output := by
  induction fewer generalizing more statements state with
  | zero =>
      rw [execute_zero_state]
      exact execute_extends more statements state
  | succ fewer ih =>
      obtain ⟨more, rfl⟩ := Nat.exists_eq_add_of_le' le
      cases statements with
      | nil => exact ⟨List.prefix_rfl, List.prefix_rfl⟩
      | cons statement others =>
          rw [← Nat.add_assoc, execute, execute]
          rcases state.step statement with ⟨failure | inserted, next⟩
          · exact ⟨List.prefix_rfl, List.prefix_rfl⟩
          · exact ih (Nat.le_add_left fewer more) (inserted ++ others) next

/-- With more steps, more values may be printed, behind the same ones. -/
theorem printedValues_grow {fewer more : Nat} (le : fewer ≤ more) (statements : List Stmt)
    (state : RunState) :
    (execute fewer statements state).state.printedValues <+:
      (execute more statements state).state.printedValues :=
  (execute_grows le statements state).1.filterMap _

end Scriptlet
