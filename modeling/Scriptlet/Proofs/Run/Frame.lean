import Scriptlet.Proofs.Run.Cause
import Scriptlet.Proofs.Run.Output

/-! # What a run may touch

A run binds only names that its program assigns, never unbinds one, and makes no new
strings: each string that it binds or prints is written in the program or was bound when
the run started. Both are kept by every step, those of unfinished blocks and loops
included, and by the step that fails (`RunState.Confined`).
-/

namespace Scriptlet

/-- The text that an expression is the literal of. -/
def Expr.literal? : Expr → Option Bytes
  | .number _ _ => none
  | .string value _ => some value
  | .variableRef _ _ => none
  | .binary _ _ _ _ => none
  | .gap => none

/-- The value that was bound or printed. -/
def Action.value : Action → Value
  | .assigned _ value => value
  | .printed value => value

namespace Program

/-- The names that a program assigns, at any depth. -/
def targets (program : Program) : List String :=
  program.statements.filterMap Stmt.target?

/-- The strings that are written in a program, at any depth. -/
def literals (program : Program) : List Bytes :=
  program.expressions.filterMap Expr.literal?

/-- The values that a program can have in a run from an environment: integers, strings
that are written in it, and what was bound at the start. -/
inductive Supplies (program : Program) (env : Environment) : Value → Prop
  | integer (number : Int64) : Supplies program env (.integer number)
  | literal {bytes : Bytes} (written : bytes ∈ program.literals) :
      Supplies program env (.text bytes)
  | initial {name : String} {value : Value} (bound : env.get? name = some value) :
      Supplies program env value

variable {program : Program} {env : Environment}

/-- A text comes from the program or from the environment. -/
theorem Supplies.text_cases {bytes : Bytes} (supplied : program.Supplies env (.text bytes)) :
    bytes ∈ program.literals ∨ ∃ name, env.get? name = some (.text bytes) := by
  cases supplied with
  | literal written => exact .inl written
  | @initial name _ bound => exact .inr ⟨name, bound⟩

/-- What is no text is a number. -/
theorem Supplies.exists_integer {value : Value} (supplied : program.Supplies env value)
    (proper : env.Proper) (other : ∀ bytes, value ≠ .text bytes) :
    ∃ number, value = .integer number := by
  cases supplied with
  | integer number => exact ⟨number, rfl⟩
  | @literal bytes written => exact absurd rfl (other bytes)
  | @initial name _ bound =>
      cases value with
      | integer number => exact ⟨number, rfl⟩
      | text bytes => exact absurd rfl (other bytes)
      | absent => exact absurd rfl (proper name .absent bound)

end Program

/-- Operators give numbers. -/
theorem Operator.exists_integer_of_applyValues {operator : Operator} {left right result : Value}
    {span : Span} (applied : operator.applyValues left right span = .ok result) :
    ∃ number, result = .integer number := by
  cases left with
  | text bytes => cases applied
  | absent => cases applied
  | integer first =>
      cases right with
      | text bytes => cases applied
      | absent => cases applied
      | integer second =>
          cases operator with
          | div =>
              rw [applyValues, apply] at applied
              by_cases zero : second = 0
              · rw [if_pos zero] at applied
                cases applied
              · rw [if_neg zero] at applied
                cases applied
                exact ⟨_, rfl⟩
          | unknown code => cases applied
          | _ =>
              cases applied
              exact ⟨_, rfl⟩

/-- Evaluation makes no new strings: operators give integers, and the other expressions
are literals and variables. -/
theorem Expr.supplies_of_eval {program : Program} {start env : Environment} {expr : Expr}
    {value : Value} (member : expr ∈ program.expressions)
    (held : ∀ name value, env.get? name = some value → program.Supplies start value)
    (evaluated : expr.eval env = .ok value) : program.Supplies start value := by
  cases expr with
  | number number span =>
      cases evaluated
      exact .integer number
  | string bytes span =>
      cases evaluated
      exact .literal (List.mem_filterMap.mpr ⟨.string bytes span, member, rfl⟩)
  | variableRef name span =>
      rw [eval] at evaluated
      cases bound : env.get? name with
      | none =>
          rw [bound] at evaluated
          cases evaluated
      | some found =>
          rw [bound] at evaluated
          cases evaluated
          exact held name value bound
  | binary left operator right span =>
      rw [eval] at evaluated
      cases first : left.eval env with
      | error failure =>
          rw [first] at evaluated
          cases evaluated
      | ok leftValue =>
          cases second : right.eval env with
          | error failure =>
              rw [first, second] at evaluated
              cases evaluated
          | ok rightValue =>
              rw [first, second] at evaluated
              obtain ⟨number, rfl⟩ := Operator.exists_integer_of_applyValues evaluated
              exact .integer number
  | gap => cases evaluated

namespace RunState

/-- What holds along a run of a program from an environment. -/
structure Confined (program : Program) (env : Environment) (state : RunState) : Prop where
  frame : ∀ name, name ∉ program.targets → state.env.get? name = env.get? name
  bound : ∀ name, env.get? name ≠ none → state.env.get? name ≠ none
  held : ∀ name value, state.env.get? name = some value → program.Supplies env value
  recorded : ∀ record ∈ state.records, program.Supplies env record.action.value
  lines : ∀ line ∈ state.lines, ∃ value ∈ state.printedValues, line = value.line

variable {program : Program} {env : Environment} {state next : RunState} {statement : Stmt}

private theorem confined_start (program : Program) (env : Environment) (room : Option Nat) :
    Confined program env { env := env, room := room } where
  frame _ _ := rfl
  bound _ bound := bound
  held _ _ bound := .initial bound
  recorded _ member := absurd member List.not_mem_nil
  lines _ member := absurd member List.not_mem_nil

/-- A record of a supplied value keeps a state confined. -/
theorem Confined.record (confined : Confined program env state) (position : Position)
    (action : Action) (supplied : program.Supplies env action.value) :
    Confined program env (state.record position action) where
  frame := confined.frame
  bound := confined.bound
  held := confined.held
  recorded := List.forall_mem_cons.mpr ⟨supplied, confined.recorded⟩
  lines line member := by
    obtain ⟨value, printed, same⟩ := confined.lines line member
    refine ⟨value, ?_, same⟩
    rw [printedValues_record]
    exact List.mem_append_left _ printed

/-- A supplied value for a target keeps a state confined. -/
theorem Confined.bind (confined : Confined program env state) {name : String}
    (target : name ∈ program.targets) {value : Value} (supplied : program.Supplies env value) :
    Confined program env (state.bind name value) where
  frame other free := by
    have different : other ≠ name := fun same => free (same ▸ target)
    rw [RunState.bind, Environment.get?_set, if_neg different]
    exact confined.frame other free
  bound other before := by
    rw [RunState.bind, Environment.get?_set]
    by_cases same : other = name
    · rw [if_pos same]
      exact Option.some_ne_none value
    · rw [if_neg same]
      exact confined.bound other before
  held other found bound := by
    rw [RunState.bind, Environment.get?_set] at bound
    by_cases same : other = name
    · rw [if_pos same] at bound
      cases bound
      exact supplied
    · rw [if_neg same] at bound
      exact confined.held other found bound
  recorded := confined.recorded
  lines := confined.lines

/-- A printed line with a supplied value keeps a state confined. -/
theorem Confined.printed (confined : Confined program env state) (position : Position)
    {value : Value} (supplied : program.Supplies env value) (room : Option Nat) :
    Confined program env (state.printed position value room) where
  frame := confined.frame
  bound := confined.bound
  held := confined.held
  recorded := (confined.record position (.printed value) supplied).recorded
  lines := by
    rw [printedValues_printed]
    refine List.forall_mem_cons.mpr ⟨⟨value, List.mem_append_right _ List.mem_cons_self, rfl⟩, ?_⟩
    intro line member
    obtain ⟨other, printed, same⟩ := confined.lines line member
    exact ⟨other, List.mem_append_left _ printed, same⟩

/-- In a confined state, expressions of the program have supplied values. -/
theorem Confined.supplies (confined : Confined program env state)
    (member : statement ∈ program.statements) {expr : Expr} (own : statement.expr? = some expr)
    {value : Value} (evaluated : expr.eval state.env = .ok value) : program.Supplies env value :=
  Expr.supplies_of_eval (Program.mem_expressions_of_expr? member own) confined.held evaluated

/-- The step of `confined_run`, whether it fails or not. -/
theorem Confined.of_performs (confined : Confined program env state)
    (member : statement ∈ program.statements) {result : Except RunFailure (List Stmt)}
    (performed : state.Performs statement (result, next)) : Confined program env next := by
  cases performed with
  | @binds name value span bound evaluated =>
      have target : name ∈ program.targets := List.mem_filterMap.mpr ⟨_, member, rfl⟩
      have supplied := confined.supplies member rfl evaluated
      exact (confined.record span.start (.assigned name bound) supplied).bind target supplied
  | @prints value span printed room evaluated written =>
      exact confined.printed span.start (confined.supplies member rfl evaluated) room
  | @closed value span printed evaluated full =>
      exact confined.record span.start (.printed printed)
        (confined.supplies member rfl evaluated)
  | chosen chooses tested => exact confined
  | declined chooses tested => exact confined
  | failed own evaluated => exact confined
  | undecided own evaluated other => exact confined
  | missing => exact confined

private theorem confined_run (program : Program) (env : Environment) (room : Option Nat) (steps : Nat) :
    Confined program env (program.run env room steps).state := by
  have within : (program : List Stmt) ⊆ program.statements :=
    fun statement => Program.mem_statements_of_mem
  have keeps (state : RunState) (statement : Stmt) (inserted : List Stmt) (next : RunState)
      (member : statement ∈ program.statements) (confined : Confined program env state)
      (performed : state.Performs statement (.ok inserted, next)) : Confined program env next :=
    confined.of_performs member performed
  rcases @Program.execute_induction program (Confined program env) keeps steps program _ within
    (confined_start program env room) with
    ⟨confined, _⟩ | ⟨before, statement, failure, confined, member, _, performed⟩
  · exact confined
  · exact confined.of_performs member performed

/-- A value is bound to a name that the program assigns, or an assignment or a print
computed it. -/
def Handles (program : Program) (state : RunState) (value : Value) : Prop :=
  (∃ name ∈ program.targets, state.env.get? name = some value) ∨
    ∃ record ∈ state.trace, record.action.value = value

/-- In a confined state, what is handled is supplied. -/
theorem Confined.supplies_of_handles (confined : Confined program env state) {value : Value}
    (handled : state.Handles program value) : program.Supplies env value := by
  rcases handled with ⟨name, _, bound⟩ | ⟨record, member, rfl⟩
  · exact confined.held name value bound
  · exact confined.recorded record (List.mem_reverse.mp member)

end RunState

namespace Program

/-- What a run of a program from an environment leaves alone, and which values it binds
and prints. -/
structure Touches (program : Program) (env : Environment) (state : RunState) : Prop where
  /-- Names that the program does not assign are bound as before, or still free. -/
  untouched : ∀ name, name ∉ program.targets → state.env.get? name = env.get? name
  kept : ∀ name, env.get? name ≠ none → state.env.get? name ≠ none
  fresh : ∀ name, env.get? name = none → state.env.get? name ≠ none → name ∈ program.targets
  texts : ∀ bytes, state.Handles program (.text bytes) →
    bytes ∈ program.literals ∨ ∃ name, env.get? name = some (.text bytes)
  numbers : env.Proper → ∀ value, state.Handles program value → (∀ bytes, value ≠ .text bytes) →
    ∃ number : Int64, value = .integer number ∧
      -9223372036854775808 ≤ number.toInt ∧ number.toInt ≤ 9223372036854775807
  /-- Each printed line shows a value that a print computed. -/
  lines : ∀ line ∈ state.lines, ∃ value ∈ state.printedValues, line = value.line

/-- **A run touches only what its program assigns.** For every program, environment and
limit on the output, and after every number of steps, whether the run has ended, failed
or goes on. -/
theorem run_touches (program : Program) (env : Environment) (room : Option Nat) (steps : Nat) :
    program.Touches env (program.run env room steps).state := by
  have confined := RunState.confined_run program env room steps
  refine ⟨confined.frame, confined.bound, ?_, ?_, ?_, confined.lines⟩
  · intro name free bound
    by_contra other
    exact bound ((confined.frame name other).trans free)
  · intro bytes handled
    exact (confined.supplies_of_handles handled).text_cases
  · intro proper value handled other
    obtain ⟨number, rfl⟩ := (confined.supplies_of_handles handled).exists_integer proper other
    have least := number.le_toInt
    have most := number.toInt_lt
    exact ⟨number, rfl, by omega, by omega⟩

end Program

end Scriptlet
