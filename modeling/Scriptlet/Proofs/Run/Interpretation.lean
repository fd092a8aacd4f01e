import Scriptlet.Proofs.Run.BigStep

/-! # Runs follow the evaluation rules

A run works off a list of statements step by step. What the rules derive for some
statements a run reaches after some number of steps, whatever statements are left
behind them (`ExecutesAll.drives`); and a run that ends has done what the rules
derive (`executesAll_of_execute`), by induction on its steps. Together they give
the same outcomes, and since a run has only one result, so do the rules.
-/

namespace Scriptlet

/-- How a run ends with an outcome. -/
def RunOutcome.ending (outcome : RunOutcome) : Ending :=
  match outcome.failure with
  | none => .finished
  | some failure => .failed failure

/-- The outcome of a run that has ended. -/
def RunResult.outcome? (result : RunResult) : Option RunOutcome :=
  match result.ending with
  | .finished => some ⟨result.state.output, result.state.env, result.state.room, none⟩
  | .failed failure =>
    some ⟨result.state.output, result.state.env, result.state.room, some failure⟩
  | .unfinished => none

/-- A state is where an outcome leads from another state. -/
structure RunState.Reaches (state next : RunState) (outcome : RunOutcome) : Prop where
  env : next.env = outcome.env
  room : next.room = outcome.room
  output : next.output = state.output ++ outcome.output

/-- A result that an outcome leads to from a state without output has this
outcome. -/
theorem RunResult.outcome?_eq_some {state : RunState} {result : RunResult} {outcome : RunOutcome}
    (fresh : state.output = []) (reached : state.Reaches result.state outcome)
    (ended : result.ending = outcome.ending) : result.outcome? = some outcome := by
  obtain ⟨output, env, room, failure⟩ := outcome
  have printed := reached.output
  rw [fresh, List.nil_append] at printed
  rw [outcome?, ended, reached.env, reached.room, printed]
  cases failure <;> rfl

/-! ## From the rules to runs -/

/-- A run that starts with some statements follows an outcome: after some number
of steps it has reached a state of the outcome and goes on with the statements
left behind, or has failed. -/
def RunOutcome.Drives (outcome : RunOutcome) (statements : List Stmt) (state : RunState) : Prop :=
  ∃ count next, state.Reaches next outcome ∧ ∀ rest steps,
    execute (count + steps) (statements ++ rest) state =
      match outcome.failure with
      | none => execute steps rest next
      | some failure => ⟨next, .failed failure⟩

namespace RunOutcome

/-- Nothing to do leads nowhere. -/
theorem drives_nil (state : RunState) : (idle state.env state.room).Drives [] state := by
  refine ⟨0, state, ⟨rfl, rfl, (List.append_nil _).symm⟩, ?_⟩
  intro rest steps
  rw [Nat.zero_add]
  rfl

/-- A statement that is replaced by others leads where these lead, behind what it
printed itself. -/
theorem Drives.of_step {outcome : RunOutcome} {statement : Stmt} {inserted : List Stmt}
    {state next : RunState} {written : Bytes} (driven : outcome.Drives inserted next)
    (stepped : state.step statement = (.ok inserted, next))
    (printed : next.output = state.output ++ written) :
    (outcome.behind written).Drives [statement] state := by
  obtain ⟨count, last, reached, followed⟩ := driven
  refine ⟨count + 1, last, ⟨reached.env, reached.room, ?_⟩, ?_⟩
  · rw [reached.output, printed, List.append_assoc]
    rfl
  · intro rest steps
    rw [Nat.add_right_comm, List.singleton_append, execute, stepped]
    exact followed rest steps

/-- A statement that prints nothing itself leads where the statements in its place
lead. -/
theorem Drives.of_silent_step {outcome : RunOutcome} {statement : Stmt} {inserted : List Stmt}
    {state next : RunState} (driven : outcome.Drives inserted next)
    (stepped : state.step statement = (.ok inserted, next))
    (silent : next.output = state.output) : outcome.Drives [statement] state :=
  driven.of_step stepped (silent.trans (List.append_nil _).symm)

/-- A statement that fails at once stops the run. -/
theorem drives_of_step_error {statement : Stmt} {state next : RunState} {failure : RunFailure}
    (stepped : state.step statement = (.error failure, next))
    (silent : next.output = state.output) :
    (stopped next.env next.room failure).Drives [statement] state := by
  refine ⟨1, next, ⟨rfl, rfl, ?_⟩, ?_⟩
  · rw [silent]
    exact (List.append_nil _).symm
  · intro rest steps
    rw [Nat.add_comm, List.singleton_append, execute, stepped]
    rfl

/-- Statements behind one that succeeds are reached. -/
theorem Drives.cons {first rest : RunOutcome} {statement : Stmt} {others : List Stmt}
    {state : RunState} (head : first.Drives [statement] state) (succeeded : first.failure = none)
    (tail : ∀ lines records, rest.Drives others ⟨first.env, lines, records, first.room⟩) :
    (rest.behind first.output).Drives (statement :: others) state := by
  obtain ⟨count, ⟨_, lines, records, _⟩, reached, followed⟩ := head
  obtain rfl := reached.env
  obtain rfl := reached.room
  obtain ⟨more, last, arrived, continued⟩ := tail lines records
  refine ⟨count + more, last, ⟨arrived.env, arrived.room, ?_⟩, ?_⟩
  · rw [arrived.output, reached.output, List.append_assoc]
    rfl
  · intro left steps
    have before := followed (others ++ left) (more + steps)
    rw [succeeded] at before
    rw [Nat.add_assoc]
    exact before.trans (continued left steps)

/-- Statements behind one that fails are not reached. -/
theorem Drives.stop {outcome : RunOutcome} {statement : Stmt} {state : RunState}
    (head : outcome.Drives [statement] state) {failure : RunFailure}
    (failed : outcome.failure = some failure) (others : List Stmt) :
    outcome.Drives (statement :: others) state := by
  obtain ⟨count, next, reached, followed⟩ := head
  refine ⟨count, next, reached, ?_⟩
  intro rest steps
  have before := followed (others ++ rest) steps
  rw [failed] at before ⊢
  exact before

end RunOutcome

namespace RunState

variable {state : RunState}

/-- An assignment binds its value. -/
theorem step_assign {value : Expr} {result : Value} (evaluated : value.eval state.env = .ok result)
    (name : String) (span : Span) :
    state.step (.assign name value span) =
      (.ok [], (state.record span.start (.assigned name result)).bind name result) := by
  rw [step, evaluated]

/-- An assignment fails if its value does. -/
theorem step_assign_error {value : Expr} {failure : RunFailure}
    (evaluated : value.eval state.env = .error failure) (name : String) (span : Span) :
    state.step (.assign name value span) = (.error failure, state) := by
  rw [step, evaluated]

/-- The state behind a printed line. -/
def printed (state : RunState) (position : Position) (value : Value) (room : Option Nat) :
    RunState where
  env := state.env
  lines := (value.display ++ Bytes.ofString "\n") :: state.lines
  records := ⟨position, .printed value⟩ :: state.records
  room := room

/-- A printed line stands behind the others. -/
theorem output_printed (state : RunState) (position : Position) (value : Value)
    (room : Option Nat) :
    (state.printed position value room).output =
      state.output ++ (value.display ++ Bytes.ofString "\n") := by
  simp [output, printed]

/-- The output takes a line or is closed. -/
theorem writes_or_closed (room : Option Nat) : (∃ next, Writes room next) ∨ room = some 0 :=
  match room with
  | none => .inl ⟨none, .unlimited⟩
  | some 0 => .inr rfl
  | some (room + 1) => .inl ⟨some room, .limited⟩

/-- A print shows its value if the output takes a line. -/
theorem step_print {value : Expr} {result : Value} {next : Option Nat}
    (evaluated : value.eval state.env = .ok result) (written : Writes state.room next)
    (span : Span) :
    state.step (.print value span) = (.ok [], state.printed span.start result next) := by
  obtain ⟨env, lines, records, room⟩ := state
  simp only [step, evaluated]
  cases written with
  | unlimited => rfl
  | limited => rfl

/-- A print fails if the output is closed. -/
theorem step_print_closed {value : Expr} {result : Value}
    (evaluated : value.eval state.env = .ok result) (closed : state.room = some 0) (span : Span) :
    state.step (.print value span) =
      (.error .outputClosed, state.record span.start (.printed result)) := by
  obtain ⟨env, lines, records, room⟩ := state
  cases closed
  simp only [step, evaluated]
  rfl

/-- A print fails if its value does. -/
theorem step_print_error {value : Expr} {failure : RunFailure}
    (evaluated : value.eval state.env = .error failure) (span : Span) :
    state.step (.print value span) = (.error failure, state) := by
  rw [step, evaluated]

/-- The statements that take the place of a branch or a loop whose condition holds
or does not, and the statement with its condition, body and alternative. -/
inductive Chooses : Stmt → Expr → List Stmt → List Stmt → Prop
  | ifThen {condition : Expr} {body : List Stmt} {span : Span} :
      Chooses (.ifThen condition body span) condition body []
  | ifElse {condition : Expr} {body otherwise : List Stmt} {span : Span} :
      Chooses (.ifElse condition body otherwise span) condition body otherwise
  | whileDo {condition : Expr} {body : List Stmt} {span : Span} :
      Chooses (.whileDo condition body span) condition
        (body ++ [.whileDo condition body span]) []

/-- A condition that holds selects the first block. -/
theorem step_chosen {statement : Stmt} {condition : Expr} {body otherwise : List Stmt}
    (chooses : Chooses statement condition body otherwise)
    (tested : condition.holds state.env = .ok true) : state.step statement = (.ok body, state) := by
  cases chooses <;> simp only [step, tested]

/-- A branch or a loop whose condition does not hold is replaced by its
alternative. -/
theorem step_declined {statement : Stmt} {condition : Expr} {body otherwise : List Stmt}
    (chooses : Chooses statement condition body otherwise)
    (tested : condition.holds state.env = .ok false) :
    state.step statement = (.ok otherwise, state) := by
  cases chooses <;> simp only [step, tested]

/-- A condition that cannot be decided fails. -/
theorem step_undecided {statement : Stmt} {condition : Expr} {body otherwise : List Stmt}
    (chooses : Chooses statement condition body otherwise) {failure : RunFailure}
    (tested : condition.holds state.env = .error failure) :
    state.step statement = (.error failure, state) := by
  cases chooses <;> simp only [step, tested]

end RunState

open RunState

mutual

/-- What the rules derive for a statement is what a run does with it. -/
theorem Executes.drives {env : Environment} {room : Option Nat} {statement : Stmt}
    {outcome : RunOutcome} : Executes env room statement outcome →
      ∀ lines records, outcome.Drives [statement] ⟨env, lines, records, room⟩
  | .assign evaluated, _, _ =>
      (RunOutcome.drives_nil _).of_silent_step
        (step_assign (Expr.eval_of_evaluates evaluated) _ _) rfl
  | .assignFails evaluated, _, _ =>
      RunOutcome.drives_of_step_error
        (step_assign_error (Expr.eval_of_evaluates evaluated) _ _) rfl
  | .print evaluated written, _, _ =>
      (RunOutcome.drives_nil _).of_step
        (step_print (Expr.eval_of_evaluates evaluated) written _) (output_printed _ _ _ _)
  | .printFails evaluated, _, _ =>
      RunOutcome.drives_of_step_error (step_print_error (Expr.eval_of_evaluates evaluated) _) rfl
  | .printClosed evaluated, _, _ =>
      RunOutcome.drives_of_step_error
        (step_print_closed (Expr.eval_of_evaluates evaluated) rfl _) rfl
  | .ifThen tested executed, lines, records =>
      (executed.drives lines records).of_silent_step
        (step_chosen .ifThen (Expr.holds_of_tests tested)) rfl
  | .ifThenSkipped tested, _, _ =>
      (RunOutcome.drives_nil _).of_silent_step
        (step_declined .ifThen (Expr.holds_of_tests tested)) rfl
  | .ifThenFails tested, _, _ =>
      RunOutcome.drives_of_step_error
        (step_undecided .ifThen (Expr.holds_of_tests tested)) rfl
  | .ifElse tested executed, lines, records =>
      (executed.drives lines records).of_silent_step
        (step_chosen .ifElse (Expr.holds_of_tests tested)) rfl
  | .ifElseOther tested executed, lines, records =>
      (executed.drives lines records).of_silent_step
        (step_declined .ifElse (Expr.holds_of_tests tested)) rfl
  | .ifElseFails tested, _, _ =>
      RunOutcome.drives_of_step_error
        (step_undecided .ifElse (Expr.holds_of_tests tested)) rfl
  | .whileAgain tested unfolded, lines, records =>
      (unfolded.drives lines records).of_silent_step
        (step_chosen .whileDo (Expr.holds_of_tests tested)) rfl
  | .whileDone tested, _, _ =>
      (RunOutcome.drives_nil _).of_silent_step
        (step_declined .whileDo (Expr.holds_of_tests tested)) rfl
  | .whileFails tested, _, _ =>
      RunOutcome.drives_of_step_error
        (step_undecided .whileDo (Expr.holds_of_tests tested)) rfl

/-- **From the rules to runs.** A run reaches what the rules derive for some
statements. The induction follows the derivation and keeps the statements that are
left behind general. -/
theorem ExecutesAll.drives {env : Environment} {room : Option Nat} {statements : List Stmt}
    {outcome : RunOutcome} : ExecutesAll env room statements outcome →
      ∀ lines records, outcome.Drives statements ⟨env, lines, records, room⟩
  | .nil, _, _ => RunOutcome.drives_nil _
  | .cons head succeeded tail, lines, records =>
      (head.drives lines records).cons succeeded tail.drives
  | .stop head failed, lines, records => (head.drives lines records).stop failed _

end

/-- A run of statements that the rules derive an outcome for ends with it, given
enough steps. -/
theorem ExecutesAll.execute_eq (state : RunState) {statements : List Stmt} {outcome : RunOutcome}
    (executed : ExecutesAll state.env state.room statements outcome) :
    ∃ count next, state.Reaches next outcome ∧
      ∀ steps, execute (count + steps) statements state = ⟨next, outcome.ending⟩ := by
  obtain ⟨count, next, reached, followed⟩ := executed.drives state.lines state.records
  refine ⟨count, next, reached, ?_⟩
  intro steps
  have ended := followed [] steps
  rw [List.append_nil] at ended
  rw [ended, RunOutcome.ending]
  cases outcome.failure with
  | none => cases steps <;> rfl
  | some failure => rfl

/-! ## From runs to the rules -/

/-- What statements lead to is what the first of them lead to, and then the others
unless these failed. -/
theorem ExecutesAll.split {left right : List Stmt} {env : Environment} {room : Option Nat}
    {outcome : RunOutcome} (executed : ExecutesAll env room (left ++ right) outcome) :
    ∃ first, ExecutesAll env room left first ∧
      ((∃ failure, first.failure = some failure ∧ outcome = first) ∨
        (first.failure = none ∧ ∃ rest, ExecutesAll first.env first.room right rest ∧
          outcome = rest.behind first.output)) := by
  induction left generalizing env room outcome with
  | nil => exact ⟨.idle env room, .nil, .inr ⟨rfl, outcome, executed, rfl⟩⟩
  | cons statement others ih =>
      cases executed with
      | @cons _ _ _ _ before after head succeeded tail =>
          obtain ⟨first, inner, ⟨failure, failed, rfl⟩ | ⟨free, rest, behind, rfl⟩⟩ := ih tail
          · exact ⟨after.behind before.output, .cons head succeeded inner,
              .inl ⟨failure, failed, rfl⟩⟩
          · refine ⟨first.behind before.output, .cons head succeeded inner, .inr ⟨free, rest, ?_⟩⟩
            exact ⟨behind, RunOutcome.behind_behind _ _ _⟩
      | stop head failed => exact ⟨outcome, .stop head failed, .inl ⟨_, failed, rfl⟩⟩

/-- A choice without gaps has none in its condition and its blocks. -/
theorem RunState.Chooses.complete {statement : Stmt} {condition : Expr}
    {body otherwise : List Stmt} (chooses : Chooses statement condition body otherwise)
    (complete : statement.Every (· ≠ .gap) (· ≠ .gap)) :
    condition.Every (· ≠ .gap) ∧ Stmt.EveryIn (· ≠ .gap) (· ≠ .gap) body ∧
      Stmt.EveryIn (· ≠ .gap) (· ≠ .gap) otherwise := by
  cases chooses with
  | ifThen => exact ⟨complete.2.1, complete.2.2, trivial⟩
  | ifElse => exact complete.2
  | whileDo =>
      refine ⟨complete.2.1, ?_, trivial⟩
      exact Stmt.everyIn_append_iff.mpr ⟨complete.2.2, complete, trivial⟩

/-- The rules execute the block that a condition selects. -/
theorem RunState.Chooses.executes {statement : Stmt} {condition : Expr}
    {body otherwise : List Stmt} (chooses : Chooses statement condition body otherwise)
    {env : Environment} {room : Option Nat} {outcome : RunOutcome}
    (tested : Tests env condition (.ok true)) (executed : ExecutesAll env room body outcome) :
    Executes env room statement outcome := by
  cases chooses with
  | ifThen => exact .ifThen tested executed
  | ifElse => exact .ifElse tested executed
  | whileDo => exact .whileAgain tested executed

/-- A branch or a loop whose condition does not hold leads where its alternative
leads. -/
theorem RunState.Chooses.executes_other {statement : Stmt} {condition : Expr}
    {body otherwise : List Stmt} (chooses : Chooses statement condition body otherwise)
    {env : Environment} {room : Option Nat} {outcome : RunOutcome}
    (tested : Tests env condition (.ok false))
    (executed : ExecutesAll env room otherwise outcome) :
    Executes env room statement outcome := by
  cases chooses with
  | ifThen =>
      cases executed
      exact .ifThenSkipped tested
  | ifElse => exact .ifElseOther tested executed
  | whileDo =>
      cases executed
      exact .whileDone tested

/-- By the rules, a condition that fails ends its statement. -/
theorem RunState.Chooses.executes_error {statement : Stmt} {condition : Expr}
    {body otherwise : List Stmt} (chooses : Chooses statement condition body otherwise)
    {env : Environment} {room : Option Nat} {failure : RunFailure}
    (tested : Tests env condition (.error failure)) :
    Executes env room statement (.stopped env room failure) := by
  cases chooses with
  | ifThen => exact .ifThenFails tested
  | ifElse => exact .ifElseFails tested
  | whileDo => exact .whileFails tested

/-- What one step does, by the rules: a statement that is replaced leads, behind
what it printed itself, where the statements in its place lead; one that fails
leads to its failure. -/
def RunState.Follows (state : RunState) (statement : Stmt) :
    Except RunFailure (List Stmt) × RunState → Prop
  | (.ok inserted, next) =>
    Stmt.EveryIn (· ≠ .gap) (· ≠ .gap) inserted ∧ ∃ written,
      next.output = state.output ++ written ∧
      ∀ outcome, ExecutesAll next.env next.room inserted outcome →
        Executes state.env state.room statement (outcome.behind written)
  | (.error failure, next) =>
    ∃ outcome, Executes state.env state.room statement outcome ∧
      state.Reaches next outcome ∧ outcome.failure = some failure

namespace RunState

/-- A branch or a loop does what the rules say. -/
theorem Chooses.follows {statement : Stmt} {condition : Expr} {body otherwise : List Stmt}
    (chooses : Chooses statement condition body otherwise)
    (complete : statement.Every (· ≠ .gap) (· ≠ .gap)) (state : RunState) :
    state.Follows statement (state.step statement) := by
  obtain ⟨whole, inner, outer⟩ := chooses.complete complete
  have silent : state.output = state.output ++ [] := (List.append_nil _).symm
  cases tested : condition.holds state.env with
  | error failure =>
      rw [step_undecided chooses tested]
      exact ⟨_, chooses.executes_error ((Expr.tests_iff whole).mpr tested), ⟨rfl, rfl, silent⟩, rfl⟩
  | ok holds =>
      have derived := (Expr.tests_iff whole).mpr tested
      cases holds with
      | true =>
          rw [step_chosen chooses tested]
          exact ⟨inner, [], silent, fun outcome executed => chooses.executes derived executed⟩
      | false =>
          rw [step_declined chooses tested]
          exact ⟨outer, [], silent, fun outcome executed => chooses.executes_other derived executed⟩

/-- **One step by the rules.** Every statement without gaps does what the rules
say. -/
theorem follows_step (state : RunState) {statement : Stmt}
    (complete : statement.Every (· ≠ .gap) (· ≠ .gap)) :
    state.Follows statement (state.step statement) := by
  have silent : state.output = state.output ++ [] := (List.append_nil _).symm
  cases statement with
  | assign name value span =>
      cases computed : value.eval state.env with
      | error failure =>
          rw [step_assign_error computed]
          exact ⟨_, .assignFails ((Expr.evaluates_iff complete.2).mpr computed),
            ⟨rfl, rfl, silent⟩, rfl⟩
      | ok result =>
          rw [step_assign computed]
          refine ⟨trivial, [], silent, ?_⟩
          intro outcome executed
          cases executed
          exact .assign ((Expr.evaluates_iff complete.2).mpr computed)
  | print value span =>
      cases computed : value.eval state.env with
      | error failure =>
          rw [step_print_error computed]
          exact ⟨_, .printFails ((Expr.evaluates_iff complete.2).mpr computed),
            ⟨rfl, rfl, silent⟩, rfl⟩
      | ok result =>
          have evaluated := (Expr.evaluates_iff complete.2).mpr computed
          rcases writes_or_closed state.room with ⟨next, written⟩ | closed
          · rw [step_print computed written]
            refine ⟨trivial, _, output_printed _ _ _ _, ?_⟩
            intro outcome executed
            cases executed
            exact .print evaluated written
          · rw [step_print_closed computed closed]
            refine ⟨.stopped state.env (some 0) .outputClosed, ?_, ⟨rfl, closed, silent⟩, rfl⟩
            rw [closed]
            exact .printClosed evaluated
  | ifThen condition body span => exact Chooses.ifThen.follows complete state
  | ifElse condition body otherwise span => exact Chooses.ifElse.follows complete state
  | whileDo condition body span => exact Chooses.whileDo.follows complete state
  | gap => exact absurd rfl complete

end RunState

/-- **From runs to the rules.** A run of statements without gaps that has ended has
done what the rules derive. The induction is on the steps of the run. -/
theorem executesAll_of_execute {steps : Nat} {statements : List Stmt} {state : RunState}
    (complete : Stmt.EveryIn (· ≠ .gap) (· ≠ .gap) statements)
    (ended : (execute steps statements state).ending ≠ .unfinished) :
    ∃ outcome, ExecutesAll state.env state.room statements outcome ∧
      state.Reaches (execute steps statements state).state outcome ∧
      (execute steps statements state).ending = outcome.ending := by
  induction steps generalizing statements state with
  | zero =>
      cases statements with
      | nil => exact ⟨_, .nil, ⟨rfl, rfl, (List.append_nil _).symm⟩, rfl⟩
      | cons statement others => exact absurd rfl ended
  | succ steps ih =>
      cases statements with
      | nil => exact ⟨_, .nil, ⟨rfl, rfl, (List.append_nil _).symm⟩, rfl⟩
      | cons statement others =>
          have followed := state.follows_step complete.1
          rw [execute] at ended ⊢
          rcases stepped : state.step statement with ⟨failure | inserted, next⟩
          · rw [stepped] at followed
            obtain ⟨outcome, executed, reached, failed⟩ := followed
            refine ⟨outcome, .stop executed failed, reached, ?_⟩
            rw [RunOutcome.ending, failed]
          · rw [stepped] at followed ended
            obtain ⟨inner, written, printed, derives⟩ := followed
            obtain ⟨outcome, executed, reached, same⟩ :=
              ih (Stmt.everyIn_append_iff.mpr ⟨inner, complete.2⟩) ended
            refine ⟨outcome.behind written, ?_, ⟨reached.env, reached.room, ?_⟩, same⟩
            · -- The outcome is cut where the statements put in place end.
              obtain ⟨first, head, ⟨failure, failed, rfl⟩ | ⟨free, rest, tail, rfl⟩⟩ :=
                executed.split
              · exact .stop (derives outcome head) failed
              · rw [RunOutcome.behind_behind]
                exact .cons (derives first head) free tail
            · rw [reached.output, printed, List.append_assoc]
              rfl

namespace Program

/-- What a run comes to can be derived by the rules. -/
theorem executesAll_of_run {program : Program} (complete : program.Complete) {env : Environment}
    {room : Option Nat} {steps : Nat} {outcome : RunOutcome}
    (ended : (program.run env room steps).outcome? = some outcome) :
    ExecutesAll env room program outcome := by
  have finite : (program.run env room steps).ending ≠ .unfinished := by
    intro unfinished
    rw [RunResult.outcome?, unfinished] at ended
    exact nomatch ended
  obtain ⟨derived, executed, reached, same⟩ := executesAll_of_execute complete finite
  have found := RunResult.outcome?_eq_some rfl reached same
  cases Option.some.inj (found.symm.trans ended)
  exact executed

/-- A run with enough steps ends with the outcome that the rules derive. -/
theorem run_of_executesAll {program : Program} {env : Environment} {room : Option Nat}
    {outcome : RunOutcome} (executed : ExecutesAll env room program outcome) :
    ∃ count, ∀ steps, (program.run env room (count + steps)).outcome? = some outcome := by
  obtain ⟨count, next, reached, ended⟩ :=
    ExecutesAll.execute_eq { env := env, room := room } executed
  refine ⟨count, ?_⟩
  intro steps
  rw [run, ended steps]
  exact RunResult.outcome?_eq_some rfl reached rfl

/-- The rules derive at most one outcome: a run with enough steps for two of them
ends with both. -/
theorem executesAll_unique {program : Program} {env : Environment} {room : Option Nat}
    {left right : RunOutcome} (first : ExecutesAll env room program left)
    (second : ExecutesAll env room program right) : left = right := by
  -- The two runs are brought to the same number of steps.
  obtain ⟨few, ended⟩ := run_of_executesAll first
  obtain ⟨many, stopped⟩ := run_of_executesAll second
  have same := stopped few
  rw [Nat.add_comm, ended many] at same
  exact Option.some.inj same

/-- **The interpreter and the rules.** For every program without gaps, every
environment and every limit on the output, a run ends with an outcome exactly if
the rules derive it, and they derive at most one. -/
theorem run_outcome_iff_executesAll {program : Program} (complete : program.Complete)
    (env : Environment) (room : Option Nat) :
    (∀ outcome, (∃ steps, (program.run env room steps).outcome? = some outcome) ↔
      ExecutesAll env room program outcome) ∧
    ∀ first second, ExecutesAll env room program first → ExecutesAll env room program second →
      first = second := by
  refine ⟨?_, fun first second => executesAll_unique⟩
  intro outcome
  constructor
  · rintro ⟨steps, ended⟩
    exact executesAll_of_run complete ended
  · intro executed
    obtain ⟨count, ended⟩ := run_of_executesAll executed
    exact ⟨count, ended 0⟩

/-- A loop that prints down to zero and then divides by it. -/
def countdown : Program :=
  [.whileDo (.variableRef "n" {})
    [.print (.variableRef "n" {}) {},
      .assign "n" (.binary (.variableRef "n" {}) .sub (.number 1 {}) {}) {}] {},
    .print (.binary (.number 1 {}) .div (.variableRef "n" {}) {}) {}]

/-- A loop that prints twice and then divides by zero. -/
theorem countdown_run_outcome_iff_executesAll :
    countdown.Complete ∧ ExecutesAll ⟨[("n", .integer 2)]⟩ (some 3) countdown
      ⟨Bytes.ofString "2\n1\n", ⟨[("n", .integer 0)]⟩, some 1,
        some (.runtime ⟨.divisionByZero, "", {}⟩)⟩ := by
  have complete : countdown.Complete := by
    simp [Program.Complete, countdown, Stmt.EveryIn, Stmt.Every, Expr.Every]
  refine ⟨complete, ?_⟩
  refine ((run_outcome_iff_executesAll complete _ _).1 _).mp ⟨12, ?_⟩
  decide +kernel

end Program

end Scriptlet
