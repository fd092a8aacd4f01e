import Scriptlet.Proofs.Run.Step

/-! # What a run depends on

A run asks its environment only for the names that its program looks up. So two
runs from environments that agree on these names go in lockstep: they print the same
lines and end alike, and where the environments agreed at the start they still agree
at the end. A name that is bound on some paths and never looked up may differ all
the way.
-/

namespace Scriptlet

namespace Expr

/-- The names that an expression looks up. -/
def reads (expr : Expr) : List String :=
  expr.nodes.filterMap name?

private theorem reads_binary (left right : Expr) (operator : Operator) (span : Span) :
    (binary left operator right span).reads = left.reads ++ right.reads := by
  have silent : (binary left operator right span).name? = none := rfl
  rw [reads, nodes, List.filterMap_cons_none silent, List.filterMap_append, reads, reads]

/-- The value of an expression depends on the variables that it reads. -/
theorem eval_eq_of_reads {first second : Environment} {expr : Expr}
    (agree : ∀ name ∈ expr.reads, first.get? name = second.get? name) :
    expr.eval first = expr.eval second := by
  induction expr with
  | number value span => rfl
  | string value span => rfl
  | variableRef name span =>
      have same : first.get? name = second.get? name := agree name List.mem_cons_self
      rw [eval, eval, same]
  | binary left operator right span ihLeft ihRight =>
      rw [reads_binary, List.forall_mem_append] at agree
      rw [eval, eval, ihLeft agree.1, ihRight agree.2]
  | gap => rfl

/-- The truth of a condition depends on the variables that it reads. -/
theorem holds_eq_of_reads {first second : Environment} {condition : Expr}
    (agree : ∀ name ∈ condition.reads, first.get? name = second.get? name) :
    condition.holds first = condition.holds second := by
  rw [holds, holds, eval_eq_of_reads agree]

end Expr

/-- The names that a program looks up, at any depth. -/
def Program.reads (program : Program) : List String :=
  program.expressions.filterMap Expr.name?

/-- A program reads what its statements read. -/
theorem Program.reads_subset {program : Program} {statement : Stmt} {expr : Expr}
    (member : statement ∈ program.statements) (own : statement.expr? = some expr) :
    expr.reads ⊆ program.reads := by
  intro name looked
  obtain ⟨node, inside, named⟩ := List.mem_filterMap.mp looked
  have known : node ∈ program.expressions :=
    mem_expressions_iff.mpr ⟨statement, member, expr, own, inside⟩
  exact List.mem_filterMap.mpr ⟨node, known, named⟩

namespace RunState

/-- Two states differ at most in variables that are not among the seen ones. -/
structure Agrees (seen : String → Prop) (left right : RunState) : Prop where
  env : ∀ name, seen name → left.env.get? name = right.env.get? name
  lines : left.lines = right.lines
  records : left.records = right.records
  room : left.room = right.room

variable {seen : String → Prop} {left right : RunState}

/-- A record keeps states in agreement. -/
theorem Agrees.record (agrees : Agrees seen left right) (position : Position) (action : Action) :
    Agrees seen (left.record position action) (right.record position action) where
  env := agrees.env
  lines := agrees.lines
  records := congrArg (List.cons _) agrees.records
  room := agrees.room

/-- A new value for a variable keeps states in agreement. -/
theorem Agrees.bind (agrees : Agrees seen left right) (name : String) (value : Value) :
    Agrees seen (left.bind name value) (right.bind name value) where
  env other known := by
    simp only [RunState.bind, Environment.get?_set, agrees.env other known]
  lines := agrees.lines
  records := agrees.records
  room := agrees.room

/-- A printed line keeps states in agreement. -/
theorem Agrees.printed (agrees : Agrees seen left right) (position : Position) (value : Value)
    (room : Option Nat) :
    Agrees seen (left.printed position value room) (right.printed position value room) where
  env := agrees.env
  lines := congrArg (List.cons _) agrees.lines
  records := congrArg (List.cons _) agrees.records
  room := rfl

/-- Two steps take the same way: they give the same statements or the same failure,
and leave states that agree. -/
def Parallel (seen : String → Prop)
    (first second : Except RunFailure (List Stmt) × RunState) : Prop :=
  first.1 = second.1 ∧ Agrees seen first.2 second.2

/-- A choice is made in parallel by states in agreement. -/
theorem Chooses.parallel {statement : Stmt} {condition : Expr} {body otherwise : List Stmt}
    (chooses : Chooses statement condition body otherwise) (agrees : Agrees seen left right)
    (same : condition.holds left.env = condition.holds right.env) :
    Parallel seen (left.step statement) (right.step statement) := by
  cases tested : condition.holds right.env with
  | error failure =>
      rw [step_undecided chooses tested, step_undecided chooses (same.trans tested)]
      exact ⟨rfl, agrees⟩
  | ok holds =>
      cases holds with
      | true =>
          rw [step_chosen chooses tested, step_chosen chooses (same.trans tested)]
          exact ⟨rfl, agrees⟩
      | false =>
          rw [step_declined chooses tested, step_declined chooses (same.trans tested)]
          exact ⟨rfl, agrees⟩

/-- The step of `Program.execute_parallel`. What a statement evaluates is the same in
both states, and its name, if it binds one, gets the same value in both. -/
theorem Agrees.step (agrees : Agrees seen left right) {statement : Stmt}
    (known : ∀ expr, statement.expr? = some expr → ∀ name ∈ expr.reads, seen name) :
    Parallel seen (left.step statement) (right.step statement) := by
  have agree (expr : Expr) (own : statement.expr? = some expr) :
      ∀ name ∈ expr.reads, left.env.get? name = right.env.get? name :=
    fun name looked => agrees.env name (known expr own name looked)
  cases statement with
  | assign name value span =>
      have same := Expr.eval_eq_of_reads (agree value rfl)
      cases evaluated : value.eval right.env with
      | error failure =>
          rw [step_assign_error evaluated, step_assign_error (same.trans evaluated)]
          exact ⟨rfl, agrees⟩
      | ok result =>
          rw [step_assign evaluated, step_assign (same.trans evaluated)]
          exact ⟨rfl, (agrees.record _ _).bind name result⟩
  | print value span =>
      have same := Expr.eval_eq_of_reads (agree value rfl)
      cases evaluated : value.eval right.env with
      | error failure =>
          rw [step_print_error evaluated, step_print_error (same.trans evaluated)]
          exact ⟨rfl, agrees⟩
      | ok result =>
          rcases writes_or_closed right.room with ⟨next, written⟩ | full
          · have fits : Writes left.room next := agrees.room ▸ written
            rw [step_print evaluated written, step_print (same.trans evaluated) fits]
            exact ⟨rfl, agrees.printed _ _ _⟩
          · rw [step_print_closed evaluated full,
              step_print_closed (same.trans evaluated) (agrees.room.trans full)]
            exact ⟨rfl, agrees.record _ _⟩
  | ifThen condition body span =>
      exact Chooses.ifThen.parallel agrees (Expr.holds_eq_of_reads (agree condition rfl))
  | ifElse condition body otherwise span =>
      exact Chooses.ifElse.parallel agrees (Expr.holds_eq_of_reads (agree condition rfl))
  | whileDo condition body span =>
      exact Chooses.whileDo.parallel agrees (Expr.holds_eq_of_reads (agree condition rfl))
  | gap => exact ⟨rfl, agrees⟩

end RunState

open RunState

namespace Program

variable {program : Program} {seen : String → Prop}

/-- Runs from states that agree on all names that the program looks up stay in
lockstep. The induction is on the steps; what is left to execute is the same in both
runs and consists of nodes of the program. -/
theorem execute_parallel (known : ∀ name ∈ program.reads, seen name) (steps : Nat)
    {statements : List Stmt} {left right : RunState} (within : statements ⊆ program.statements)
    (agrees : Agrees seen left right) :
    (execute steps statements left).ending = (execute steps statements right).ending ∧
      Agrees seen (execute steps statements left).state
        (execute steps statements right).state := by
  induction steps generalizing statements left right with
  | zero => cases statements <;> exact ⟨rfl, agrees⟩
  | succ steps ih =>
      cases statements with
      | nil => exact ⟨rfl, agrees⟩
      | cons statement others =>
          obtain ⟨own, behind⟩ := List.cons_subset.mp within
          have looked (expr : Expr) (evaluated : statement.expr? = some expr) :
              ∀ name ∈ expr.reads, seen name :=
            fun name inside => known name (reads_subset own evaluated inside)
          obtain ⟨same, still⟩ := agrees.step looked
          have performed := right.performs_step statement
          rw [execute, execute]
          generalize left.step statement = first at same still ⊢
          generalize right.step statement = second at same still performed ⊢
          obtain ⟨result, first⟩ := first
          obtain ⟨failure | inserted, second⟩ := second
          · cases same
            exact ⟨rfl, still⟩
          · cases same
            have inside : inserted ⊆ program.statements := by
              apply List.Subset.trans performed.subset
              exact List.cons_subset.mpr ⟨own, inner_subset_statements own⟩
            exact ih (List.append_subset.mpr ⟨inside, behind⟩) still

/-- **A run depends only on what its program reads.** Take two environments that give
the same value, or none, to every name that a program looks up. With any limit on the
output and for any number of steps, the runs from both end alike or both go on, with
the same output, the same failure and the same records; and every name on which the
two environments agreed has the same value in both environments that are left. -/
theorem run_eq_of_reads {left right : Environment}
    (agree : ∀ name ∈ program.reads, left.get? name = right.get? name)
    (room : Option Nat) (steps : Nat) :
    (program.run left room steps).ending = (program.run right room steps).ending ∧
      (program.run left room steps).state.output = (program.run right room steps).state.output ∧
      (program.run left room steps).state.trace = (program.run right room steps).state.trace ∧
      ∀ name, left.get? name = right.get? name →
        (program.run left room steps).state.env.get? name =
          (program.run right room steps).state.env.get? name := by
  have start : Agrees (fun name => left.get? name = right.get? name)
      { env := left, room := room } { env := right, room := room } :=
    ⟨fun _ same => same, rfl, rfl, rfl⟩
  have within : (program : List Stmt) ⊆ program.statements :=
    fun statement => mem_statements_of_mem
  obtain ⟨ending, state⟩ := execute_parallel agree steps within start
  refine ⟨ending, ?_, ?_, state.env⟩
  · exact congrArg (fun lines => lines.reverse.flatten) state.lines
  · exact congrArg List.reverse state.records

/-- Binds a name on one of its paths only, never looks it up, and fails in a loop. -/
def pathMarker : Program :=
  [.ifThen (.variableRef "flag" {}) [.assign "mark" (.number 1 {}) {}] {},
    .whileDo (.variableRef "n" {})
      [.assign "n" (.binary (.variableRef "n" {}) .sub (.number 1 {}) {}) {},
        .print (.binary (.number 6 {}) .div (.variableRef "n" {}) {}) {}] {}]

/-- A program that does not look at one of its variables. -/
theorem pathMarker_run_eq_of_reads :
    let left : Environment := ⟨[("flag", .integer 0), ("n", .integer 3)]⟩
    let right : Environment :=
      ⟨[("flag", .integer 0), ("mark", .text (Bytes.ofString "old")), ("n", .integer 3)]⟩
    (∀ name ∈ pathMarker.reads, left.get? name = right.get? name) ∧
      left.get? "mark" ≠ right.get? "mark" ∧
      (pathMarker.run right none 12).ending = .failed (.runtime ⟨.divisionByZero, "", {}⟩) ∧
      (pathMarker.run left none 12).ending = (pathMarker.run right none 12).ending := by
  intro left right
  have agree : ∀ name ∈ pathMarker.reads, left.get? name = right.get? name := by decide +kernel
  refine ⟨agree, by decide, by decide +kernel, ?_⟩
  exact (run_eq_of_reads agree none 12).1

end Program

end Scriptlet
