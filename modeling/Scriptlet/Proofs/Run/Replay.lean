import Mathlib.Data.List.Forall2
import Scriptlet.Command.Invocation
import Scriptlet.Proofs.Run.Step

/-! # The records of a run

By the evaluation rules a program goes on statement by statement: an assignment binds its
value, a print shows it, and a branch or a loop gives way to the statements that its
condition selects. The assignments and prints on the way are the deeds of the course that
the program takes (`Course`).

A run with an output that takes every line makes one record for each deed, in the same
order and at the place of its statement (`execute_course`). Replaying the records leads to
the environment and the output that the run has (`RunState.Replayed`), so the record is
complete at every moment, and also when a statement fails.
-/

namespace Scriptlet

open RunState (Chooses)

/-! ## The course of a program -/

/-- An assignment or a print that was executed, and the value that it bound or printed. -/
structure Deed where
  statement : Stmt
  value : Value

/-- How a program gets over a statement in an environment: what is done, the environment
behind it, and the statements that take its place. -/
inductive Proceeds (env : Environment) : Stmt → List Deed → Environment → List Stmt → Prop
  | assign {name : String} {value : Expr} {span : Span} {result : Value}
      (evaluated : Evaluates env value (.ok result)) :
      Proceeds env (.assign name value span) [⟨.assign name value span, result⟩]
        (env.set name result) []
  | print {value : Expr} {span : Span} {result : Value}
      (evaluated : Evaluates env value (.ok result)) :
      Proceeds env (.print value span) [⟨.print value span, result⟩] env []
  | chosen {statement : Stmt} {condition : Expr} {body otherwise : List Stmt}
      (chooses : Chooses statement condition body otherwise)
      (tested : Tests env condition (.ok true)) : Proceeds env statement [] env body
  | declined {statement : Stmt} {condition : Expr} {body otherwise : List Stmt}
      (chooses : Chooses statement condition body otherwise)
      (tested : Tests env condition (.ok false)) : Proceeds env statement [] env otherwise

/-- Why a program does not get over a statement in an environment: what the statement
evaluates fails, or its condition cannot be decided. -/
inductive Halts (env : Environment) : Stmt → RunFailure → Prop
  | failed {statement : Stmt} {expr : Expr} {failure : RunFailure}
      (own : statement.expr? = some expr) (evaluated : Evaluates env expr (.error failure)) :
      Halts env statement failure
  | undecided {statement : Stmt} {condition : Expr} {failure : RunFailure}
      (own : statement.condition? = some condition)
      (tested : Tests env condition (.error failure)) : Halts env statement failure

/-- The course of a program over some number of statements, from an environment to another:
what is done on the way, and the statements that are left. -/
inductive Course : Nat → Environment → List Stmt → List Deed → Environment → List Stmt → Prop
  | here {env : Environment} {statements : List Stmt} : Course 0 env statements [] env statements
  | onward {count : Nat} {env middle last : Environment} {statement : Stmt}
      {inserted others left : List Stmt} {deeds more : List Deed}
      (proceeds : Proceeds env statement deeds middle inserted)
      (rest : Course count middle (inserted ++ others) more last left) :
      Course (count + 1) env (statement :: others) (deeds ++ more) last left

/-- How a run of at most some number of steps ends behind a course: no statement is left,
or the next one halts, or the steps are used up. -/
inductive Concludes (steps count : Nat) (env : Environment) : List Stmt → Ending → Prop
  | finished : Concludes steps count env [] .finished
  | failed {statement : Stmt} {others : List Stmt} {failure : RunFailure}
      (halts : Halts env statement failure) :
      Concludes steps count env (statement :: others) (.failed failure)
  | unfinished {statement : Stmt} {others : List Stmt} (used : count = steps) :
      Concludes steps count env (statement :: others) .unfinished

/-- One more step in front, of which one more may be taken. -/
theorem Concludes.succ {steps count : Nat} {env : Environment} {left : List Stmt}
    {ending : Ending} (concludes : Concludes steps count env left ending) :
    Concludes (steps + 1) (count + 1) env left ending := by
  cases concludes with
  | finished => exact .finished
  | failed halts => exact .failed halts
  | unfinished used => exact .unfinished (congrArg (· + 1) used)

/-! ## Records -/

/-- The record of a deed: the place where its statement starts, and what was done. -/
inductive Deed.Recorded : Deed → TraceRecord → Prop
  | assign {name : String} {expr : Expr} {span : Span} {value : Value} :
      Recorded ⟨.assign name expr span, value⟩ ⟨span.start, .assigned name value⟩
  | print {expr : Expr} {span : Span} {value : Value} :
      Recorded ⟨.print expr span, value⟩ ⟨span.start, .printed value⟩

/-- What the log tells of a deed: the place where its statement starts, the name that was bound or
the word for a print, and the value. -/
inductive Deed.Told : Deed → Bytes → Prop
  | assign {name : String} {expr : Expr} {span : Span} {value : Value} :
      Told ⟨.assign name expr span, value⟩
        (Bytes.ofString (span.start.describe ++ ": " ++ name ++ " = ") ++ value.display)
  | print {expr : Expr} {span : Span} {value : Value} :
      Told ⟨.print expr span, value⟩
        (Bytes.ofString (span.start.describe ++ ": print ") ++ value.display)

namespace TraceRecord

/-- Does again what a record tells: binds the name to the value, or writes the text of the
value and a newline. -/
def redo (reached : Environment × Bytes) (record : TraceRecord) : Environment × Bytes :=
  match record.action with
  | .assigned name value => (reached.1.set name value, reached.2)
  | .printed value => (reached.1, reached.2 ++ value.display ++ Bytes.ofString "\n")

/-- The environment and the output that records lead to from nothing. -/
def replay (records : List TraceRecord) : Environment × Bytes :=
  records.foldl redo (.empty, [])

/-- The last record is replayed last. -/
theorem replay_concat (records : List TraceRecord) (record : TraceRecord) :
    replay (records ++ [record]) = redo (replay records) record := by
  rw [replay, List.foldl_concat]
  rfl

end TraceRecord

namespace RunState

@[simp]
theorem trace_record (state : RunState) (position : Position) (action : Action) :
    (state.record position action).trace = state.trace ++ [⟨position, action⟩] :=
  List.reverse_cons

@[simp]
theorem trace_bind (state : RunState) (name : String) (value : Value) :
    (state.bind name value).trace = state.trace :=
  rfl

@[simp]
theorem trace_printed (state : RunState) (position : Position) (value : Value)
    (room : Option Nat) :
    (state.printed position value room).trace = state.trace ++ [⟨position, .printed value⟩] :=
  state.trace_record position (.printed value)

variable {state next : RunState} {statement : Stmt} {inserted : List Stmt} {failure : RunFailure}

/-- An output that takes every line goes on doing so. -/
theorem Performs.room_eq_none (performed : state.Performs statement (.ok inserted, next))
    (unlimited : state.room = none) : next.room = none := by
  cases performed with
  | binds evaluated => exact unlimited
  | prints evaluated written =>
      rw [unlimited] at written
      cases written
      rfl
  | chosen chooses tested => exact unlimited
  | declined chooses tested => exact unlimited

/-- A state that its records lead to, with an output that takes every line. -/
structure Replayed (state : RunState) : Prop where
  unlimited : state.room = none
  replay_eq : TraceRecord.replay state.trace = (state.env, state.output)

/-- A step that succeeds keeps the record complete. -/
theorem Replayed.of_performs (replayed : state.Replayed)
    (performed : state.Performs statement (.ok inserted, next)) : next.Replayed := by
  refine ⟨performed.room_eq_none replayed.unlimited, ?_⟩
  cases performed with
  | @binds name value span result evaluated =>
      rw [trace_bind, trace_record, TraceRecord.replay_concat, replayed.replay_eq]
      rfl
  | prints evaluated written =>
      rw [trace_printed, TraceRecord.replay_concat, replayed.replay_eq, output_printed,
        ← List.append_assoc]
      rfl
  | chosen chooses tested => exact replayed.replay_eq
  | declined chooses tested => exact replayed.replay_eq

/-- A statement that fails does nothing if the output takes every line. -/
theorem Performs.eq_of_error (unlimited : state.room = none)
    (performed : state.Performs statement (.error failure, next)) : next = state := by
  cases performed with
  | closed evaluated full => cases unlimited.symm.trans full
  | failed own evaluated => rfl
  | undecided own evaluated other => rfl
  | missing => rfl

/-- The records of a run lead to where the run is. -/
theorem replayed_run (program : Program) (steps : Nat) :
    (program.run .empty none steps).state.Replayed := by
  have within : (program : List Stmt) ⊆ program.statements :=
    fun statement => Program.mem_statements_of_mem
  have keeps (state : RunState) (statement : Stmt) (inserted : List Stmt) (next : RunState)
      (_ : statement ∈ program.statements) (replayed : state.Replayed)
      (performed : state.Performs statement (.ok inserted, next)) : next.Replayed :=
    replayed.of_performs performed
  have start : Replayed { env := .empty, room := none } := ⟨rfl, rfl⟩
  rcases @Program.execute_induction program Replayed keeps steps program _ within start with
    ⟨replayed, _⟩ | ⟨before, statement, failure, replayed, _, _, performed⟩
  · exact replayed
  · have same : (program.run .empty none steps).state = before :=
      performed.eq_of_error replayed.unlimited
    rw [same]
    exact replayed

/-! ## Runs follow the course -/

/-- A step gets over a statement as the rules say, with a record for each deed. -/
theorem Performs.proceeds (performed : state.Performs statement (.ok inserted, next))
    (complete : statement.Every (· ≠ .gap) (· ≠ .gap)) :
    ∃ deeds records, Proceeds state.env statement deeds next.env inserted ∧
      List.Forall₂ Deed.Recorded deeds records ∧ next.trace = state.trace ++ records := by
  have whole := (Stmt.every_iff_inner.mp complete).1.2
  cases performed with
  | @binds name value span result evaluated =>
      have derived := (Expr.evaluates_iff (whole value rfl)).mpr evaluated
      refine ⟨_, _, .assign derived, .cons .assign .nil, ?_⟩
      rw [trace_bind, trace_record]
  | @prints value span result room evaluated written =>
      have derived := (Expr.evaluates_iff (whole value rfl)).mpr evaluated
      exact ⟨_, _, .print derived, .cons .print .nil, trace_printed _ _ _ _⟩
  | chosen chooses tested =>
      have derived := (Expr.tests_iff (chooses.complete complete).1).mpr tested
      exact ⟨[], [], .chosen chooses derived, .nil, (List.append_nil _).symm⟩
  | declined chooses tested =>
      have derived := (Expr.tests_iff (chooses.complete complete).1).mpr tested
      exact ⟨[], [], .declined chooses derived, .nil, (List.append_nil _).symm⟩

/-- Statements that take the place of one without gaps have none. -/
theorem Performs.complete (performed : state.Performs statement (.ok inserted, next))
    (complete : statement.Every (· ≠ .gap) (· ≠ .gap)) : Program.Complete inserted := by
  cases performed with
  | binds evaluated => trivial
  | prints evaluated written => trivial
  | chosen chooses tested => exact (chooses.complete complete).2.1
  | declined chooses tested => exact (chooses.complete complete).2.2

/-- A step fails for the reason that the rules give. -/
theorem Performs.halts (performed : state.Performs statement (.error failure, next))
    (complete : statement.Every (· ≠ .gap) (· ≠ .gap)) (unlimited : state.room = none) :
    Halts state.env statement failure := by
  obtain ⟨present, whole⟩ := (Stmt.every_iff_inner.mp complete).1
  cases performed with
  | closed evaluated full => cases unlimited.symm.trans full
  | @failed statement expr failure own evaluated =>
      exact .failed own ((Expr.evaluates_iff (whole expr own)).mpr evaluated)
  | @undecided statement condition value own evaluated other =>
      have derived :=
        (Expr.evaluates_iff (whole condition (Stmt.expr?_of_condition? own))).mpr evaluated
      refine .undecided own (.mismatch derived ?_)
      rintro ⟨number, same⟩
      exact other number same
  | missing => exact absurd rfl present

end RunState

/-- **A run takes the course of its program.** The induction is on the steps; the statements
left at each of them have no gaps. -/
theorem execute_course {statements : List Stmt} (complete : Program.Complete statements)
    (state : RunState) (unlimited : state.room = none) (steps : Nat) :
    ∃ count deeds left records,
      Course count state.env statements deeds (execute steps statements state).state.env left ∧
      Concludes steps count (execute steps statements state).state.env left
        (execute steps statements state).ending ∧
      List.Forall₂ Deed.Recorded deeds records ∧
      (execute steps statements state).state.trace = state.trace ++ records := by
  induction steps generalizing statements state with
  | zero =>
      refine ⟨0, [], statements, [], ?_⟩
      cases statements with
      | nil => exact ⟨.here, .finished, .nil, (List.append_nil _).symm⟩
      | cons statement others => exact ⟨.here, .unfinished rfl, .nil, (List.append_nil _).symm⟩
  | succ steps ih =>
      cases statements with
      | nil => exact ⟨0, [], [], [], .here, .finished, .nil, (List.append_nil _).symm⟩
      | cons statement others =>
          have performed := state.performs_step statement
          rw [execute]
          rcases stepped : state.step statement with ⟨failure | inserted, next⟩
          · rw [stepped] at performed
            have halts := performed.halts complete.1 unlimited
            cases performed.eq_of_error unlimited
            exact ⟨0, [], _, [], .here, .failed halts, .nil, (List.append_nil _).symm⟩
          · rw [stepped] at performed
            obtain ⟨deeds, made, proceeds, recorded, traced⟩ := performed.proceeds complete.1
            have inner := performed.complete complete.1
            have remaining : Program.Complete (inserted ++ others) :=
              Stmt.everyIn_append_iff.mpr ⟨inner, complete.2⟩
            obtain ⟨count, more, left, records, course, concludes, later, continued⟩ :=
              ih remaining next (performed.room_eq_none unlimited)
            refine ⟨count + 1, deeds ++ more, left, made ++ records, .onward proceeds course,
              concludes.succ, List.rel_append recorded later, ?_⟩
            rw [continued, traced, List.append_assoc]

/-- The lines of the log that tell what a run did, one for each record. -/
theorem Invocation.filter_runLog (run : RunResult) :
    (Invocation.runLog run).filter (·.level = .trace) =
      run.state.trace.map Invocation.recordLine := by
  have kept : (run.state.trace.map Invocation.recordLine).filter (·.level = .trace) =
      run.state.trace.map Invocation.recordLine := by
    simp [Invocation.recordLine]
  unfold Invocation.runLog
  cases run.ending with
  | finished => rw [List.filter_append, kept]; exact List.append_nil _
  | failed failure => exact kept
  | unfinished => exact kept

/-- The line for a recorded deed reads what is told of the deed, behind the level and the part that
reports. A value that ends its line by itself ends the line of the log. -/
theorem Deed.Recorded.told {deed : Deed} {record : TraceRecord} (recorded : deed.Recorded record) :
    ∃ text, deed.Told text ∧ (Invocation.recordLine record).render =
      Bytes.ofString "T | interpreter: " ++ text ++
        if (Bytes.ofString "\n").isSuffixOf text then [] else Bytes.ofString "\n" := by
  have told (text : Bytes) (same : record.message = text) :
      (Invocation.recordLine record).render = Bytes.ofString "T | interpreter: " ++ text ++
        if (Bytes.ofString "\n").isSuffixOf text then [] else Bytes.ofString "\n" := by
    rw [← same]
    rfl
  cases recorded with
  | assign => exact ⟨_, .assign, told _ (by simp [TraceRecord.message, Bytes.ofString])⟩
  | print => exact ⟨_, .print, told _ (by simp [TraceRecord.message, Bytes.ofString])⟩

namespace Program

/-- **The trace is a faithful record.** Take a program without gaps, run from the empty
environment with an output that takes every line, for any number of steps. By the rules the
program takes a course that ends as the run does. The records of the run are, in order, one
for each assignment and each print of the course, with the place where the statement starts
and its value; each of them has its line in the log, which reads this place, the name or the
word for a print, and the value. Replaying the records gives the environment and the output of
the run, whether it is finished, has failed or goes on. -/
theorem run_trace_faithful {program : Program} (complete : program.Complete) (steps : Nat) :
    let run := program.run .empty none steps
    (∃ count deeds left, Course count .empty program deeds run.state.env left ∧
      Concludes steps count run.state.env left run.ending ∧
      List.Forall₂ Deed.Recorded deeds run.state.trace ∧
      List.Forall₂ (fun deed line => ∃ text, deed.Told text ∧
          line = Bytes.ofString "T | interpreter: " ++ text ++
            if (Bytes.ofString "\n").isSuffixOf text then [] else Bytes.ofString "\n")
        deeds (((Invocation.runLog run).filter (·.level = .trace)).map LogLine.render)) ∧
    (Invocation.runLog run).filter (·.level = .trace) =
      run.state.trace.map Invocation.recordLine ∧
    TraceRecord.replay run.state.trace = (run.state.env, run.state.output) := by
  intro run
  refine ⟨?_, Invocation.filter_runLog run, (RunState.replayed_run program steps).replay_eq⟩
  obtain ⟨count, deeds, left, records, course, concludes, recorded, traced⟩ :=
    execute_course complete { env := .empty, room := none } rfl steps
  have same : run.state.trace = records := traced
  rw [← same] at recorded
  refine ⟨count, deeds, left, course, concludes, recorded, ?_⟩
  rw [Invocation.filter_runLog, List.map_map, List.forall₂_map_right_iff]
  exact recorded.imp fun _ _ each => each.told

/-- A span that starts at a line. -/
def lineSpan (line : Int) : Span :=
  .point { line := line, column := 1 }

/-- Shares six among fewer and fewer, and at last among none. -/
def sharing : Program :=
  [.assign "n" (.number 2 {}) (lineSpan 1),
    .whileDo (.variableRef "n" {})
      [.print (.binary (.number 6 {}) .div (.variableRef "n" {}) {}) (lineSpan 3),
        .assign "n" (.binary (.variableRef "n" {}) .sub (.number 1 {}) {}) (lineSpan 4)]
      (lineSpan 2),
    .print (.binary (.number 6 {}) .div (.variableRef "n" {}) {}) (lineSpan 6)]

/-- The records of a run that ends with a division by zero. -/
theorem sharing_run_trace_faithful :
    sharing.Complete ∧
      (sharing.run .empty none 20).ending = .failed (.runtime ⟨.divisionByZero, "", {}⟩) ∧
      (sharing.run .empty none 20).state.trace.map (·.position.line) = [1, 3, 4, 3, 4] ∧
      TraceRecord.replay (sharing.run .empty none 20).state.trace =
        (⟨[("n", .integer 0)]⟩, Bytes.ofString "3\n6\n") := by
  have complete : sharing.Complete := by
    simp [Complete, sharing, Stmt.EveryIn, Stmt.Every, Expr.Every]
  refine ⟨complete, by decide +kernel, by decide +kernel, ?_⟩
  rw [(run_trace_faithful complete 20).2.2]
  decide +kernel

end Program

end Scriptlet
