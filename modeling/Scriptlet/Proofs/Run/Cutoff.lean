import Scriptlet.Proofs.Run.Output

/-! # Runs with less room for output

A run that may write fewer lines goes in lockstep with one that may write more, up to
the first print that it has no room for. There it ends, in the environment that the
other run has at that moment (`execute_limited`). The other run may end later, or
never.
-/

namespace Scriptlet

namespace RunState

/-- The state with room for some number of lines. -/
def limited (state : RunState) (room : Nat) : RunState :=
  { state with room := some room }

/-- The state when a line was refused, with the records made up to then. -/
def refused (state : RunState) (records : List TraceRecord) : RunState :=
  { state with records := records, room := some 0 }

/-- How a step with room for some number of lines compares with the same step with
more room: they do the same without a print, or both print, or the line of the first is
refused. -/
inductive Trails (state : RunState) : Nat → Except RunFailure (List Stmt) × RunState →
    Except RunFailure (List Stmt) × RunState → Prop
  | silent {few : Nat} {result : Except RunFailure (List Stmt)} {next : RunState}
      (same : next.printedValues = state.printedValues) (room : next.room = state.room) :
      Trails state few (result, next) (result, next.limited few)
  | prints {few : Nat} {next : RunState} {value : Value}
      (one : next.printedValues = state.printedValues ++ [value])
      (written : Writes state.room next.room) :
      Trails state (few + 1) (.ok [], next) (.ok [], next.limited few)
  | refused {result : Except RunFailure (List Stmt)} {next : RunState} {value : Value}
      (one : next.printedValues = state.printedValues ++ [value]) :
      Trails state 0 (result, next) (.error .outputClosed, state.refused next.records)

/-- A choice does not depend on how many lines the output takes. -/
theorem Chooses.trails {statement : Stmt} {condition : Expr} {body otherwise : List Stmt}
    (chooses : Chooses statement condition body otherwise) (state : RunState) (few : Nat) :
    state.Trails few (state.step statement) ((state.limited few).step statement) := by
  cases tested : condition.holds state.env with
  | error failure =>
      have testedBelow : condition.holds (state.limited few).env = .error failure := tested
      rw [step_undecided chooses tested, step_undecided chooses testedBelow]
      exact .silent rfl rfl
  | ok holds =>
      have testedBelow : condition.holds (state.limited few).env = .ok holds := tested
      cases holds with
      | true =>
          rw [step_chosen chooses tested, step_chosen chooses testedBelow]
          exact .silent rfl rfl
      | false =>
          rw [step_declined chooses tested, step_declined chooses testedBelow]
          exact .silent rfl rfl

/-- The step of `execute_limited`. -/
theorem trails_step {state : RunState} {few : Nat} (fits : ∀ limit ∈ state.room, few ≤ limit)
    (statement : Stmt) :
    state.Trails few (state.step statement) ((state.limited few).step statement) := by
  cases statement with
  | assign name value span =>
      cases evaluated : value.eval state.env with
      | error failure =>
          have evaluatedBelow : value.eval (state.limited few).env = .error failure := evaluated
          rw [step_assign_error evaluated, step_assign_error evaluatedBelow]
          exact .silent rfl rfl
      | ok result =>
          have evaluatedBelow : value.eval (state.limited few).env = .ok result := evaluated
          rw [step_assign evaluated, step_assign evaluatedBelow]
          refine .silent ?_ rfl
          rw [printedValues_bind, printedValues_record]
          exact List.append_nil _
  | print value span =>
      cases evaluated : value.eval state.env with
      | error failure =>
          have evaluatedBelow : value.eval (state.limited few).env = .error failure := evaluated
          rw [step_print_error evaluated, step_print_error evaluatedBelow]
          exact .silent rfl rfl
      | ok result =>
          have evaluatedBelow : value.eval (state.limited few).env = .ok result := evaluated
          rcases writes_or_closed state.room with ⟨next, written⟩ | full
          · rw [step_print evaluated written]
            have one := state.printedValues_printed span.start result next
            cases few with
            | zero =>
                rw [step_print_closed evaluatedBelow rfl]
                exact .refused one
            | succ few =>
                rw [step_print evaluatedBelow .limited]
                exact .prints one written
          · -- A full output leaves no more room to the run with less.
            obtain rfl : few = 0 := Nat.le_zero.mp (fits 0 full)
            rw [step_print_closed evaluated full, step_print_closed evaluatedBelow rfl]
            exact .refused (state.printedValues_record span.start (.printed result))
  | ifThen condition body span => exact Chooses.ifThen.trails state few
  | ifElse condition body otherwise span => exact Chooses.ifElse.trails state few
  | whileDo condition body span => exact Chooses.whileDo.trails state few
  | gap => exact .silent rfl rfl

end RunState

open RunState

/-- A line that is written leaves room for one line less. -/
theorem Writes.fits {room next : Option Nat} (written : Writes room next) {few : Nat}
    (fits : ∀ limit ∈ room, few + 1 ≤ limit) : ∀ limit ∈ next, few ≤ limit := by
  cases written with
  | unlimited => exact fun limit absent => nomatch absent
  | @limited room =>
      intro limit left
      cases left
      exact Nat.le_of_succ_le_succ (fits (room + 1) rfl)

/-- After some number of steps a run comes to a print, the first that some number of
prints stand before, and a run with room for that many lines ends there. -/
structure CutAt (few steps : Nat) (statements : List Stmt) (state : RunState) (before : Nat) :
    Prop where
  early : before < steps
  going : (execute before statements state).ending = .unfinished
  count : (execute before statements state).state.printedValues.length =
    state.printedValues.length + few
  next : (execute (before + 1) statements state).state.printedValues.length =
    state.printedValues.length + few + 1
  cut : execute steps statements (state.limited few) =
    ⟨(execute before statements state).state.refused
      (execute (before + 1) statements state).state.records, .failed .outputClosed⟩

/-- A run without room ends at its first print. -/
theorem cutAt_zero {statement : Stmt} {state next : RunState} {value : Value}
    {result : Except RunFailure (List Stmt)} (stepped : state.step statement = (result, next))
    (one : next.printedValues = state.printedValues ++ [value])
    (below : (state.limited 0).step statement =
      (.error .outputClosed, state.refused next.records)) (steps : Nat) (others : List Stmt) :
    CutAt 0 (steps + 1) (statement :: others) state 0 := by
  have reached : (execute 1 (statement :: others) state).state = next := by
    rw [execute, stepped]
    cases result with
    | error failure => rfl
    | ok inserted => exact execute_zero_state (inserted ++ others) next
  have ended : execute (steps + 1) (statement :: others) (state.limited 0) =
      ⟨state.refused next.records, .failed .outputClosed⟩ := by
    rw [execute, below]
  refine ⟨Nat.succ_pos steps, rfl, rfl, ?_, ?_⟩
  · rw [reached, one, List.length_append]
    rfl
  · rw [reached]
    exact ended

/-- The first statement of a run was executed before the print, and perhaps
printed. -/
theorem CutAt.cons {few fewer steps : Nat} {statement : Stmt} {inserted others : List Stmt}
    {state next : RunState} {before : Nat}
    (behind : CutAt fewer steps (inserted ++ others) next before)
    (stepped : state.step statement = (.ok inserted, next))
    (below : (state.limited few).step statement = (.ok inserted, next.limited fewer))
    (printed : next.printedValues.length + fewer = state.printedValues.length + few) :
    CutAt few (steps + 1) (statement :: others) state (before + 1) := by
  have moved (count : Nat) : execute (count + 1) (statement :: others) state =
      execute count (inserted ++ others) next := by
    rw [execute, stepped]
  refine ⟨Nat.succ_lt_succ behind.early, ?_, ?_, ?_, ?_⟩
  · rw [moved]
    exact behind.going
  · rw [moved, behind.count, printed]
  · rw [moved, behind.next, printed]
  · rw [moved, moved, ← behind.cut, execute, below]

/-- **Runs with less room.** Compare a run with one that has less room. Either there
were no more prints than the second one has room for, and it did the same, or it ended
at the first print that it had no room for. The induction is on the steps. -/
theorem execute_limited {few : Nat} {state : RunState} (fits : ∀ limit ∈ state.room, few ≤ limit)
    (steps : Nat) (statements : List Stmt) :
    ((execute steps statements state).state.printedValues.length ≤
          state.printedValues.length + few ∧
        ∃ left, execute steps statements (state.limited few) =
          ⟨(execute steps statements state).state.limited left,
            (execute steps statements state).ending⟩) ∨
      ∃ before, CutAt few steps statements state before := by
  induction steps generalizing few state statements with
  | zero =>
      left
      cases statements <;> exact ⟨Nat.le_add_right _ _, few, rfl⟩
  | succ steps ih =>
      cases statements with
      | nil => exact .inl ⟨Nat.le_add_right _ _, few, rfl⟩
      | cons statement others =>
          have trails := trails_step fits statement
          generalize stepped : state.step statement = whole at trails
          generalize below : (state.limited few).step statement = part at trails
          cases trails with
          | @silent _ result next same room =>
              cases result with
              | error failure =>
                  left
                  rw [execute, execute, stepped, below, same]
                  exact ⟨Nat.le_add_right _ _, few, rfl⟩
              | ok inserted =>
                  have fitsBehind : ∀ limit ∈ next.room, few ≤ limit := room ▸ fits
                  rcases ih fitsBehind (inserted ++ others) with
                    ⟨count, left, equal⟩ | ⟨before, cut⟩
                  · left
                    rw [same] at count
                    rw [execute, execute, stepped, below]
                    exact ⟨count, left, equal⟩
                  · exact .inr ⟨before + 1, cut.cons stepped below (by rw [same])⟩
          | @prints few next value one written =>
              have length : next.printedValues.length = state.printedValues.length + 1 := by
                rw [one, List.length_append]
                rfl
              rcases ih (written.fits fits) ([] ++ others) with ⟨count, left, equal⟩ | ⟨before, cut⟩
              · left
                rw [length, Nat.add_assoc, Nat.add_comm 1 few] at count
                rw [execute, execute, stepped, below]
                exact ⟨count, left, equal⟩
              · refine .inr ⟨before + 1, cut.cons stepped below ?_⟩
                rw [length, Nat.add_assoc, Nat.add_comm 1 few]
          | refused one => exact .inr ⟨0, cutAt_zero stepped one below steps others⟩

namespace Program

/-- After some number of steps a run comes to a print, and so many prints were reached
before it. -/
structure PrintsNext (program : Program) (env : Environment) (room : Option Nat)
    (count before : Nat) : Prop where
  behind : (program.run env room before).state.printedValues.length = count
  next : (program.run env room (before + 1)).state.printedValues.length = count + 1

variable {program : Program} {env : Environment} {room : Option Nat} {count before steps : Nat}

/-- A run that is cut short was about to print. -/
theorem PrintsNext.of_cutAt (cut : CutAt count steps program { env := env, room := room } before) :
    program.PrintsNext env room count before where
  behind := cut.count.trans (Nat.zero_add count)
  next := cut.next.trans (congrArg (· + 1) (Nat.zero_add count))

/-- A run that goes on behind a print has computed its value. -/
theorem PrintsNext.lt_length (printing : program.PrintsNext env room count before)
    (early : before < steps) : count < (program.run env room steps).state.printedValues.length := by
  have grown : (program.run env room (before + 1)).state.printedValues.length ≤
      (program.run env room steps).state.printedValues.length :=
    (printedValues_grow (Nat.succ_le_of_lt early) program { env := env, room := room }).length_le
  rw [printing.next] at grown
  exact grown

/-- What was printed before is the start of all that is printed. -/
theorem PrintsNext.printedValues_eq_take (printing : program.PrintsNext env room count before)
    (early : before < steps) :
    (program.run env room before).state.printedValues =
      (program.run env room steps).state.printedValues.take count := by
  have initial : (program.run env room before).state.printedValues <+:
      (program.run env room steps).state.printedValues :=
    printedValues_grow (Nat.le_of_lt early) program _
  have first := List.prefix_iff_eq_take.mp initial
  rwa [printing.behind] at first

/-- **A full output only cuts a run short.** Run a program with room for few lines, and
with room for as many or more, or without limit. As long as the second run has computed
the values of no more than few prints, both have done the same and stand or end alike.
Once it has computed one more, whether it ends or not, the first run has ended because
its output is full: it has written the text of the first few prints of the other run,
and left the environment that the other run had when it came to the next print. -/
theorem run_cut_short {few : Nat} {many : Option Nat} (fewer : ∀ limit ∈ many, few ≤ limit)
    (program : Program) (env : Environment) (steps : Nat) :
    ((program.run env many steps).state.printedValues.length ≤ few →
      (program.run env (some few) steps).ending = (program.run env many steps).ending ∧
      (program.run env (some few) steps).state.output =
        (program.run env many steps).state.output ∧
      (program.run env (some few) steps).state.env = (program.run env many steps).state.env ∧
      (program.run env (some few) steps).state.trace =
        (program.run env many steps).state.trace) ∧
    (few < (program.run env many steps).state.printedValues.length →
      (program.run env (some few) steps).ending = .failed .outputClosed ∧
      (program.run env (some few) steps).state.output =
        ((program.run env many steps).state.printedValues.take few).flatMap Value.line ∧
      (program.run env (some few) steps).state.output <+:
        (program.run env many steps).state.output ∧
      ∃ before < steps, program.PrintsNext env many few before ∧
        (program.run env (some few) steps).state.env =
          (program.run env many before).state.env) := by
  rcases @execute_limited few { env := env, room := many } fewer steps program with
    ⟨count, left, equal⟩ | ⟨before, reached⟩
  · have same : program.run env (some few) steps = _ := equal
    rw [same]
    constructor
    · intro _
      exact ⟨rfl, rfl, rfl, rfl⟩
    · intro beyond
      have bound : (program.run env many steps).state.printedValues.length ≤ 0 + few := count
      omega
  · have same : program.run env (some few) steps = _ := reached.cut
    have printing := PrintsNext.of_cutAt reached
    rw [same]
    constructor
    · intro bound
      exact absurd (printing.lt_length reached.early) (Nat.not_lt.mpr bound)
    · intro _
      have unfailed (failure : RunFailure) :
          (program.run env many before).ending ≠ .failed failure := by
        intro failed
        cases reached.going.symm.trans failed
      refine ⟨rfl, ?_, ?_, before, reached.early, printing, rfl⟩
      · rw [← printing.printedValues_eq_take reached.early]
        exact output_eq_flatMap unfailed
      · exact (execute_grows (Nat.le_of_lt reached.early) program { env := env, room := many }).2

/-- Prints the numbers from one on without end. -/
def counting : Program :=
  [.whileDo (.number 1 {})
    [.assign "n" (.binary (.variableRef "n" {}) .add (.number 1 {}) {}) {},
      .print (.variableRef "n" {}) {}] {}]

/-- A loop that prints, with an output that takes a few lines. -/
theorem counting_run_cut_short :
    let env : Environment := ⟨[("n", .integer 0)]⟩
    (∀ limit ∈ (none : Option Nat), 2 ≤ limit) ∧
      (counting.run env none 14).ending = .unfinished ∧
      (counting.run env none 14).state.output = Bytes.ofString "1\n2\n3\n4\n" ∧
      (counting.run env (some 2) 14).ending = .failed .outputClosed ∧
      (counting.run env (some 2) 14).state.output <+: (counting.run env none 14).state.output ∧
      ∃ before < 14, counting.PrintsNext env none 2 before ∧
        (counting.run env (some 2) 14).state.env = (counting.run env none before).state.env := by
  intro env
  have fewer : ∀ limit ∈ (none : Option Nat), 2 ≤ limit := by
    intro limit absent
    cases absent
  have more : 2 < (counting.run env none 14).state.printedValues.length := by decide +kernel
  obtain ⟨closed, _, initial, moment⟩ := (run_cut_short fewer counting env 14).2 more
  exact ⟨fewer, by decide +kernel, by decide +kernel, closed, initial, moment⟩

end Program

end Scriptlet
