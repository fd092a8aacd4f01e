import Scriptlet.Proofs.Run.Relocation
import Scriptlet.Proofs.Syntax.Language
import Scriptlet.Proofs.Token.Joining

/-! # Programs run in pieces

A run of statements that do not come to their end never reaches the statements
behind them; from statements that do, the run goes on with the others
(`execute_append_of_finished`). What it does then does not depend on what was
printed and recorded before (`execute_above`). So a source that is joined from two
with a gap between them is parsed as both programs one behind the other, and runs
as one and then the other (`run_joined`).
-/

namespace Scriptlet

open Grammar

/-! ## Statements behind others -/

/-- Statements that do not come to their end keep the run from those behind
them. -/
theorem execute_append_of_ne_finished {steps : Nat} {left : List Stmt} {state : RunState}
    (stuck : (execute steps left state).ending ≠ .finished) (right : List Stmt) :
    execute steps (left ++ right) state = execute steps left state := by
  induction steps generalizing left state with
  | zero =>
      cases left with
      | nil => exact absurd rfl stuck
      | cons statement others => rfl
  | succ steps ih =>
      cases left with
      | nil => exact absurd rfl stuck
      | cons statement others =>
          rw [execute] at stuck
          rw [List.cons_append, execute, execute]
          rcases stepped : state.step statement with ⟨failure | inserted, next⟩
          · rfl
          · rw [stepped] at stuck
            have behind := ih stuck
            rw [List.append_assoc] at behind
            exact behind

/-- Behind statements that come to their end, the run goes on with those behind
them. -/
theorem execute_append_of_finished {steps : Nat} {left : List Stmt} {state : RunState}
    (finished : (execute steps left state).ending = .finished) :
    ∃ used ≤ steps, ∀ right more, execute (used + more) (left ++ right) state =
      execute more right (execute steps left state).state := by
  induction steps generalizing left state with
  | zero =>
      cases left with
      | nil => exact ⟨0, Nat.le_refl 0, fun right more => by rw [Nat.zero_add]; rfl⟩
      | cons statement others => cases finished
  | succ steps ih =>
      cases left with
      | nil => exact ⟨0, Nat.zero_le _, fun right more => by rw [Nat.zero_add]; rfl⟩
      | cons statement others =>
          rw [execute] at finished ⊢
          rcases stepped : state.step statement with ⟨failure | inserted, next⟩
          · rw [stepped] at finished
            cases finished
          · rw [stepped] at finished
            obtain ⟨used, enough, continued⟩ := ih finished
            refine ⟨used + 1, Nat.succ_le_succ enough, ?_⟩
            intro right more
            have behind := continued right more
            rw [List.append_assoc] at behind
            rw [Nat.add_right_comm, List.cons_append, execute, stepped]
            exact behind

/-! ## What was printed and recorded before -/

/-- The state with what was printed and recorded in an earlier one. -/
def RunState.above (state earlier : RunState) : RunState :=
  { state with
    lines := state.lines ++ earlier.lines
    records := state.records ++ earlier.records }

def RunResult.above (result : RunResult) (earlier : RunState) : RunResult :=
  { result with state := result.state.above earlier }

namespace RunState

/-- The environment is that of the later state. -/
theorem env_above (state earlier : RunState) : (state.above earlier).env = state.env :=
  rfl

/-- The output of the earlier state comes first. -/
theorem output_above (state earlier : RunState) :
    (state.above earlier).output = earlier.output ++ state.output := by
  simp [output, above]

/-- The records of the earlier state come first. -/
theorem trace_above (state earlier : RunState) :
    (state.above earlier).trace = earlier.trace ++ state.trace := by
  simp [trace, above]

private theorem record_above (state earlier : RunState) (position : Position) (action : Action) :
    (state.record position action).above earlier = (state.above earlier).record position action :=
  rfl

private theorem write_above (state earlier : RunState) (line : Bytes) :
    (state.above earlier).write line = (state.write line).map (·.above earlier) := by
  obtain ⟨env, lines, records, room⟩ := state
  cases room with
  | none => rfl
  | some room => cases room <;> rfl

private theorem step_above (state earlier : RunState) (statement : Stmt) :
    (state.above earlier).step statement =
      ((state.step statement).1, (state.step statement).2.above earlier) := by
  cases statement with
  | assign name value span =>
      simp only [step, env_above]
      cases value.eval state.env <;> rfl
  | print value span =>
      simp only [step, env_above]
      cases value.eval state.env with
      | error failure => rfl
      | ok result =>
          simp only [← record_above, write_above]
          cases (state.record span.start (.printed result)).write
              (result.display ++ Bytes.ofString "\n") <;> rfl
  | ifThen condition body span =>
      simp only [step, env_above]
      cases condition.holds state.env with
      | error failure => rfl
      | ok holds => cases holds <;> rfl
  | ifElse condition body otherwise span =>
      simp only [step, env_above]
      cases condition.holds state.env with
      | error failure => rfl
      | ok holds => cases holds <;> rfl
  | whileDo condition body span =>
      simp only [step, env_above]
      cases condition.holds state.env with
      | error failure => rfl
      | ok holds => cases holds <;> rfl
  | gap => rfl

end RunState

/-- A run only adds to what was printed and recorded before it. -/
theorem execute_above (steps : Nat) (statements : List Stmt) (state earlier : RunState) :
    execute steps statements (state.above earlier) =
      (execute steps statements state).above earlier := by
  induction steps generalizing statements state with
  | zero => cases statements <;> rfl
  | succ steps ih =>
      cases statements with
      | nil => rfl
      | cons statement others =>
          rw [execute, execute, RunState.step_above]
          rcases state.step statement with ⟨failure | inserted, next⟩
          · rfl
          · exact ih (inserted ++ others) next

/-! ## Joined sources -/

/-- What is accepted has tokens and a program. -/
theorem exists_of_isSome {input : Input} {file : String}
    (accepted : ((tokenize input file).toOption.bind
      fun tokens => (parse tokens).toOption).isSome) :
    ∃ tokens program, tokenize input file = .ok tokens ∧ parse tokens = .ok program := by
  cases split : tokenize input file with
  | error failure =>
      rw [split] at accepted
      exact nomatch accepted
  | ok tokens =>
      rw [split] at accepted
      cases read : parse tokens with
      | error failure =>
          simp only [Except.toOption, Option.bind_some, read] at accepted
          exact nomatch accepted
      | ok program => exact ⟨tokens, program, rfl, read⟩

/-- Joined sources are parsed as both programs, of which the second is shifted. -/
theorem parse_joined {first second : Bytes} {file : String} {gap : Gap}
    (nonempty : gap.text ≠ "") {left right : List Token} {before behind : Program}
    (splitFirst : tokenize { bytes := first } file = .ok left)
    (readFirst : parse left = .ok before)
    (splitSecond : tokenize { bytes := second } file = .ok right)
    (readSecond : parse right = .ok behind) :
    ∃ tokens, tokenize { bytes := first ++ (Bytes.ofString gap.text ++ second) } file = .ok tokens ∧
      parse tokens = .ok (before ++
        Stmt.relocateAll (Position.shift (first ++ Bytes.ofString gap.text)) behind) := by
  have joined := tokenize_joined nonempty splitFirst second
  simp only [splitSecond, Except.map, Except.mapError] at joined
  refine ⟨_, joined, ?_⟩
  obtain ⟨rightEnd, rightSplit, ended⟩ := exists_eq_append_of_tokenize splitSecond
  have derived := (parse_eq_ok_iff.mp readFirst).append
    ((parse_eq_ok_iff.mp readSecond).relocate
      (Position.shift (first ++ Bytes.ofString gap.text)))
  refine parse_of_derives ?_
  rw [rightSplit, List.map_append, ← List.append_assoc,
    Token.beforeEnd_append derived.kind_ne_endOfInput
      (fun last first => by cases first; exact ended)]
  exact derived

/-- The result of a run that comes to its end in a state and then goes on with a
program behind a text, of which the result by itself is given. -/
structure RunResult.Continues (whole : RunResult) (done : RunState) (text : Bytes)
    (rest : RunResult) : Prop where
  output : whole.state.output = done.output ++ rest.state.output
  env : whole.state.env = rest.state.env
  room : whole.state.room = rest.state.room
  trace : whole.state.trace =
    done.trace ++ rest.state.trace.map (TraceRecord.relocate (Position.shift text))
  /-- A failure names the shifted place. -/
  ending : whole.ending = rest.ending.relocate (Position.shift text)

/-- A shifted program behind a state does what the program does by itself. -/
theorem execute_relocateAll_continues (steps : Nat) (program : Program) (done : RunState)
    (text : Bytes) :
    (execute steps (Stmt.relocateAll (Position.shift text) program) done).Continues done text
      (program.run done.env done.room steps) := by
  have moved := execute_relocate (Position.shift text) steps program
    { env := done.env, room := done.room }
  have raised := execute_above steps (Stmt.relocateAll (Position.shift text) program)
    { env := done.env, room := done.room } done
  have same : execute steps (Stmt.relocateAll (Position.shift text) program) done =
      ((program.run done.env done.room steps).relocate (Position.shift text)).above done := by
    rw [Program.run, ← moved]
    exact raised
  rw [same]
  refine ⟨RunState.output_above _ _, rfl, rfl, ?_, rfl⟩
  rw [← RunState.trace_relocate]
  exact RunState.trace_above _ _

/-- **Running in pieces.** Two sources that are accepted under a file name are
accepted joined with a gap between them. For every environment and every limit on
the output, the joined program runs like the first one as long as that has not
come to its end, its failures included; and when it has, the joined program goes
on like the second one in the environment and with the room that are left. -/
theorem run_joined {first second : Bytes} {file : String} {gap : Gap} {left right : List Token}
    {before behind : Program} (nonempty : gap.text ≠ "")
    (splitFirst : tokenize { bytes := first } file = .ok left)
    (readFirst : parse left = .ok before)
    (splitSecond : tokenize { bytes := second } file = .ok right)
    (readSecond : parse right = .ok behind) :
    ∃ tokens program,
      tokenize { bytes := first ++ (Bytes.ofString gap.text ++ second) } file = .ok tokens ∧
      parse tokens = .ok program ∧
      ∀ env room steps,
        ((before.run env room steps).ending ≠ .finished →
          program.run env room steps = before.run env room steps) ∧
        ((before.run env room steps).ending = .finished → ∃ used ≤ steps, ∀ more,
          (program.run env room (used + more)).Continues (before.run env room steps).state
            (first ++ Bytes.ofString gap.text)
            (behind.run (before.run env room steps).state.env
              (before.run env room steps).state.room more)) := by
  obtain ⟨tokens, split, read⟩ :=
    parse_joined nonempty splitFirst readFirst splitSecond readSecond
  refine ⟨tokens, _, split, read, ?_⟩
  intro env room steps
  constructor
  · intro stuck
    exact execute_append_of_ne_finished stuck _
  · intro finished
    obtain ⟨used, enough, continued⟩ := execute_append_of_finished finished
    refine ⟨used, enough, ?_⟩
    intro more
    rw [Program.run, continued]
    exact execute_relocateAll_continues more behind _ _

/-- An assignment, and a branch at its end that an `else` could follow. -/
def openBranch : Bytes :=
  Bytes.ofString ("x = 2; if (x) " ++ inBraces " print x; ")

/-- Divides by zero where the branch has been run before. -/
def divisionBehind : Bytes :=
  Bytes.ofString "print 1 / (x - 2);"

/-- A program that ends with a branch, in front of another one. -/
theorem openBranch_run_joined :
    ∃ left right before behind, tokenize { bytes := openBranch } "main.peri" = .ok left ∧
      parse left = .ok before ∧ tokenize { bytes := divisionBehind } "main.peri" = .ok right ∧
      parse right = .ok behind ∧
      ∃ tokens program,
        tokenize { bytes := openBranch ++ (Bytes.ofString "\n\t" ++ divisionBehind) }
          "main.peri" = .ok tokens ∧
        parse tokens = .ok program ∧
        ∀ env room steps,
          ((Program.run before env room steps).ending ≠ .finished →
            Program.run program env room steps = Program.run before env room steps) ∧
          ((Program.run before env room steps).ending = .finished → ∃ used ≤ steps, ∀ more,
            (Program.run program env room (used + more)).Continues
              (Program.run before env room steps).state (openBranch ++ Bytes.ofString "\n\t")
              (Program.run behind (Program.run before env room steps).state.env
                (Program.run before env room steps).state.room more)) := by
  obtain ⟨left, before, splitFirst, readFirst⟩ :=
    @exists_of_isSome { bytes := openBranch } "main.peri" (by decide +kernel)
  obtain ⟨right, behind, splitSecond, readSecond⟩ :=
    @exists_of_isSome { bytes := divisionBehind } "main.peri" (by decide +kernel)
  have blank : ∀ char ∈ "\n\t".toList, Lexical.isBlank char := List.all_eq_true.mp rfl
  have nonempty : "\n\t" ≠ "" := by decide
  exact ⟨left, right, before, behind, splitFirst, readFirst, splitSecond, readSecond,
    @run_joined _ _ _ ⟨"\n\t", blank⟩ _ _ _ _ nonempty splitFirst readFirst splitSecond
      readSecond⟩

end Scriptlet
