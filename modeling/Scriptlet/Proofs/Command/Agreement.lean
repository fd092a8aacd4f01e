import Scriptlet.Proofs.Command.Stages
import Scriptlet.Proofs.Run.Cause
import Scriptlet.Proofs.Run.Interpretation

/-! # Agreement of the source commands

The four commands that are applied to a source fail together as long as they share their
stages. A parsed program is stopped only by an error that the language declares
(`Program.WellFormed.failure_cases`), so the exit status tells the kinds of failures
apart.
-/

namespace Scriptlet

/-- The outcome of a run tells how it ended. -/
theorem RunResult.ending_eq_of_outcome? {run : RunResult} {result : RunOutcome}
    (found : run.outcome? = some result) : run.ending = result.ending := by
  unfold outcome? at found
  split at found
  case h_3 => cases found
  all_goals
    rename_i ended
    cases found
    exact ended

namespace Program

variable {program : Program}

/-- A program that is well formed has no gaps. -/
theorem WellFormed.complete (wellFormed : program.WellFormed) : program.Complete := by
  obtain ⟨exprs, statements⟩ := everyIn_iff.mp wellFormed
  refine everyIn_iff.mpr ⟨?_, ?_⟩
  · rintro node member rfl
    exact exprs .gap member
  · rintro node member rfl
    exact statements .gap member

/-- A program that can be written down, run with no variables and all the room it needs,
is stopped only by errors that the language declares. -/
theorem WellFormed.failure_cases (wellFormed : program.WellFormed) {result : RunOutcome}
    (executed : ExecutesAll .empty none program result) :
    result.failure = none ∨ ∃ error, result.failure = some (.runtime error) := by
  cases failed : result.failure with
  | none => exact .inl rfl
  | some failure =>
      obtain ⟨writable, statementsWritable⟩ := everyIn_iff.mp wellFormed
      have complete : .gap ∉ program.statements := fun member => statementsWritable .gap member
      have within : (program : List Stmt) ⊆ program.statements :=
        fun statement => mem_statements_of_mem
      have start : RunState.Kept none { env := .empty } := ⟨fun _ _ => nofun, rfl⟩
      obtain ⟨count, ended⟩ := run_of_executesAll executed
      have ending := RunResult.ending_eq_of_outcome? (ended 0)
      rw [RunOutcome.ending, failed] at ending
      rcases @execute_induction program (RunState.Kept none)
          (fun _ _ _ _ member kept performed => kept.of_performs writable member performed)
          (count + 0) program _ within start with
        ⟨_, unfailed⟩ | ⟨before, statement, other, kept, member, stopped, performed⟩
      · exact absurd ending (unfailed failure)
      · cases ending.symm.trans stopped
        rcases kept.failure_cases writable complete member performed with
          ⟨_, limited⟩ | ⟨error, rfl, _⟩
        · cases limited
        · exact .inr ⟨error, rfl⟩

end Program

namespace Invocation

variable {files : FileTree} {input : Input} {options : Options} {path : String}
  {command : SourceCommand} {tokens : List Token} {program : Program} {settled : LogLevel}
  {log : List LogLine}

/-- The exit status for what a program leads to. -/
def status (result : RunOutcome) : Nat :=
  (result.failure.map fun failure => (CommandError.run failure).exitCode).getD 0

private theorem exists_of_runOutcome {trace : Bool} {run : RunResult} {outcome : Outcome}
    (ended : runOutcome files trace settled log run = some outcome) :
    ∃ result, run.outcome? = some result ∧ outcome.code = status result ∧
      outcome.output = result.output ∧ outcome.files = files := by
  unfold runOutcome at ended
  unfold RunResult.outcome?
  cases stopped : run.ending with
  | finished =>
      rw [stopped] at ended
      cases ended
      exact ⟨_, rfl, rfl, rfl, rfl⟩
  | failed failure =>
      rw [stopped] at ended
      cases ended
      exact ⟨_, rfl, rfl, rfl, rfl⟩
  | unfinished =>
      rw [stopped] at ended
      cases ended

private theorem exists_runOutcome {trace : Bool} {run : RunResult} {result : RunOutcome}
    (ended : run.outcome? = some result) :
    ∃ outcome, runOutcome files trace settled log run = some outcome := by
  unfold RunResult.outcome? at ended
  unfold runOutcome
  cases stopped : run.ending with
  | finished => exact ⟨_, rfl⟩
  | failed failure => exact ⟨_, rfl⟩
  | unfinished =>
      rw [stopped] at ended
      cases ended

/-- An invocation finds one source at most. -/
theorem Finds.unique {source other : SourceFile} (first : Finds files input options path source)
    (second : Finds files input options path other) : source = other := by
  obtain ⟨place, found, loaded⟩ := first.loaded
  obtain ⟨_, also, elsewhere⟩ := second.loaded
  cases found.symm.trans also
  cases loaded.symm.trans elsewhere
  rfl

/-- An invocation loads one program at most. -/
theorem Loads.unique {other : Program} (first : Loads files input options path program)
    (second : Loads files input options path other) : program = other := by
  obtain ⟨source, tokens, found, split, read⟩ := first
  obtain ⟨_, _, also, splitAgain, readAgain⟩ := second
  cases found.unique also
  cases split.symm.trans splitAgain
  cases read.symm.trans readAgain
  rfl

section

variable (files : FileTree) (input : Input) (options : Options) (path : String)

/-- What the program of the source leads to by the evaluation rules, with no variables at
the start and no limit on the output. -/
def Yields (result : RunOutcome) : Prop :=
  ∃ program, Loads files input options path program ∧ ExecutesAll .empty none program result

/-- How the four commands agree, whatever they are applied to. What each of them ends with
is given for any number of steps that a program may take. -/
structure Agreement (ends : SourceCommand → Nat → Option Outcome) : Prop where
  /-- The tokens are printed, or all commands end with the same failure, which is reported
  once. If they are printed, then the others end with the same error of the grammar, or
  only the run can fail. -/
  stages : ∃ outcome, (∀ steps, ends .tokens steps = some outcome) ∧
    (outcome.code ≠ 0 → outcome.output = [] ∧
      (∃ error : CommandError, outcome.errors = error.report options.trace) ∧
      ∀ command steps, ends command steps = some outcome) ∧
    (outcome.code = 0 →
      (∃ source tokens error log, Finds files input options path source ∧
        source.split = .ok tokens ∧ parse tokens = .error (.rejected error) ∧
        ∀ command, command ≠ .tokens → ∀ steps, ends command steps = some
          ⟨3, [], log ++ (CommandError.parse (.rejected error)).report options.trace, files⟩) ∨
      ((∀ command, command ≠ .run → ∃ printed : Outcome, printed.code = 0 ∧
          ∀ steps, ends command steps = some printed) ∧
        ∀ steps printed, ends .run steps = some printed → printed.code = 0 ∨ printed.code = 4))
  /-- The status is two exactly for a source with an error in its characters. -/
  lexical : ∀ command steps outcome, ends command steps = some outcome →
    (outcome.code = 2 ↔ ∃ source error, Finds files input options path source ∧
      source.split = .error (.lexical error))
  /-- The status is four exactly for a run that an error of the language stops. -/
  runtime : ∀ command steps outcome, ends command steps = some outcome →
    (outcome.code = 4 ↔ command = .run ∧ ∃ result error,
      Yields files input options path result ∧ result.failure = some (.runtime error))
  /-- A run prints what the rules say that the program prints, also before an error. -/
  output : ∀ steps outcome result, ends .run steps = some outcome →
    Yields files input options path result → outcome.output = result.output
  /-- A run ends if the rules lead to an end. -/
  ended : ∀ result, Yields files input options path result →
    ∃ steps outcome, ends .run steps = some outcome
  /-- No file is changed. -/
  unchanged : ∀ command steps outcome, ends command steps = some outcome → outcome.files = files

end

/-- A source that can be split has no error in its characters. -/
theorem Finds.not_garbled {source : SourceFile} (found : Finds files input options path source)
    (split : source.split = .ok tokens) :
    ¬ ∃ source error, Finds files input options path source ∧
      source.split = .error (.lexical error) := by
  rintro ⟨other, error, also, failed⟩
  cases found.unique also
  cases split.symm.trans failed

/-- A source that cannot be parsed loads no program. -/
theorem Finds.not_loads {source : SourceFile} (found : Finds files input options path source)
    (split : source.split = .ok tokens) {failure : ParseFailure}
    (failed : parse tokens = .error failure) : ¬ Loads files input options path program := by
  rintro ⟨other, more, also, splitAgain, read⟩
  cases found.unique also
  cases split.symm.trans splitAgain
  cases failed.symm.trans read

/-- A program that was loaded is well formed. -/
theorem Loads.wellFormed (loaded : Loads files input options path program) :
    program.WellFormed := by
  obtain ⟨source, tokens, _, split, read⟩ := loaded
  exact wellFormed_of_parse split read

/-- A program yields one outcome at most. -/
theorem Yields.unique {result other : RunOutcome} (first : Yields files input options path result)
    (second : Yields files input options path other) : result = other := by
  obtain ⟨program, loaded, executed⟩ := first
  obtain ⟨_, also, executedAgain⟩ := second
  cases loaded.unique also
  exact Program.executesAll_unique executed executedAgain

/-- A program that yields an outcome is finished or failed in its run. -/
theorem Yields.status_cases {result : RunOutcome}
    (yields : Yields files input options path result) :
    (status result = 0 ∧ result.failure = none) ∨
      (status result = 4 ∧ ∃ error, result.failure = some (.runtime error)) := by
  obtain ⟨program, loaded, executed⟩ := yields
  rcases loaded.wellFormed.failure_cases executed with free | ⟨error, failed⟩
  · left
    rw [status, free]
    exact ⟨rfl, rfl⟩
  · right
    rw [status, failed]
    exact ⟨rfl, error, rfl⟩

/-- A run that ends has done what the rules say. -/
theorem Loads.exists_yields (loaded : Loads files input options path program) {trace : Bool}
    {steps : Nat} {outcome : Outcome}
    (ended : runOutcome files trace settled log (program.run .empty none steps) = some outcome) :
    ∃ result, Yields files input options path result ∧ outcome.code = status result ∧
      outcome.output = result.output ∧ outcome.files = files := by
  obtain ⟨result, found, facts⟩ := exists_of_runOutcome ended
  exact ⟨result, ⟨program, loaded, Program.executesAll_of_run loaded.wellFormed.complete found⟩,
    facts⟩

variable (files input options path) in
/-- What one of the commands ends with. -/
inductive Closes (command : SourceCommand) (outcome : Outcome) : Prop
  | lost (nowhere : ∀ source, ¬ Finds files input options path source) (code : outcome.code = 1)
  | unsplit {source : SourceFile} {error : LexError}
      (found : Finds files input options path source)
      (failed : source.split = .error (.lexical error)) (code : outcome.code = 2)
  | unparsed {source : SourceFile} {tokens : List Token} {error : ParseError}
      (found : Finds files input options path source) (split : source.split = .ok tokens)
      (failed : parse tokens = .error (.rejected error))
      (code : outcome.code = 0 ∨ outcome.code = 3)
  | printed {program : Program} (loaded : Loads files input options path program)
      (idle : command ≠ .run) (code : outcome.code = 0)
  | ran {result : RunOutcome} (yields : Yields files input options path result)
      (busy : command = .run) (code : outcome.code = status result)

namespace Closes

variable {outcome : Outcome}

/-- The status is two for an error in the characters of the source, and only then. -/
theorem code_eq_two_iff (closes : Closes files input options path command outcome) :
    outcome.code = 2 ↔ ∃ source error, Finds files input options path source ∧
      source.split = .error (.lexical error) := by
  cases closes with
  | lost nowhere code =>
      refine iff_of_false (by omega) ?_
      rintro ⟨source, _, found, _⟩
      exact nowhere source found
  | unsplit found failed code => exact iff_of_true code ⟨_, _, found, failed⟩
  | unparsed found split failed code => exact iff_of_false (by omega) (found.not_garbled split)
  | printed loaded idle code =>
      obtain ⟨source, tokens, found, split, _⟩ := loaded
      exact iff_of_false (by omega) (found.not_garbled split)
  | ran yields busy code =>
      have status := yields.status_cases
      obtain ⟨program, ⟨source, tokens, found, split, _⟩, _⟩ := yields
      exact iff_of_false (by omega) (found.not_garbled split)

/-- The status is four for an error in the run of the program, and only then. -/
theorem code_eq_four_iff (closes : Closes files input options path command outcome) :
    outcome.code = 4 ↔ command = .run ∧ ∃ result error,
      Yields files input options path result ∧ result.failure = some (.runtime error) := by
  cases closes with
  | lost nowhere code =>
      refine iff_of_false (by omega) ?_
      rintro ⟨_, _, _, ⟨_, ⟨source, _, found, _⟩, _⟩, _⟩
      exact nowhere source found
  | unsplit found failed code =>
      refine iff_of_false (by omega) ?_
      rintro ⟨_, _, _, ⟨_, ⟨source, _, also, split, _⟩, _⟩, _⟩
      exact also.not_garbled split ⟨_, _, found, failed⟩
  | unparsed found split failed code =>
      refine iff_of_false (by omega) ?_
      rintro ⟨_, _, _, ⟨_, loaded, _⟩, _⟩
      exact found.not_loads split failed loaded
  | printed loaded idle code => exact iff_of_false (by omega) fun run => idle run.1
  | ran yields busy code =>
      rcases yields.status_cases with ⟨status, free⟩ | ⟨status, error, failed⟩
      · refine iff_of_false (by omega) ?_
        rintro ⟨_, other, error, also, failed⟩
        cases yields.unique also
        cases free.symm.trans failed
      · exact iff_of_true (code.trans status) ⟨busy, _, error, yields, failed⟩

end Closes

namespace Stage

variable {ends : SourceCommand → Nat → Option Outcome} {steps : Nat} {outcome : Outcome}

/-- Every stage closes as the commands at it do, and leaves the files alone. -/
theorem closes (stage : Stage files input options path ends)
    (ended : ends command steps = some outcome) :
    Closes files input options path command outcome ∧ outcome.files = files := by
  cases stage with
  | lost nowhere code alike =>
      cases (alike command steps).symm.trans ended
      exact ⟨.lost nowhere code, rfl⟩
  | unsplit found failed alike =>
      cases (alike command steps).symm.trans ended
      exact ⟨.unsplit found failed rfl, rfl⟩
  | unparsed found split failed printed alike =>
      by_cases first : command = .tokens
      · subst first
        cases (printed steps).symm.trans ended
        exact ⟨.unparsed found split failed (.inl rfl), rfl⟩
      · cases (alike command first steps).symm.trans ended
        exact ⟨.unparsed found split failed (.inr rfl), rfl⟩
  | parsed loaded printed run =>
      by_cases last : command = .run
      · subst last
        obtain ⟨result, yields, code, _, same⟩ :=
          loaded.exists_yields ((run steps).symm.trans ended)
        exact ⟨.ran yields rfl code, same⟩
      · obtain ⟨text, log, same⟩ := printed command last
        cases (same steps).symm.trans ended
        exact ⟨.printed loaded last rfl, rfl⟩

/-- A program that yields an outcome was parsed, and its run decides what is shown. -/
theorem parsed_of_yields (stage : Stage files input options path ends) {result : RunOutcome}
    (yields : Yields files input options path result) :
    ∃ program settled log, Loads files input options path program ∧ ∀ steps, ends .run steps =
      runOutcome files options.trace settled log (program.run .empty none steps) := by
  obtain ⟨program, loaded, _⟩ := yields
  have ⟨source, tokens, found, split, _⟩ := loaded
  cases stage with
  | lost nowhere code alike => exact absurd found (nowhere source)
  | unsplit also failed alike => exact absurd ⟨_, _, also, failed⟩ (found.not_garbled split)
  | unparsed also splitAgain failed printed alike =>
      exact absurd loaded (also.not_loads splitAgain failed)
  | parsed loaded printed run => exact ⟨_, _, _, loaded, run⟩

private theorem agreement (stage : Stage files input options path ends) :
    Agreement files input options path ends where
  stages := by
    cases stage with
    | lost nowhere code alike =>
        refine ⟨_, alike .tokens, fun _ => ⟨rfl, ⟨_, rfl⟩, alike⟩, ?_⟩
        intro zero
        cases code.symm.trans zero
    | unsplit found failed alike =>
        exact ⟨_, alike .tokens, fun _ => ⟨rfl, ⟨_, rfl⟩, alike⟩, nofun⟩
    | unparsed found split failed printed alike =>
        exact ⟨_, printed, fun code => absurd rfl code,
          fun _ => .inl ⟨_, _, _, _, found, split, failed, alike⟩⟩
    | parsed loaded printed run =>
        obtain ⟨text, log, same⟩ := printed .tokens nofun
        refine ⟨_, same, fun code => absurd rfl code, fun _ => .inr ⟨?_, ?_⟩⟩
        · intro command other
          obtain ⟨text, log, same⟩ := printed command other
          exact ⟨_, rfl, same⟩
        · intro steps outcome ended
          obtain ⟨result, yields, code, _⟩ :=
            loaded.exists_yields ((run steps).symm.trans ended)
          rw [code]
          exact yields.status_cases.imp And.left And.left
  lexical _ _ _ ended := (stage.closes ended).1.code_eq_two_iff
  runtime _ _ _ ended := (stage.closes ended).1.code_eq_four_iff
  output := by
    intro steps outcome result ended yields
    obtain ⟨program, _, _, loaded, run⟩ := stage.parsed_of_yields yields
    obtain ⟨other, also, _, output, _⟩ := loaded.exists_yields ((run steps).symm.trans ended)
    cases yields.unique also
    exact output
  ended := by
    intro result yields
    obtain ⟨program, _, _, loaded, run⟩ := stage.parsed_of_yields yields
    obtain ⟨_, also, executed⟩ := yields
    cases loaded.unique also
    obtain ⟨count, ended⟩ := Program.run_of_executesAll executed
    obtain ⟨outcome, found⟩ := exists_runOutcome (ended 0)
    exact ⟨_, outcome, (run _).trans found⟩
  unchanged _ _ _ ended := (stage.closes ended).2

end Stage

end Invocation

open Invocation

/-- **The source commands agree.** Take four command lines that are understood as the four
commands with the same options and the same choice of a source. For every file tree and
every standard input, they agree in the sense of `Agreement`: a failure that keeps the
tokens from being printed ends all four with the same outcome and no output; otherwise the
other three end with the same error of the grammar, status three and no output, or all
succeed but for errors of the running program, which have status four. Status two is that
of a source with an error in its characters. -/
theorem invoke_sources_agree {line : SourceCommand → List String} {options : Options}
    {path : String}
    (understood : ∀ command, ofArguments (line command) = .ok ⟨options, .source command path⟩)
    (files : FileTree) (input : Input) :
    Agreement files input options path fun command steps =>
      invoke steps files input (line command) := by
  have carried : (fun command steps => invoke steps files input (line command)) =
      fun command steps => carryOut steps files input ⟨options, .source command path⟩ := by
    funext command steps
    exact invoke_of_ok (understood command)
  rw [carried]
  exact (stage files input options path).agreement

/-- Command lines for the same source, with the same option. -/
def quietLine : SourceCommand → List String
  | .run => ["--log-level=c", "run", "a.peri"]
  | .tokens => ["-log-level", "c", "tokens", "a.peri"]
  | .ast => ["--log-level", "c", "--", "ast", "a.peri"]
  | .fmt => ["-log-level=c", "fmt", "--", "a.peri"]

/-- A source with a program that prints and then divides by zero. -/
def failingSource : FileTree :=
  ⟨[(["a.peri"], .file (Bytes.ofString "print 1; print 1 / 0;"))]⟩

/-- A program that prints and fails, under all commands. -/
theorem failingSource_invoke_sources_agree :
    (∀ command, ofArguments (quietLine command) =
        .ok ⟨{ logLevel := "c" }, .source command "a.peri"⟩) ∧
      (invoke 2 failingSource { bytes := [] } (quietLine .run)).map (·.code) = some 4 ∧
      Agreement failingSource { bytes := [] } { logLevel := "c" } "a.peri" fun command steps =>
        invoke steps failingSource { bytes := [] } (quietLine command) := by
  have understood (command : SourceCommand) : ofArguments (quietLine command) =
      .ok ⟨{ logLevel := "c" }, .source command "a.peri"⟩ := by
    cases command <;> rfl
  refine ⟨understood, by decide +kernel, ?_⟩
  exact invoke_sources_agree understood failingSource { bytes := [] }

end Scriptlet
