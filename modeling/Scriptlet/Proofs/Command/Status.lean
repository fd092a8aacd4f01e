import Scriptlet.Proofs.Command.Agreement
import Scriptlet.Proofs.Command.Init

/-! # Exit statuses

What can go wrong in an invocation is of one of a few kinds, which are told apart by what
raised them (`Invocation.Raises`). The exit status is that of the kind, and zero if nothing
went wrong. All mistakes in the use of the program, in its files and in its configuration
share one status but for one: a command that does not exist has the status of an error in
the grammar of a source (`Invocation.Fault.status`, `invoke_status`).
-/

namespace Scriptlet

namespace Invocation

/-- The kinds of things that go wrong. -/
inductive Fault where
  /-- The options cannot be read, or something is not given. -/
  | usage
  /-- There is no such command. -/
  | unknownCommand
  /-- The manifest or the log level is refused. -/
  | configuration
  /-- A source cannot be read, or a manifest cannot be written. -/
  | files
  /-- An error in the characters of a source. -/
  | lexical
  /-- An error in the grammar of a source. -/
  | grammar
  /-- An error in the run of a source. -/
  | runtime
deriving DecidableEq

/-- The exit status for a kind of faults. -/
def Fault.status : Fault → Nat
  | .usage | .configuration | .files => 1
  | .lexical => 2
  | .grammar | .unknownCommand => 3
  | .runtime => 4

/-- The kind of fault that a command line raises, and what raises it. -/
inductive Raises (files : FileTree) (input : Input) (arguments : List String) : Fault → Prop
  | misused {mistake : UsageError} (misread : ofArguments arguments = .error mistake) :
      Raises files input arguments .usage
  | unsettled {invocation : Invocation} {error : CommandError}
      (understood : ofArguments arguments = .ok invocation)
      (refused : level files invocation.options = .error error) :
      Raises files input arguments .configuration
  | unknown {options : Options} {name : String} {settled : LogLevel}
      (understood : ofArguments arguments = .ok ⟨options, .unknown name⟩)
      (known : level files options = .ok settled) : Raises files input arguments .unknownCommand
  | nameless {options : Options} {settled : LogLevel}
      (understood : ofArguments arguments = .ok ⟨options, .init ""⟩)
      (known : level files options = .ok settled) : Raises files input arguments .usage
  | unwritten {options : Options} {name : String} {settled : LogLevel} {error : FileError}
      (understood : ofArguments arguments = .ok ⟨options, .init name⟩)
      (known : level files options = .ok settled) (named : name ≠ "")
      (refused : files.write options.manifest (Manifest.initial name).write = .error error) :
      Raises files input arguments .files
  | sourceless {options : Options} {command : SourceCommand} {settled : LogLevel}
      (understood : ofArguments arguments = .ok ⟨options, .source command ""⟩)
      (known : level files options = .ok settled)
      (silent : ∀ manifest, findManifest files options.manifest = .ok (some manifest) →
        manifest.entry = "")
      (readable : ∀ error, findManifest files options.manifest ≠ .error error) :
      Raises files input arguments .usage
  | unmanifested {options : Options} {command : SourceCommand} {settled : LogLevel}
      {error : CommandError}
      (understood : ofArguments arguments = .ok ⟨options, .source command ""⟩)
      (known : level files options = .ok settled)
      (refused : findManifest files options.manifest = .error error) :
      Raises files input arguments .configuration
  | unread {options : Options} {command : SourceCommand} {path place : String}
      {settled : LogLevel} {error : SourceError}
      (understood : ofArguments arguments = .ok ⟨options, .source command path⟩)
      (known : level files options = .ok settled)
      (found : sourcePath files options path = .ok place)
      (missing : SourceFile.load files input place = .error error) :
      Raises files input arguments .files
  | garbled {options : Options} {command : SourceCommand} {path : String} {source : SourceFile}
      {error : LexError}
      (understood : ofArguments arguments = .ok ⟨options, .source command path⟩)
      (found : Finds files input options path source)
      (failed : source.split = .error (.lexical error)) : Raises files input arguments .lexical
  | unparsed {options : Options} {command : SourceCommand} {path : String} {source : SourceFile}
      {tokens : List Token} {error : ParseError}
      (understood : ofArguments arguments = .ok ⟨options, .source command path⟩)
      (later : command ≠ .tokens) (found : Finds files input options path source)
      (split : source.split = .ok tokens) (failed : parse tokens = .error (.rejected error)) :
      Raises files input arguments .grammar
  | stopped {options : Options} {path : String} {result : RunOutcome} {error : RuntimeError}
      (understood : ofArguments arguments = .ok ⟨options, .source .run path⟩)
      (yields : Yields files input options path result)
      (failed : result.failure = some (.runtime error)) : Raises files input arguments .runtime

variable {files : FileTree} {input : Input} {arguments : List String} {options : Options}
  {command : SourceCommand} {path place name : String} {settled : LogLevel} {steps : Nat}
  {outcome : Outcome} {fault : Fault}

/-! ## Every fault has its status -/

/-- The status of a command that cannot be prepared is that of the error. -/
theorem code_of_job_error {invocation : Invocation} {error : CommandError}
    (known : level files invocation.options = .ok settled)
    (failed : (job files input invocation).result = .error error)
    (ended : invocation.carryOut steps files input = some outcome) :
    outcome.code = error.exitCode := by
  cases (carryOut_of_job_error known failed).symm.trans ended
  rfl

/-- There is no source if none is given and the manifest names none. -/
theorem exists_sourcePath_error_iff :
    (∃ error, sourcePath files options path = .error error) ↔
      path = "" ∧ ∀ manifest, findManifest files options.manifest = .ok (some manifest) →
        manifest.entry = "" := by
  by_cases given : path = ""
  · subst given
    rw [sourcePath, if_neg (by simp)]
    cases found : findManifest files options.manifest with
    | error error => simp [bind, Except.bind]
    | ok manifest =>
        cases manifest with
        | none => simp [bind, Except.bind]
        | some manifest =>
            by_cases silent : manifest.entry = ""
            · simp [bind, Except.bind, silent]
            · simp [bind, Except.bind, silent, pure, Except.pure]
  · rw [sourcePath_of_ne given]
    simp [given]

/-- Without a path and an entry the status is one. -/
theorem code_of_silent (known : level files options = .ok settled)
    (silent : ∀ manifest, findManifest files options.manifest = .ok (some manifest) →
      manifest.entry = "")
    (ended : carryOut steps files input ⟨options, .source command ""⟩ = some outcome) :
    outcome.code = 1 := by
  obtain ⟨error, lost⟩ := exists_sourcePath_error_iff.mpr ⟨rfl, silent⟩
  have failed : (job files input ⟨options, .source command ""⟩).result = .error error := by
    rw [job_source_of_error lost]
  rw [code_of_job_error known failed ended]
  exact exitCode_of_sourcePath lost

private theorem code_of_unparsed {source : SourceFile} {tokens : List Token} {error : ParseError}
    (later : command ≠ .tokens) (found : Finds files input options path source)
    (split : source.split = .ok tokens) (failed : parse tokens = .error (.rejected error))
    (ended : carryOut steps files input ⟨options, .source command path⟩ = some outcome) :
    outcome.code = 3 := by
  cases stage files input options path with
  | lost nowhere code alike => exact absurd found (nowhere source)
  | unsplit also garbled alike => exact absurd ⟨_, _, also, garbled⟩ (found.not_garbled split)
  | unparsed also splitAgain refused printed alike =>
      cases (alike command later steps).symm.trans ended
      rfl
  | parsed loaded printed run => exact absurd loaded (found.not_loads split failed)

/-- **A fault that is raised decides the status.** -/
theorem Raises.code_eq (raised : Raises files input arguments fault)
    (ended : invoke steps files input arguments = some outcome) :
    outcome.code = fault.status := by
  cases raised with
  | misused misread =>
      cases (invoke_of_error misread).symm.trans ended
      rfl
  | unsettled understood refused =>
      rw [invoke_of_ok understood] at ended
      cases (carryOut_of_level_error refused).symm.trans ended
      exact exitCode_of_level refused
  | unknown understood known =>
      rw [invoke_of_ok understood] at ended
      exact code_of_job_error known rfl ended
  | nameless understood known =>
      rw [invoke_of_ok understood] at ended
      exact code_of_job_error known rfl ended
  | @unwritten options name _ error understood known named refused =>
      rw [invoke_of_ok understood] at ended
      have failed : (job files input ⟨options, .init name⟩).result =
          .error (.notWritten options.manifest error) := by
        simp [job, initJob, named, refused]
      exact code_of_job_error known failed ended
  | sourceless understood known silent readable =>
      rw [invoke_of_ok understood] at ended
      exact code_of_silent known silent ended
  | unmanifested understood known refused =>
      rw [invoke_of_ok understood] at ended
      refine code_of_silent known (fun manifest found => ?_) ended
      cases refused.symm.trans found
  | @unread options command path place _ error understood known found missing =>
      rw [invoke_of_ok understood] at ended
      have failed : (job files input ⟨options, .source command path⟩).result =
          .error (.source error) := by
        rw [job_source found, sourceJob_of_loadTokens_error (loadTokens_of_load_error missing)]
      exact code_of_job_error known failed ended
  | garbled understood found failed =>
      rw [invoke_of_ok understood] at ended
      exact ((stage _ _ _ _).closes ended).1.code_eq_two_iff.mpr ⟨_, _, found, failed⟩
  | unparsed understood later found split failed =>
      rw [invoke_of_ok understood] at ended
      exact code_of_unparsed later found split failed ended
  | stopped understood yields failed =>
      rw [invoke_of_ok understood] at ended
      exact ((stage _ _ _ _).closes ended).1.code_eq_four_iff.mpr ⟨rfl, _, _, yields, failed⟩

/-! ## Every other status is that of a fault -/

private theorem exists_raises_of_lost {error : CommandError}
    (understood : ofArguments arguments = .ok ⟨options, .source command path⟩)
    (known : level files options = .ok settled)
    (lost : sourcePath files options path = .error error) :
    ∃ fault, Raises files input arguments fault := by
  obtain ⟨rfl, silent⟩ := exists_sourcePath_error_iff.mp ⟨error, lost⟩
  cases found : findManifest files options.manifest with
  | error cause => exact ⟨_, .unmanifested understood known found⟩
  | ok manifest =>
      refine ⟨_, .sourceless understood known silent fun error refused => ?_⟩
      cases found.symm.trans refused

private theorem raises_of_source (understood : ofArguments arguments = .ok ⟨options, .source command path⟩)
    (known : level files options = .ok settled)
    (ended : carryOut steps files input ⟨options, .source command path⟩ = some outcome) :
    outcome.code = 0 ∨ ∃ fault, Raises files input arguments fault := by
  cases stage files input options path with
  | lost nowhere code alike =>
      right
      cases found : sourcePath files options path with
      | error error => exact exists_raises_of_lost understood known found
      | ok place =>
          cases loaded : SourceFile.load files input place with
          | error error => exact ⟨_, .unread understood known found loaded⟩
          | ok source => exact absurd ⟨⟨settled, known⟩, place, found, loaded⟩ (nowhere source)
  | unsplit found failed alike => exact .inr ⟨_, .garbled understood found failed⟩
  | unparsed found split failed printed alike =>
      by_cases first : command = .tokens
      · subst first
        cases (printed steps).symm.trans ended
        exact .inl rfl
      · exact .inr ⟨_, .unparsed understood first found split failed⟩
  | parsed loaded printed run =>
      by_cases last : command = .run
      · subst last
        obtain ⟨result, yields, code, _⟩ := loaded.exists_yields ((run steps).symm.trans ended)
        rcases yields.status_cases with ⟨success, _⟩ | ⟨_, error, failed⟩
        · exact .inl (code.trans success)
        · exact .inr ⟨_, .stopped understood yields failed⟩
      · obtain ⟨text, log, same⟩ := printed command last
        cases (same steps).symm.trans ended
        exact .inl rfl

/-- An invocation that does not succeed has raised a fault. -/
theorem raises_of_ended (ended : invoke steps files input arguments = some outcome) :
    outcome.code = 0 ∨ ∃ fault, Raises files input arguments fault := by
  cases understood : ofArguments arguments with
  | error mistake => exact .inr ⟨_, .misused understood⟩
  | ok invocation =>
      rw [invoke_of_ok understood] at ended
      obtain ⟨options, command⟩ := invocation
      cases known : level files options with
      | error error => exact .inr ⟨_, .unsettled understood known⟩
      | ok settled =>
          cases command with
          | help =>
              cases (carryOut_of_print known rfl).symm.trans ended
              exact .inl rfl
          | unknown name => exact .inr ⟨_, .unknown understood known⟩
          | source command path => exact raises_of_source understood known ended
          | init name =>
              by_cases named : name = ""
              · subst named
                exact .inr ⟨_, .nameless understood known⟩
              · cases written : files.write options.manifest (Manifest.initial name).write with
                | error error => exact .inr ⟨_, .unwritten understood known named written⟩
                | ok changed =>
                    have prepared : (job files input ⟨options, .init name⟩).result =
                        .ok (.store changed) := by
                      simp [job, initJob, named, written, Logged.note]
                    cases (carryOut_of_store known prepared).symm.trans ended
                    exact .inl rfl

/-- A status other than zero is that of a fault that was raised. -/
theorem code_eq_iff (ended : invoke steps files input arguments = some outcome) {status : Nat}
    (positive : status ≠ 0) :
    outcome.code = status ↔ ∃ fault, Raises files input arguments fault ∧ fault.status = status := by
  constructor
  · rintro rfl
    obtain ⟨fault, raised⟩ := (raises_of_ended ended).resolve_left positive
    exact ⟨fault, raised, (raised.code_eq ended).symm⟩
  · rintro ⟨fault, raised, rfl⟩
    exact raised.code_eq ended

private theorem code_eq_zero_iff (ended : invoke steps files input arguments = some outcome) :
    outcome.code = 0 ↔ ∀ fault, ¬ Raises files input arguments fault := by
  constructor
  · intro success fault raised
    have status := (raised.code_eq ended).symm.trans success
    cases fault <;> cases status
  · intro quiet
    refine (raises_of_ended ended).resolve_right ?_
    rintro ⟨fault, raised⟩
    exact quiet fault raised

end Invocation

open Invocation

/-- **Exit statuses.** A command line that ends has the status of the fault that it raises,
or zero if it raises none. So the status is two exactly for an error in the characters of a
source, four exactly for an error in its run, and one exactly for a fault of usage,
configuration or files, with one exception: an unknown command has status three, like an
error in the grammar of a source. -/
theorem invoke_status {steps : Nat} {files : FileTree} {input : Input} {arguments : List String}
    {outcome : Outcome} (ended : invoke steps files input arguments = some outcome) :
    (outcome.code = 1 ↔ Raises files input arguments .usage ∨
      Raises files input arguments .configuration ∨ Raises files input arguments .files) ∧
    (outcome.code = 2 ↔ Raises files input arguments .lexical) ∧
    (outcome.code = 3 ↔ Raises files input arguments .grammar ∨
      Raises files input arguments .unknownCommand) ∧
    (outcome.code = 4 ↔ Raises files input arguments .runtime) ∧
    (outcome.code = 0 ↔ ∀ fault, ¬ Raises files input arguments fault) := by
  refine ⟨(code_eq_iff ended (by decide)).trans ⟨?_, ?_⟩,
    (code_eq_iff ended (by decide)).trans ⟨?_, fun raised => ⟨_, raised, rfl⟩⟩,
    (code_eq_iff ended (by decide)).trans ⟨?_, ?_⟩,
    (code_eq_iff ended (by decide)).trans ⟨?_, fun raised => ⟨_, raised, rfl⟩⟩,
    code_eq_zero_iff ended⟩
  · rintro ⟨fault, raised, status⟩
    cases fault <;> simp_all [Fault.status]
  · rintro (raised | raised | raised) <;> exact ⟨_, raised, rfl⟩
  · rintro ⟨fault, raised, status⟩
    cases fault <;> simp_all [Fault.status]
  · rintro ⟨fault, raised, status⟩
    cases fault <;> simp_all [Fault.status]
  · rintro (raised | raised) <;> exact ⟨_, raised, rfl⟩
  · rintro ⟨fault, raised, status⟩
    cases fault <;> simp_all [Fault.status]

/-- A program that prints and then divides by zero. -/
theorem failingSource_invoke_status :
    ∃ outcome, invoke 2 failingSource { bytes := [] } (quietLine .run) = some outcome ∧
      outcome.code = 4 ∧ Raises failingSource { bytes := [] } (quietLine .run) .runtime := by
  have code : (invoke 2 failingSource { bytes := [] } (quietLine .run)).map (·.code) = some 4 := by
    decide +kernel
  obtain ⟨outcome, ended, four⟩ := Option.map_eq_some_iff.mp code
  exact ⟨outcome, ended, four, (invoke_status ended).2.2.2.1.mp four⟩

/-- A command that does not exist has the status of an error in the grammar of a source,
though there is no source and no such error. -/
theorem unknownCommand_status :
    ofArguments ["frobnicate"] = .ok ⟨{}, .unknown "frobnicate"⟩ ∧
    (invoke 0 {} (.ofString "") ["frobnicate"]).map (·.code) = some 3 ∧
    ¬ Raises {} (.ofString "") ["frobnicate"] .grammar := by
  have understood : ofArguments ["frobnicate"] = .ok ⟨{}, .unknown "frobnicate"⟩ := by decide
  refine ⟨understood, by decide +kernel, fun raised => ?_⟩
  cases raised with
  | unparsed also later found split failed => cases understood.symm.trans also

end Scriptlet
