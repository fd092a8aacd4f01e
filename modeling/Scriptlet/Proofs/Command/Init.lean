import Scriptlet.Proofs.Command.Entry

/-! # New modules

Making a new module writes its manifest and nothing else, and a failure writes nothing at
all. Whatever the name of the module is, the manifest that is found afterwards has this
name, so that later commands pass the setup of the log and read the entry of the module in
the directory of the manifest (`invoke_init`).
-/

namespace Scriptlet

namespace Invocation

variable {files changed : FileTree} {input : Input} {options : Options} {name path : String}
  {manifest : Manifest} {steps : Nat} {outcome : Outcome} {arguments : List String}

/-! ## Failures -/

private theorem carryOut_files {invocation : Invocation}
    (ended : invocation.carryOut steps files input = some outcome) (failed : outcome.code ≠ 0) :
    outcome.files = files := by
  cases known : level files invocation.options with
  | error error =>
      cases (carryOut_of_level_error known).symm.trans ended
      rfl
  | ok settled =>
      cases prepared : (job files input invocation).result with
      | error error =>
          cases (carryOut_of_job_error known prepared).symm.trans ended
          rfl
      | ok job =>
          cases job with
          | print text =>
              cases (carryOut_of_print known prepared).symm.trans ended
              rfl
          | store changed =>
              cases (carryOut_of_store known prepared).symm.trans ended
              exact absurd rfl failed
          | execute program =>
              have run := (carryOut_of_execute known prepared).symm.trans ended
              unfold runOutcome at run
              split at run <;> cases run <;> rfl

/-- A command line that fails changes no file. -/
theorem invoke_files (ended : invoke steps files input arguments = some outcome)
    (failed : outcome.code ≠ 0) : outcome.files = files := by
  cases understood : ofArguments arguments with
  | error mistake =>
      cases (invoke_of_error understood).symm.trans ended
      rfl
  | ok invocation =>
      rw [invoke_of_ok understood] at ended
      exact carryOut_files ended failed

/-! ## Manifests that were written -/

/-- A manifest that is written at a path is found there. -/
theorem findManifest_of_write (written : files.write path manifest.write = .ok changed) :
    findManifest changed path = .ok (some manifest) := by
  obtain ⟨place, _, leads, _, changes⟩ := FileTree.exists_of_write written
  refine findManifest_of_leads leads ?_
  rw [changes, if_pos rfl]

/-- What is left of making a new module with its manifest at a path: the manifest in a
directory, where later commands find it. -/
structure Started (before after : FileTree) (path name : String) (inside : Place)
    (leaf : String) : Prop where
  /-- The path leads to the manifest. -/
  leads : before.Leads path (inside ++ [leaf])
  /-- The manifest is written, and all other files and directories stay. -/
  changes : ∀ place, after.entry? place =
    if place = inside ++ [leaf] then some (.file (Manifest.initial name).write)
    else before.entry? place
  /-- The manifest says what the new module is. -/
  found : findManifest after path =
    .ok (some { package := name, entry := "main.peri", logLevel := "" })
  /-- Source commands that look for this manifest pass the setup of the log, and read the
  entry in the directory of the manifest. -/
  later : ∀ (arguments : List String) (options : Options) (command : SourceCommand),
    ofArguments arguments = .ok ⟨options, .source command ""⟩ → options.manifest = path →
      options.logLevel = "" → level after options = .ok .notice ∧
      ∃ source, after.Leads source (inside ++ ["main.peri"]) ∧
        (∀ input text, SourceFile.load after input source = .ok ⟨text, source⟩ ↔
          after.entry? (inside ++ ["main.peri"]) = some (.file text)) ∧
        ∀ steps input, invoke steps after input arguments =
          carryOut steps after input ⟨options, .source command source⟩

private theorem initial_entry_ne_empty (name : String) : (Manifest.initial name).entry ≠ "" :=
  (by decide : "main.peri" ≠ "")

/-- The entry of a new manifest is a file beside it. -/
theorem follow_initial_entry {inside : Place} (name : String)
    (stands : files.entry? inside = some .directory) :
    files.follow ((Manifest.initial name).entryOrigin inside)
      (Path.parts (Manifest.initial name).entry) = .ok (inside ++ ["main.peri"]) := by
  have relative : (Manifest.initial name).entryOrigin inside = inside :=
    if_neg (by decide : ¬ Path.isAbsolute "main.peri" = true)
  have single : Path.parts (Manifest.initial name).entry = ["main.peri"] :=
    (by decide : Path.parts "main.peri" = ["main.peri"])
  rw [relative, single, FileTree.follow_cons_eq_ok_iff, Place.move_of_proper (by decide)]
  exact ⟨stands, rfl⟩

/-- The entry of a new module is a file, and never the standard input. -/
theorem load_initial_entry {inside : Place} {source : String}
    (reads : ReadsEntry files (.initial name) inside source)
    (stands : files.entry? inside = some .directory) (input : Input) (text : Bytes) :
    SourceFile.load files input source = .ok ⟨text, source⟩ ↔
      files.entry? (inside ++ ["main.peri"]) = some (.file text) := by
  have below := follow_initial_entry name stands
  have place : inside ++ ["main.peri"] = (Manifest.initial name).entryPlace inside :=
    FileTree.eq_walk_of_follow below
  have named : source ≠ SourceFile.inputPath := by
    refine mt reads.input_iff.mp ?_
    rw [← place]
    intro same
    have last := congrArg List.getLast? same
    rw [List.getLast?_concat] at last
    exact absurd last (by decide)
  constructor
  · intro loaded
    rw [place]
    exact reads.file named input _ loaded
  · exact reads.followed named input _ text below

private theorem exists_started (written : files.write path (Manifest.initial name).write = .ok changed) :
    ∃ inside leaf, Started files changed path name inside leaf := by
  obtain ⟨place, before, after, _, changes⟩ := FileTree.exists_of_write written
  have found := findManifest_of_write written
  have given := initial_entry_ne_empty name
  obtain ⟨inside, leaf, also, _, stands, walked⟩ := exists_directory_of_findManifest found
  obtain rfl : place = inside ++ [leaf] := Except.ok.inj (after.2.symm.trans also.2)
  refine ⟨inside, leaf, before, changes, found, ?_⟩
  rintro arguments options command understood rfl unset
  refine ⟨level_of_findManifest found unset rfl, _,
    Manifest.leads_entryPath given walked stands (follow_initial_entry name stands),
    load_initial_entry (readsEntry given walked stands) stands, ?_⟩
  intro steps input
  rw [invoke_of_ok understood]
  exact carryOut_of_sourcePath steps (sourcePath_of_findManifest found given)
    (Manifest.entryPath_ne_empty given)

/-! ## Preparing a new module -/

private theorem initJob_cases (files : FileTree) (options : Options) (name : String) :
    (∃ error, (initJob files options name).result = .error error ∧ error.exitCode = 1) ∨
      ∃ changed, (initJob files options name).result = .ok (.store changed) ∧ name ≠ "" ∧
        files.write options.manifest (Manifest.initial name).write = .ok changed := by
  unfold initJob
  split
  · exact .inl ⟨.noName, rfl, rfl⟩
  · rename_i named
    cases written : files.write options.manifest (Manifest.initial name).write with
    | error error => exact .inl ⟨.notWritten options.manifest error, by simp [written], rfl⟩
    | ok changed => exact .inr ⟨changed, by simp [written, Logged.note], named, rfl⟩

private theorem carryOut_init (steps : Nat) (files : FileTree) (input : Input) (options : Options)
    (name : String) :
    ∃ outcome, carryOut steps files input ⟨options, .init name⟩ = some outcome ∧
      (outcome.code = 0 → name ≠ "" ∧
        files.write options.manifest (Manifest.initial name).write = .ok outcome.files) := by
  cases known : level files options with
  | error error =>
      refine ⟨_, carryOut_of_level_error known, fun ended => ?_⟩
      exact absurd ((exitCode_of_level known).symm.trans ended) (by decide)
  | ok settled =>
      rcases initJob_cases files options name with
        ⟨error, prepared, code⟩ | ⟨changed, prepared, named, written⟩
      · refine ⟨_, carryOut_of_job_error known prepared, fun ended => ?_⟩
        exact absurd (code.symm.trans ended) (by decide)
      · exact ⟨_, carryOut_of_store known prepared, fun _ => ⟨named, written⟩⟩

end Invocation

/-- **New modules.** Making a module always ends. If it fails, no file is changed; if it
succeeds, the module has a name, and its manifest is written so that later commands find
the name and the entry in it. So is every other manifest: what is written at a path is what
is found there. -/
theorem invoke_init {arguments : List String} {options : Options} {name : String}
    (understood : Invocation.ofArguments arguments = .ok ⟨options, .init name⟩) (steps : Nat)
    (files : FileTree) (input : Input) :
    (∃ outcome, invoke steps files input arguments = some outcome ∧
      (outcome.code ≠ 0 → outcome.files = files) ∧
      (outcome.code = 0 → name ≠ "" ∧ ∃ inside leaf,
        Invocation.Started files outcome.files options.manifest name inside leaf)) ∧
    ∀ (manifest : Manifest) (path : String) (changed : FileTree),
      files.write path manifest.write = .ok changed →
        Invocation.findManifest changed path = .ok (some manifest) := by
  refine ⟨?_, fun manifest path changed => Invocation.findManifest_of_write⟩
  obtain ⟨outcome, ended, succeeds⟩ := Invocation.carryOut_init steps files input options name
  rw [← Invocation.invoke_of_ok understood] at ended
  refine ⟨outcome, ended, Invocation.invoke_files ended, fun code => ?_⟩
  obtain ⟨named, written⟩ := succeeds code
  exact ⟨named, Invocation.exists_started written⟩

/-- A name that is no plain text where the manifest holds it. -/
theorem questionableName_invoke_init :
    ∃ outcome, invoke 0 {} (.ofString "") ["init", "yes: #1"] = some outcome ∧ outcome.code = 0 ∧
      Invocation.findManifest outcome.files "peri.yml" =
        .ok (some { package := "yes: #1", entry := "main.peri", logLevel := "" }) := by
  have understood : Invocation.ofArguments ["init", "yes: #1"] = .ok ⟨{}, .init "yes: #1"⟩ := by
    decide
  have code : (invoke 0 {} (.ofString "") ["init", "yes: #1"]).map (·.code) = some 0 := by
    decide +kernel
  obtain ⟨⟨outcome, ended, _, started⟩, _⟩ := invoke_init understood 0 {} (.ofString "")
  rw [ended] at code
  have succeeded : outcome.code = 0 := Option.some.inj code
  obtain ⟨_, inside, leaf, made⟩ := started succeeded
  exact ⟨outcome, ended, succeeded, made.found⟩

end Scriptlet
