import Scriptlet.Proofs.Command.Outcome
import Scriptlet.Proofs.Syntax.Reading
import Scriptlet.Proofs.Syntax.RoundTrip

/-! # Stages of the source commands

Printing tokens, printing a tree, formatting and running share their stages: the source is
found, split into tokens and parsed. A stage that fails ends all commands that come to it
with the same outcome (`Invocation.stage`), and behind the last of them only the run is
left to fail, because a parsed program can always be formatted.
-/

namespace Scriptlet

/-- The tokens of a source. -/
abbrev SourceFile.split (source : SourceFile) : Except LexFailure (List Token) :=
  tokenize { bytes := source.text } source.name

/-- A source that was read to its end is split, or has an error in its characters. -/
theorem SourceFile.split_cases (source : SourceFile) :
    (∃ error, source.split = .error (.lexical error)) ∨ ∃ tokens, source.split = .ok tokens := by
  cases split : source.split with
  | ok tokens => exact .inr ⟨tokens, rfl⟩
  | error fault =>
      obtain ⟨error, rfl⟩ := Lexer.exists_lexical_of_drain rfl split
      exact .inl ⟨error, rfl⟩

namespace Invocation

variable {files : FileTree} {input : Input} {options : Options} {path place : String}
  {command : SourceCommand} {error : CommandError} {tokens : List Token} {program : Program}
  {log : List LogLine}

/-- A manifest that cannot be used has the status one. -/
theorem exitCode_of_findManifest (failed : findManifest files path = .error error) :
    error.exitCode = 1 := by
  unfold findManifest at failed
  split at failed
  · split at failed
    · cases failed
      rfl
    · split at failed
      · cases failed
        rfl
      · cases failed
  · cases failed

private theorem exitCode_of_levelName (failed : levelName files options = .error error) :
    error.exitCode = 1 := by
  unfold levelName at failed
  split at failed
  · cases failed
  · cases found : findManifest files options.manifest with
    | error cause =>
        rw [found] at failed
        cases failed
        exact exitCode_of_findManifest found
    | ok manifest =>
        rw [found] at failed
        cases failed

/-- A log level that cannot be settled has the status one. -/
theorem exitCode_of_level (failed : level files options = .error error) : error.exitCode = 1 := by
  cases named : levelName files options with
  | error cause =>
      rw [level, named] at failed
      cases failed
      exact exitCode_of_levelName named
  | ok name =>
      rw [level, named] at failed
      simp only [bind, Except.bind] at failed
      split at failed
      · cases failed
      · cases failed
        rfl

/-- A source that cannot be named has the status one. -/
theorem exitCode_of_sourcePath (failed : sourcePath files options path = .error error) :
    error.exitCode = 1 := by
  unfold sourcePath at failed
  split at failed
  · cases failed
  · cases found : findManifest files options.manifest with
    | error cause =>
        rw [found] at failed
        cases failed
        exact exitCode_of_findManifest found
    | ok manifest =>
        rw [found] at failed
        simp only [bind, Except.bind] at failed
        split at failed
        · split at failed
          · cases failed
            rfl
          · cases failed
        · cases failed
          rfl

/-- A source that cannot be read has no tokens, and leaves no log. -/
theorem loadTokens_of_load_error {cause : SourceError}
    (missing : SourceFile.load files input place = .error cause) :
    loadTokens files input place = ⟨.error (.source cause), []⟩ := by
  simp [loadTokens, missing]

private theorem loadTokens_of_split_error {source : SourceFile} {fault : LexFailure}
    (loaded : SourceFile.load files input place = .ok source)
    (failed : source.split = .error fault) :
    loadTokens files input place = ⟨.error (.lex fault), []⟩ := by
  simp [loadTokens, loaded, failed]

private theorem exists_loadTokens_of_split {source : SourceFile}
    (loaded : SourceFile.load files input place = .ok source) (split : source.split = .ok tokens) :
    ∃ log, loadTokens files input place = ⟨.ok tokens, log⟩ := by
  simp [loadTokens, loaded, split, Logged.note]

/-- Without tokens all commands fail for the same reason. -/
theorem sourceJob_of_loadTokens_error (failed : loadTokens files input place = ⟨.error error, log⟩)
    (command : SourceCommand) :
    sourceJob files input place command = ⟨.error error, log⟩ := by
  cases command <;> simp [sourceJob, loadProgram, failed]

private theorem exists_sourceJob_tokens (split : loadTokens files input place = ⟨.ok tokens, log⟩) :
    ∃ text, sourceJob files input place .tokens = ⟨.ok (.print text), log⟩ := by
  simp [sourceJob, split]

/-- Without a program all commands that need one fail for the same reason. -/
theorem sourceJob_of_parse_error (split : loadTokens files input place = ⟨.ok tokens, log⟩)
    {failure : ParseFailure} (failed : parse tokens = .error failure) (other : command ≠ .tokens) :
    sourceJob files input place command = ⟨.error (.parse failure), log⟩ := by
  cases command with
  | tokens => exact absurd rfl other
  | _ => simp [sourceJob, loadProgram, split, failed]

private theorem exists_loadProgram_of_parse (split : loadTokens files input place = ⟨.ok tokens, log⟩)
    (read : parse tokens = .ok program) :
    ∃ log, loadProgram files input place = ⟨.ok program, log⟩ := by
  simp [loadProgram, split, read, Logged.note]

/-- With a program that can be formatted, all commands but the run have something to
print. -/
theorem exists_sourceJob_print (parsed : loadProgram files input place = ⟨.ok program, log⟩)
    {text : Bytes} (formatted : program.format = .ok text) (other : command ≠ .tokens)
    (idle : command ≠ .run) :
    ∃ text, sourceJob files input place command = ⟨.ok (.print text), log⟩ := by
  cases command with
  | tokens => exact absurd rfl other
  | ast => simp [sourceJob, parsed]
  | fmt => simp [sourceJob, parsed, formatted]
  | run => exact absurd rfl idle

private theorem sourceJob_run (parsed : loadProgram files input place = ⟨.ok program, log⟩) :
    sourceJob files input place .run = ⟨.ok (.execute program), log⟩ := by
  simp [sourceJob, parsed]

/-- The job for a source whose path is known. -/
theorem job_source (found : sourcePath files options path = .ok place) (command : SourceCommand) :
    job files input ⟨options, .source command path⟩ = sourceJob files input place command := by
  simp [job, found]

/-- There is no job for a source whose path is not known. -/
theorem job_source_of_error (lost : sourcePath files options path = .error error)
    (command : SourceCommand) :
    job files input ⟨options, .source command path⟩ = ⟨.error error, []⟩ := by
  simp [job, lost]

section

variable (files : FileTree) (input : Input) (options : Options) (path : String)

/-- The source that commands with some options come to read: their log level and the path
are settled, and the source is there. Commands whose log level is refused come to none. -/
structure Finds (source : SourceFile) : Prop where
  settled : ∃ settled, level files options = .ok settled
  loaded : ∃ place, sourcePath files options path = .ok place ∧
    SourceFile.load files input place = .ok source

/-- The program that is parsed from the source. -/
def Loads (program : Program) : Prop :=
  ∃ source tokens, Finds files input options path source ∧ source.split = .ok tokens ∧
    parse tokens = .ok program

/-- How far the commands get: none of them finds a source, or it cannot be split into
tokens, or all but the one that prints the tokens fail to parse it, or the program is
parsed and only its run can fail. -/
inductive Stage (ends : SourceCommand → Nat → Option Outcome) : Prop
  | lost {error : CommandError} (nowhere : ∀ source, ¬ Finds files input options path source)
      (code : error.exitCode = 1)
      (alike : ∀ command steps, ends command steps = some (failure files options.trace [] [] error))
  | unsplit {source : SourceFile} {error : LexError}
      (found : Finds files input options path source)
      (failed : source.split = .error (.lexical error))
      (alike : ∀ command steps, ends command steps =
        some (failure files options.trace [] [] (.lex (.lexical error))))
  | unparsed {source : SourceFile} {tokens : List Token} {error : ParseError} {text log : Bytes}
      (found : Finds files input options path source) (split : source.split = .ok tokens)
      (failed : parse tokens = .error (.rejected error))
      (printed : ∀ steps, ends .tokens steps = some ⟨0, text, log, files⟩)
      (alike : ∀ command, command ≠ .tokens → ∀ steps, ends command steps =
        some (failure files options.trace [] log (.parse (.rejected error))))
  | parsed {program : Program} {settled : LogLevel} {log : List LogLine}
      (loaded : Loads files input options path program)
      (printed : ∀ command, command ≠ .run → ∃ text log, ∀ steps,
        ends command steps = some ⟨0, text, log, files⟩)
      (run : ∀ steps, ends .run steps =
        runOutcome files options.trace settled log (program.run .empty none steps))

end

variable {settled : LogLevel}

/-- A command on a source that cannot be prepared fails, whatever number of steps is allowed. -/
theorem carryOut_source_of_error (known : level files options = .ok settled)
    (failed : job files input ⟨options, .source command path⟩ = ⟨.error error, log⟩)
    (steps : Nat) :
    carryOut steps files input ⟨options, .source command path⟩ =
      some (failure files options.trace [] (LogLine.renderAll settled log) error) := by
  rw [carryOut_of_job_error known (congrArg Logged.result failed), failed]

/-- A command on a source that prepares a text prints it, whatever number of steps is allowed. -/
theorem carryOut_source_of_print (known : level files options = .ok settled) {text : Bytes}
    (prepared : job files input ⟨options, .source command path⟩ = ⟨.ok (.print text), log⟩)
    (steps : Nat) :
    carryOut steps files input ⟨options, .source command path⟩ =
      some ⟨0, text, LogLine.renderAll settled log, files⟩ := by
  rw [carryOut_of_print known (congrArg Logged.result prepared), prepared]

private theorem stage_of_split {source : SourceFile} (known : level files options = .ok settled)
    (found : sourcePath files options path = .ok place)
    (loaded : SourceFile.load files input place = .ok source) (split : source.split = .ok tokens) :
    Stage files input options path fun command steps =>
      carryOut steps files input ⟨options, .source command path⟩ := by
  have finds : Finds files input options path source := ⟨⟨settled, known⟩, place, found, loaded⟩
  obtain ⟨log, tokenized⟩ := exists_loadTokens_of_split loaded split
  obtain ⟨text, job⟩ := exists_sourceJob_tokens tokenized
  rw [← job_source found] at job
  have printed := carryOut_source_of_print known job
  cases read : parse tokens with
  | error failure =>
      obtain ⟨error, rfl⟩ := exists_rejected_of_parse (two_le_length_of_tokenize split) read
      refine .unparsed finds split read printed ?_
      intro command other
      have failed := sourceJob_of_parse_error tokenized read other
      rw [← job_source found] at failed
      exact carryOut_source_of_error known failed
  | ok program =>
      have wellFormed := wellFormed_of_parse split read
      obtain ⟨format, formatted, _⟩ := wellFormed.tokenize_format
      obtain ⟨lines, parsed⟩ := exists_loadProgram_of_parse tokenized read
      have run := sourceJob_run parsed
      rw [← job_source found] at run
      refine .parsed ⟨source, tokens, finds, split, read⟩ ?_ fun _ =>
        carryOut_of_execute known (congrArg Logged.result run)
      intro command idle
      by_cases first : command = .tokens
      · subst first
        exact ⟨text, _, printed⟩
      · obtain ⟨text, job⟩ := exists_sourceJob_print parsed formatted first idle
        rw [← job_source found] at job
        exact ⟨text, _, carryOut_source_of_print known job⟩

/-- **The stages of the source commands.** Every stage ends all commands that come to it
alike. -/
theorem stage (files : FileTree) (input : Input) (options : Options) (path : String) :
    Stage files input options path fun command steps =>
      carryOut steps files input ⟨options, .source command path⟩ := by
  cases known : level files options with
  | error error =>
      refine .lost ?_ (exitCode_of_level known) fun _ _ => carryOut_of_level_error known
      rintro source ⟨⟨settled, also⟩, _⟩
      cases known.symm.trans also
  | ok settled =>
      cases found : sourcePath files options path with
      | error error =>
          refine .lost ?_ (exitCode_of_sourcePath found) fun command =>
            carryOut_source_of_error known (job_source_of_error found command)
          rintro source ⟨_, place, also, _⟩
          cases found.symm.trans also
      | ok place =>
          cases loaded : SourceFile.load files input place with
          | error cause =>
              have failed := sourceJob_of_loadTokens_error (loadTokens_of_load_error loaded)
              refine .lost ?_ (rfl : (CommandError.source cause).exitCode = 1) fun command =>
                carryOut_source_of_error known ((job_source found command).trans (failed command))
              rintro source ⟨_, other, also, elsewhere⟩
              cases found.symm.trans also
              cases loaded.symm.trans elsewhere
          | ok source =>
              rcases source.split_cases with ⟨error, failed⟩ | ⟨tokens, split⟩
              · have unsplit := sourceJob_of_loadTokens_error
                  (loadTokens_of_split_error loaded failed)
                refine .unsplit ⟨⟨settled, known⟩, place, found, loaded⟩ failed fun command =>
                  carryOut_source_of_error known
                    ((job_source found command).trans (unsplit command))
              · exact stage_of_split known found loaded split

end Invocation

end Scriptlet
