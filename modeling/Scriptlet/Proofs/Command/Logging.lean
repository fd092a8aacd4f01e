import Scriptlet.Proofs.Command.Outcome

/-! # Logging and tracing

How much is logged, and whether errors are traced, shows on the error stream only. Two
command lines that differ in nothing else are read alike: as the same command with the
same manifest, or as the same mistake (`Options.TailsAlike.readsAlike_append`). What is
read alike ends alike (`Invocation.carryOut_alike`), because the log is filled by what is
done and never looked at.
-/

namespace Scriptlet

/-- A name, letter or number that a log level goes by. The empty text is none. -/
abbrev LogLevel.Accepted (name : String) : Prop :=
  (ofName? name).isSome

namespace LogLevel.Accepted

/-- What the accepted names are in upper case. -/
def spellings : List String :=
  ["CRITICAL", "C", "ERROR", "E", "0", "WARNING", "W", "1", "NOTICE", "N", "2", "INFO", "I", "3",
    "DEBUG", "D", "4", "TRACE", "T", "5"]

variable {name : String}

private theorem upper_mem (accepted : Accepted name) :
    String.ofList (name.toList.map upper) ∈ spellings := by
  unfold Accepted ofName? at accepted
  split at accepted
  case h_21 => cases accepted
  all_goals
    rename_i same
    rw [same]
    decide

private theorem head_ne_dash (accepted : Accepted name) : name.toList.head? ≠ some '-' := by
  intro dash
  have first : (String.ofList (name.toList.map upper)).toList.head? = some '-' := by
    rw [String.toList_ofList, List.head?_map, dash]
    rfl
  have undashed : spellings.all (fun name => name.toList.head? != some '-') = true := by decide
  have other := List.all_eq_true.mp undashed _ accepted.upper_mem
  rw [first] at other
  cases other

/-- The name of a log level looks like no option. -/
theorem classify_eq (accepted : Accepted name) : Argument.classify name = .plain := by
  have undashed := accepted.head_ne_dash
  unfold Argument.classify
  split
  case h_4 => rfl
  all_goals
    rename_i shape
    rw [shape] at undashed
    exact absurd rfl undashed

/-- No command and no request for help goes by the name of a log level. -/
theorem read_eq (accepted : Accepted name) (rest : List String) :
    Command.read (name :: rest) = .ok (.unknown name) := by
  have words : ["", "help", "h", "init", "run", "tokens", "ast", "fmt"].all
      (fun word => (ofName? word).isNone) = true := by decide
  have differs (word : String)
      (member : word ∈ ["", "help", "h", "init", "run", "tokens", "ast", "fmt"]) :
      name ≠ word := by
    rintro rfl
    have unknown := List.all_eq_true.mp words name member
    rw [Option.isNone_iff_eq_none] at unknown
    rw [Accepted, unknown] at accepted
    cases accepted
  have command : Command.ofName? name = none := by
    unfold Command.ofName?
    split
    case h_6 => rfl
    all_goals exact absurd rfl (differs _ (by decide))
  rw [Command.read, command]
  simp [differs]

end LogLevel.Accepted

namespace Options

/-- Options that differ at most in the log level, both levels being accepted then, and
in tracing. -/
structure Alike (first second : Options) : Prop where
  manifest : first.manifest = second.manifest
  help : first.help = second.help
  logLevel : first.logLevel = second.logLevel ∨
    (LogLevel.Accepted first.logLevel ∧ LogLevel.Accepted second.logLevel)

variable {first second : Options}

/-- Options with texts are set alike. -/
theorem Alike.setText? (alike : first.Alike second) (name value : String) :
    Option.Rel Alike (first.setText? name value) (second.setText? name value) := by
  unfold Options.setText?
  split
  · exact .some ⟨rfl, alike.help, alike.logLevel⟩
  · exact .some ⟨alike.manifest, alike.help, .inl rfl⟩
  · exact .none

/-- Options that are on or off are set alike. -/
theorem Alike.setTruth? (alike : first.Alike second) (name : String) (value : Bool) :
    Option.Rel Alike (first.setTruth? name value) (second.setTruth? name value) := by
  unfold Options.setTruth?
  split
  · exact .some ⟨alike.manifest, alike.help, alike.logLevel⟩
  · exact .some ⟨alike.manifest, rfl, alike.logLevel⟩
  · exact .some ⟨alike.manifest, rfl, alike.logLevel⟩
  · exact .none

/-- An option whose value is the next argument is set alike. -/
theorem Alike.getD_setText? (alike : first.Alike second) (name value : String) :
    ((first.setText? name value).getD first).Alike ((second.setText? name value).getD second) := by
  have changed := alike.setText? name value
  generalize first.setText? name value = left at changed ⊢
  generalize second.setText? name value = right at changed ⊢
  cases changed with
  | none => exact alike
  | some changed => exact changed

/-- Setting an option does to both the same, or fails alike. -/
inductive SetAlike : Except UsageError (Option Options) → Except UsageError (Option Options) → Prop
  | failed (error : UsageError) : SetAlike (.error error) (.error error)
  | set {left right : Option Options} (alike : Option.Rel Alike left right) :
      SetAlike (.ok left) (.ok right)

/-- Any option is set alike. -/
theorem Alike.set (alike : first.Alike second) (name : String) (value : Option String) :
    SetAlike (first.set name value) (second.set name value) := by
  have on := alike.setTruth? name true
  unfold Options.set
  generalize first.setTruth? name true = left at on ⊢
  generalize second.setTruth? name true = right at on ⊢
  cases on with
  | some changed =>
      cases value with
      | none => exact .set (.some changed)
      | some text =>
          simp only
          cases readTruth? text with
          | none => exact .failed _
          | some value => exact .set (alike.setTruth? name value)
  | none =>
      cases value with
      | none =>
          have known := alike.setText? name ""
          generalize first.setText? name "" = left at known ⊢
          generalize second.setText? name "" = right at known ⊢
          cases known with
          | none => exact .failed _
          | some changed => exact .set .none
      | some text =>
          have changed := alike.setText? name text
          simp only
          generalize first.setText? name text = left at changed ⊢
          generalize second.setText? name text = right at changed ⊢
          cases changed with
          | none => exact .failed _
          | some changed => exact .set (.some changed)

/-- Options are read one argument after another; the last one may lack its value. -/
theorem read_cons (options : Options) (argument : String) (rest : List String) :
    options.read (argument :: rest) =
      match Argument.classify argument with
      | .plain => .ok (options, argument :: rest)
      | .stop => .ok (options, rest)
      | .malformed => .error (.badSyntax argument)
      | .option name value =>
        match options.set name value with
        | .error error => .error error
        | .ok (some changed) => changed.read rest
        | .ok none =>
          match rest with
          | [] => .error (.missingValue name)
          | next :: more => ((options.setText? name next).getD options).read more := by
  cases shape : Argument.classify argument with
  | option name value =>
      rcases setting : options.set name value with error | (_ | changed)
      all_goals cases rest <;> simp only [read, shape, setting]
  | _ => cases rest <;> simp only [read, shape]

end Options

/-- Commands that are read from two command lines are the same, or both unknown. -/
def Command.ReadAlike (left right : Except UsageError Command) : Prop :=
  left = right ∨ ∃ name other, left = .ok (.unknown name) ∧ right = .ok (.unknown other)

namespace Options

/-- Two command lines are read alike up to their commands: with the same mistake, or with
options that are alike and arguments that have like commands in them. -/
inductive ReadAlike :
    Except UsageError (Options × List String) → Except UsageError (Options × List String) → Prop
  | failed (error : UsageError) : ReadAlike (.error error) (.error error)
  | read {first second : Options} {left right : List String} (options : first.Alike second)
      (command : Command.ReadAlike (Command.read left) (Command.read right)) :
      ReadAlike (.ok (first, left)) (.ok (second, right))

/-- Arguments are read alike behind options that are alike. -/
def ReadsAlike (left right : List String) : Prop :=
  ∀ first second : Options, first.Alike second → ReadAlike (first.read left) (second.read right)

/-- Arguments that can stand behind the same arguments of two command lines: they are
read alike, also if an option in front takes the first of them for its value, and also
if they belong to a command. -/
structure TailsAlike (left right : List String) : Prop where
  read : ReadsAlike left right
  taken : (left = [] ∧ right = []) ∨ ∃ value more others,
    left = value :: more ∧ right = value :: others ∧ ReadsAlike more others
  command : ∀ front,
    Command.ReadAlike (Command.read (front ++ left)) (Command.read (front ++ right))

variable {left right : List String}

/-- No arguments read alike. -/
theorem TailsAlike.nil : TailsAlike [] [] where
  read _ _ alike := .read alike (.inl rfl)
  taken := .inl ⟨rfl, rfl⟩
  command _ := .inl rfl

/-- Arguments in front are read alike. The induction follows the arguments; one of them
may take the next one for its value, so the claim is kept for both. -/
theorem TailsAlike.readsAlike_append (tails : TailsAlike left right) (front : List String) :
    ReadsAlike (front ++ left) (front ++ right) := by
  suffices both : ReadsAlike (front ++ left) (front ++ right) ∧
      ReadsAlike (front.tail ++ left) (front.tail ++ right) from both.1
  induction front with
  | nil => exact ⟨tails.read, tails.read⟩
  | cons argument front ih =>
      obtain ⟨next, behind⟩ := ih
      refine ⟨?_, next⟩
      intro first second alike
      rw [List.cons_append, List.cons_append, read_cons, read_cons]
      cases Argument.classify argument with
      | plain => exact .read alike (tails.command (argument :: front))
      | stop => exact .read alike (tails.command front)
      | malformed => exact .failed _
      | option name value =>
          simp only
          have setting := alike.set name value
          generalize first.set name value = leftSet at setting ⊢
          generalize second.set name value = rightSet at setting ⊢
          cases setting with
          | failed error => exact .failed error
          | set changed =>
              cases changed with
              | some changed => exact next _ _ changed
              | none =>
                  cases front with
                  | cons value front => exact behind _ _ (alike.getD_setText? name value)
                  | nil =>
                      rcases tails.taken with ⟨rfl, rfl⟩ | ⟨value, more, others, rfl, rfl, read⟩
                      · exact .failed _
                      · exact read _ _ (alike.getD_setText? name value)

end Options

/-- What logging options can be given: an accepted level, and whether to trace. -/
structure Logging where
  level : String
  accepted : LogLevel.Accepted level
  trace : Bool

namespace Logging

def tracing (logging : Logging) : List String :=
  if logging.trace then ["--trace"] else []

def arguments (logging : Logging) : List String :=
  "--log-level" :: logging.level :: logging.tracing

/-- The arguments of a logging are read as its level and nothing else. -/
theorem read_arguments_append (logging : Logging) (options : Options) (rest : List String) :
    ∃ changed : Options, changed.manifest = options.manifest ∧ changed.help = options.help ∧
      changed.logLevel = logging.level ∧
      options.read (logging.arguments ++ rest) = changed.read rest := by
  obtain ⟨level, accepted, trace⟩ := logging
  have leveled (more : List String) : options.read ("--log-level" :: level :: more) =
      { options with logLevel := level }.read more := by
    rw [Options.read_cons]
    rfl
  cases trace with
  | false => exact ⟨{ options with logLevel := level }, rfl, rfl, rfl, leveled rest⟩
  | true =>
      refine ⟨{ options with logLevel := level, trace := true }, rfl, rfl, rfl, ?_⟩
      refine (leveled ("--trace" :: rest)).trans ?_
      rw [Options.read_cons]
      rfl

end Logging

namespace Command

private theorem firstArgument_append_option (front more others : List String) :
    firstArgument (front ++ "--log-level" :: more) =
      firstArgument (front ++ "--log-level" :: others) := by
  cases front with
  | nil => rfl
  | cons argument front =>
      rw [List.cons_append, List.cons_append, firstArgument, firstArgument]
      cases Argument.classify argument with
      | stop => cases front <;> rfl
      | _ => rfl

/-- The command of a line is found in front of an option. -/
theorem read_append_option (front more others : List String) :
    read (front ++ "--log-level" :: more) = read (front ++ "--log-level" :: others) := by
  cases front with
  | nil => rfl
  | cons name front =>
      rw [List.cons_append, List.cons_append, read, read,
        firstArgument_append_option front more others]

end Command

open Options in
/-- Two loggings in front of the same arguments read alike. -/
theorem Logging.tailsAlike (first second : Logging) (rest : List String) :
    TailsAlike (first.arguments ++ rest) (second.arguments ++ rest) where
  read := by
    intro left right alike
    obtain ⟨changed, manifest, help, level, read⟩ := first.read_arguments_append left rest
    obtain ⟨other, manifest', help', level', read'⟩ := second.read_arguments_append right rest
    rw [read, read']
    have following := TailsAlike.nil.readsAlike_append rest
    rw [List.append_nil] at following
    apply following
    refine ⟨?_, ?_, .inr ?_⟩
    · rw [manifest, manifest', alike.manifest]
    · rw [help, help', alike.help]
    · rw [level, level']
      exact ⟨first.accepted, second.accepted⟩
  taken := by
    refine .inr ⟨"--log-level", first.level :: (first.tracing ++ rest),
      second.level :: (second.tracing ++ rest), rfl, rfl, ?_⟩
    intro left right alike
    rw [read_cons, read_cons, first.accepted.classify_eq, second.accepted.classify_eq]
    refine .read alike (.inr ⟨first.level, second.level, ?_, ?_⟩)
    · exact first.accepted.read_eq _
    · exact second.accepted.read_eq _
  command front := .inl (Command.read_append_option front _ _)

/-- Two outcomes differ at most in what the error stream shows. -/
structure Outcome.Alike (left right : Outcome) : Prop where
  code : left.code = right.code
  output : left.output = right.output
  files : left.files = right.files

namespace Invocation

/-- Invocations that differ at most in logging. Commands that are unknown may have any
names. -/
structure Alike (first second : Invocation) : Prop where
  manifest : first.options.manifest = second.options.manifest
  logLevel : first.options.logLevel = second.options.logLevel ∨
    (LogLevel.Accepted first.options.logLevel ∧ LogLevel.Accepted second.options.logLevel)
  command : first.command = second.command ∨
    ∃ name other, first.command = .unknown name ∧ second.command = .unknown other

variable {steps : Nat} {files : FileTree} {input : Input} {first second : Invocation}

/-- An accepted level is settled without a look at the manifest. -/
theorem exists_level_of_accepted {options : Options}
    (accepted : LogLevel.Accepted options.logLevel) (files : FileTree) :
    ∃ settled, level files options = .ok settled := by
  have given : options.logLevel ≠ "" := by
    intro empty
    rw [empty] at accepted
    cases accepted
  obtain ⟨settled, known⟩ := Option.isSome_iff_exists.mp accepted
  have name : levelName files options = .ok options.logLevel := by
    rw [levelName, if_pos given]
    rfl
  refine ⟨settled, ?_⟩
  rw [level, name]
  simp only [bind, Except.bind, known]
  rfl

/-- Both log levels are settled, or both fail for the same reason. -/
theorem Alike.level_cases (alike : first.Alike second) (files : FileTree) :
    (∃ settled other, level files first.options = .ok settled ∧
        level files second.options = .ok other) ∨
      ∃ error, level files first.options = .error error ∧
        level files second.options = .error error := by
  rcases alike.logLevel with same | ⟨accepted, other⟩
  · have equal : level files first.options = level files second.options := by
      rw [level, level, levelName, levelName, same, alike.manifest]
    rw [equal]
    cases level files second.options with
    | error error => exact .inr ⟨error, rfl, rfl⟩
    | ok settled => exact .inl ⟨settled, settled, rfl, rfl⟩
  · obtain ⟨settled, known⟩ := exists_level_of_accepted accepted files
    obtain ⟨otherLevel, alsoKnown⟩ := exists_level_of_accepted other files
    exact .inl ⟨settled, otherLevel, known, alsoKnown⟩

/-- What is prepared does not depend on logging. -/
theorem job_eq (manifest : first.options.manifest = second.options.manifest)
    (command : first.command = second.command) :
    job files input first = job files input second := by
  rw [job, job, command]
  cases second.command with
  | help => rfl
  | unknown name => rfl
  | init name =>
      simp only [initJob, manifest]
  | source command path =>
      simp only [sourcePath, manifest]

private theorem runOutcome_alike (trace tracing : Bool) (settled other : LogLevel) (log : List LogLine)
    (run : RunResult) :
    Option.Rel Outcome.Alike (runOutcome files trace settled log run)
      (runOutcome files tracing other log run) := by
  unfold runOutcome
  cases run.ending with
  | finished => exact .some ⟨rfl, rfl, rfl⟩
  | failed failure => exact .some ⟨rfl, rfl, rfl⟩
  | unfinished => exact .none

/-- Invocations that differ at most in logging end alike: they fail at the same place or
do the same work, and a run takes the same steps. -/
theorem carryOut_alike (alike : first.Alike second) :
    Option.Rel Outcome.Alike (first.carryOut steps files input)
      (second.carryOut steps files input) := by
  rcases alike.level_cases files with ⟨settled, other, known, alsoKnown⟩ | ⟨error, failed, also⟩
  · rcases alike.command with same | ⟨name, unknown, command, otherCommand⟩
    · have equal : job files input first = job files input second := job_eq alike.manifest same
      cases prepared : (job files input second).result with
      | error error =>
          rw [carryOut_of_job_error known (equal ▸ prepared),
            carryOut_of_job_error alsoKnown prepared]
          exact .some ⟨rfl, rfl, rfl⟩
      | ok work =>
          cases work with
          | print text =>
              rw [carryOut_of_print known (equal ▸ prepared), carryOut_of_print alsoKnown prepared]
              exact .some ⟨rfl, rfl, rfl⟩
          | store changed =>
              rw [carryOut_of_store known (equal ▸ prepared), carryOut_of_store alsoKnown prepared]
              exact .some ⟨rfl, rfl, rfl⟩
          | execute program =>
              rw [carryOut_of_execute known (equal ▸ prepared),
                carryOut_of_execute alsoKnown prepared, equal]
              exact runOutcome_alike _ _ _ _ _ _
    · have failed : (job files input first).result = .error (.unknownCommand name) := by
        rw [job, command]
        rfl
      have also : (job files input second).result = .error (.unknownCommand unknown) := by
        rw [job, otherCommand]
        rfl
      rw [carryOut_of_job_error known failed, carryOut_of_job_error alsoKnown also]
      exact .some ⟨rfl, rfl, rfl⟩
  · rw [carryOut_of_level_error failed, carryOut_of_level_error also]
    exact .some ⟨rfl, rfl, rfl⟩

end Invocation

open Invocation

private theorem invoke_alike_of_read {left right : List String}
    (alike : Options.ReadAlike (Options.read {} left) (Options.read {} right)) (steps : Nat)
    (files : FileTree) (input : Input) :
    Option.Rel Outcome.Alike (invoke steps files input left) (invoke steps files input right) := by
  generalize readLeft : Options.read {} left = leftResult at alike
  generalize readRight : Options.read {} right = rightResult at alike
  cases alike with
  | failed mistake =>
      rw [invoke_of_error (ofArguments_of_read_error readLeft),
        invoke_of_error (ofArguments_of_read_error readRight)]
      exact .some ⟨rfl, rfl, rfl⟩
  | @read first second leftRest rightRest options command =>
      have understood := ofArguments_of_read readLeft
      have alsoUnderstood := ofArguments_of_read readRight
      rw [options.help] at understood
      by_cases help : second.help
      · rw [if_pos help] at understood alsoUnderstood
        rw [invoke_of_ok understood, invoke_of_ok alsoUnderstood]
        exact carryOut_alike ⟨options.manifest, options.logLevel, .inl rfl⟩
      · rw [if_neg help] at understood alsoUnderstood
        rcases command with same | ⟨name, other, unknown, alsoUnknown⟩
        · rw [same] at understood
          cases found : Command.read rightRest with
          | error mistake =>
              rw [found] at understood alsoUnderstood
              rw [invoke_of_error understood, invoke_of_error alsoUnderstood]
              exact .some ⟨rfl, rfl, rfl⟩
          | ok command =>
              rw [found] at understood alsoUnderstood
              rw [invoke_of_ok understood, invoke_of_ok alsoUnderstood]
              exact carryOut_alike ⟨options.manifest, options.logLevel, .inl rfl⟩
        · rw [unknown] at understood
          rw [alsoUnknown] at alsoUnderstood
          rw [invoke_of_ok understood, invoke_of_ok alsoUnderstood]
          exact carryOut_alike
            ⟨options.manifest, options.logLevel, .inr ⟨name, other, rfl, rfl⟩⟩

/-- **Logging and tracing are invisible.** For every file tree and every standard input,
and for any number of steps that a program may take: put logging options, with an
accepted level and with or without tracing, at any place of any command line, and it
ends alike whichever these options are, with the same status, the same output and the
same files, or does not end either way. And any two command lines that are understood as
the same command with the same manifest, each with an accepted level, end alike, however
their options are spelled and arranged. -/
theorem invoke_logging_alike (steps : Nat) (files : FileTree) (input : Input) :
    (∀ (front rest : List String) (first second : Logging),
      Option.Rel Outcome.Alike (invoke steps files input (front ++ (first.arguments ++ rest)))
        (invoke steps files input (front ++ (second.arguments ++ rest)))) ∧
    ∀ (left right : List String) (first second : Invocation),
      ofArguments left = .ok first → ofArguments right = .ok second →
      first.command = second.command → first.options.manifest = second.options.manifest →
      LogLevel.Accepted first.options.logLevel → LogLevel.Accepted second.options.logLevel →
      Option.Rel Outcome.Alike (invoke steps files input left)
        (invoke steps files input right) := by
  constructor
  · intro front rest first second
    apply invoke_alike_of_read
    apply (first.tailsAlike second rest).readsAlike_append front
    exact ⟨rfl, rfl, .inl rfl⟩
  · intro left right first second understood alsoUnderstood command manifest accepted other
    rw [invoke_of_ok understood, invoke_of_ok alsoUnderstood]
    exact carryOut_alike ⟨manifest, .inr ⟨accepted, other⟩, .inl command⟩

/-- A file with a program that prints and then divides by zero, and a manifest that could
not be read. -/
def brokenModule : FileTree :=
  ⟨[(["peri.yml"], .file (Bytes.ofString "- list")),
    (["a.peri"], .file (Bytes.ofString "x = 1; print x; print x / 0;"))]⟩

/-- A module whose source is broken, with and without a log. -/
theorem brokenModule_invoke_logging_alike :
    let quiet := ["--log-level=c", "run", "a.peri"]
    let traced := ["--trace", "-log-level", "5", "run", "--", "a.peri"]
    let invocation : Invocation := ⟨{ logLevel := "c" }, .source .run "a.peri"⟩
    let tracing : Invocation := ⟨{ logLevel := "5", trace := true }, .source .run "a.peri"⟩
    ofArguments quiet = .ok invocation ∧ ofArguments traced = .ok tracing ∧
      LogLevel.Accepted "c" ∧ LogLevel.Accepted "5" ∧
      ∀ steps input, Option.Rel Outcome.Alike (invoke steps brokenModule input quiet)
        (invoke steps brokenModule input traced) := by
  intro quiet traced invocation tracing
  have understood : ofArguments quiet = .ok invocation := rfl
  have alsoUnderstood : ofArguments traced = .ok tracing := rfl
  have accepted : LogLevel.Accepted "c" := by decide +kernel
  have alsoAccepted : LogLevel.Accepted "5" := by decide +kernel
  refine ⟨understood, alsoUnderstood, accepted, alsoAccepted, ?_⟩
  intro steps input
  exact (invoke_logging_alike steps brokenModule input).2 quiet traced invocation tracing
    understood alsoUnderstood rfl rfl accepted alsoAccepted

end Scriptlet
