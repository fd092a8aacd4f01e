import Scriptlet.Command.Arguments
import Scriptlet.Command.Log
import Scriptlet.Dump
import Scriptlet.Files.Source
import Scriptlet.Manifest.Document
import Scriptlet.Run.Execution
import Scriptlet.Syntax.Parser
import Scriptlet.Syntax.Printer
import Scriptlet.Token.Lexer

/-!
# Invocations

What a command line does. First the log level is settled, from the options or
else from the manifest; then the command is carried out. A source is read and
parsed as a whole before anything of it is executed.

The exit status tells the kinds of errors apart: two for an error in the
characters of a source, three for one in its grammar, four for one in its run.
-/

namespace Scriptlet

/-- Why a command fails. -/
inductive CommandError where
  | usage (error : UsageError)
  | unknownCommand (name : String)
  | badLevel (level : String)
  | noName
  | noSource (manifest : String)
  | unreadableManifest (error : FileError)
  | badManifest (path : String) (error : ManifestError)
  | notWritten (path : String) (error : FileError)
  | source (error : SourceError)
  | lex (failure : LexFailure)
  | parse (failure : ParseFailure)
  | format (sort : NodeSort)
  | run (failure : RunFailure)
deriving DecidableEq, Repr

namespace CommandError

/-- What went wrong. A message may cut a text anywhere, so it is kept as bytes. -/
def message : CommandError → Bytes
  | .usage error => Bytes.ofString error.message
  | .unknownCommand name => Bytes.ofString ("No help topic for '" ++ name ++ "'")
  | .badLevel level => Bytes.ofString ("invalid log level " ++ Quoted.text level)
  | .noName => Bytes.ofString "no module name provided"
  | .noSource manifest =>
    Bytes.ofString ("no source file provided and no entry in " ++ manifest)
  | .unreadableManifest error => Bytes.ofString error.message
  | .badManifest path error => Bytes.ofString ("error reading " ++ path ++ ": ") ++ error.message
  | .notWritten path error =>
    Bytes.ofString ("error creating " ++ path ++ ": " ++ error.message)
  | .source error => Bytes.ofString error.message
  | .lex failure => Bytes.ofString failure.message
  | .parse failure => Bytes.ofString failure.message
  | .format sort => Bytes.ofString sort.missingMessage
  | .run failure => Bytes.ofString failure.message

/-- The exit status of a command that fails. -/
def exitCode : CommandError → Nat
  | .lex (.lexical _) => 2
  | .parse (.rejected _) => 3
  | .run (.runtime _) => 4
  | .unknownCommand _ => 3
  | _ => 1

/-- An error as it is shown. Tracing shows the bare message. What a program that traces may
show behind it, the places in its own code that the error came through, is left out. -/
def report (trace : Bool) (error : CommandError) : Bytes :=
  Bytes.ofString (if trace then "" else "error: ") ++ error.message ++ Bytes.ofString "\n"

end CommandError

/-- The result of work that keeps a log, which remains if the work fails. -/
structure Logged (α : Type) where
  result : Except CommandError α
  log : List LogLine := []

namespace Logged

/-- Work that gives a value at once. -/
def give {α : Type} (value : α) : Logged α where
  result := .ok value

/-- Work that fails at once. -/
def fail {α : Type} (error : CommandError) : Logged α where
  result := .error error

/-- Work that only adds a line to the log. -/
def note (line : LogLine) : Logged Unit where
  result := .ok ()
  log := [line]

/-- Work that may fail without saying more. -/
def ofExcept {α ε : Type} (wrap : ε → CommandError) (result : Except ε α) : Logged α where
  result := result.mapError wrap

/-- One piece of work and then another that depends on what the first one gave. -/
def andThen {α β : Type} (first : Logged α) (second : α → Logged β) : Logged β :=
  match first.result with
  | .error error => { result := .error error, log := first.log }
  | .ok value =>
    let last := second value
    { result := last.result, log := first.log ++ last.log }

instance : Monad Logged where
  pure := give
  bind := andThen

end Logged

/-- What is left to do once a command has been prepared. -/
inductive Job where
  /-- To print a text. -/
  | print (text : Bytes)
  /-- To store changed files. -/
  | store (files : FileTree)
  /-- To run a program. -/
  | execute (program : Program)

/-- How an invocation ends. -/
structure Outcome where
  code : Nat
  output : Bytes
  errors : Bytes
  files : FileTree
deriving DecidableEq, Repr

namespace Invocation

/-- The manifest at a path, unless there is none. -/
def findManifest (files : FileTree) (path : String) : Except CommandError (Option Manifest) :=
  if files.isPresent path then
    match files.read path with
    | .error error => .error (.unreadableManifest error)
    | .ok bytes =>
      match Manifest.read bytes with
      | .error error => .error (.badManifest path error)
      | .ok manifest => .ok (some manifest)
  else
    .ok none

/-- The name of the log level: the option, or else what the manifest says, or else
the usual one. -/
def levelName (files : FileTree) (options : Options) : Except CommandError String := do
  if options.logLevel ≠ "" then
    pure options.logLevel
  else
    let manifest ← findManifest files options.manifest
    let level := (manifest.map (·.logLevel)).getD ""
    pure (if level = "" then "NOTICE" else level)

/-- The log level of an invocation. -/
def level (files : FileTree) (options : Options) : Except CommandError LogLevel := do
  let name ← levelName files options
  match LogLevel.ofName? name with
  | some level => pure level
  | none => .error (.badLevel name)

/-- The path of the source that a command is applied to. -/
def sourcePath (files : FileTree) (options : Options) (path : String) :
    Except CommandError String := do
  if path ≠ "" then
    pure path
  else
    match ← findManifest files options.manifest with
    | some manifest =>
      if manifest.entry = "" then
        .error (.noSource options.manifest)
      else
        pure (manifest.entryPath options.manifest)
    | none => .error (.noSource options.manifest)

/-- The tokens of the source at a path. -/
def loadTokens (files : FileTree) (input : Input) (path : String) : Logged (List Token) := do
  let source ← .ofExcept .source (SourceFile.load files input path)
  let tokens ← .ofExcept .lex (tokenize { bytes := source.text } source.name)
  .note (.ofString .debug "lexer"
    (source.name ++ ": " ++ Decimal.text tokens.length ++ " tokens"))
  pure tokens

/-- The program of the source at a path. -/
def loadProgram (files : FileTree) (input : Input) (path : String) : Logged Program := do
  let tokens ← loadTokens files input path
  let program ← .ofExcept .parse (Scriptlet.parse tokens)
  let count := Decimal.text program.length
  .note (.ofString .debug "parser" ("parsed " ++ count ++ " top level statements"))
  .note (.ofString .debug "main" (path ++ ": " ++ count ++ " statements"))
  pure program

/-- What a command does with the source at a path. -/
def sourceJob (files : FileTree) (input : Input) (path : String) : SourceCommand → Logged Job
  | .tokens => do
    let tokens ← loadTokens files input path
    pure (.print (Bytes.ofString ((Datum.tokens tokens).render 0 ++ "\n")))
  | .ast => do
    let program ← loadProgram files input path
    pure (.print (Bytes.ofString ((Datum.program program).render 0 ++ "\n")))
  | .fmt => do
    let program ← loadProgram files input path
    let text ← .ofExcept .format program.format
    pure (.print text)
  | .run => do
    let program ← loadProgram files input path
    pure (.execute program)

/-- Writes the manifest of a new module. -/
def initJob (files : FileTree) (options : Options) (name : String) : Logged Job := do
  if name = "" then
    .fail .noName
  else
    let path := options.manifest
    let changed ← .ofExcept (.notWritten path) (files.write path (Manifest.initial name).write)
    .note (.ofString .info "main" ("wrote " ++ path ++ " for " ++ name))
    pure (.store changed)

/-- Prepares a command. -/
def job (files : FileTree) (input : Input) (invocation : Invocation) : Logged Job :=
  match invocation.command with
  | .help => pure (.print [])
  | .unknown name => .fail (.unknownCommand name)
  | .init name => initJob files invocation.options name
  | .source command path => do
    let path ← .ofExcept id (sourcePath files invocation.options path)
    sourceJob files input path command

/-- The outcome of an invocation that fails. -/
def failure (files : FileTree) (trace : Bool) (output log : Bytes) (error : CommandError) :
    Outcome where
  code := error.exitCode
  output := output
  errors := log ++ error.report trace
  files := files

/-- The log line for something that a run did. -/
def recordLine (record : TraceRecord) : LogLine where
  level := .trace
  part := "interpreter"
  message := record.message

/-- The log line for the end of a run. -/
def finishLine (env : Environment) : LogLine :=
  .ofString .debug "interpreter"
    ("program finished with " ++ Decimal.text env.size ++ " bindings")

/-- The log of a run: what it did, and how many variables it ended with. -/
def runLog (run : RunResult) : List LogLine :=
  let lines := run.state.trace.map recordLine
  match run.ending with
  | .finished => lines ++ [finishLine run.state.env]
  | _ => lines

/-- The outcome of a run, unless it has not ended. -/
def runOutcome (files : FileTree) (trace : Bool) (level : LogLevel) (log : List LogLine)
    (run : RunResult) : Option Outcome :=
  let shown := LogLine.renderAll level (log ++ runLog run)
  match run.ending with
  | .finished => some { code := 0, output := run.state.output, errors := shown, files := files }
  | .failed error => some (failure files trace run.state.output shown (.run error))
  | .unfinished => none

/-- Carries out an invocation. A program may take some number of steps; if it needs
more, there is no outcome. -/
def carryOut (steps : Nat) (files : FileTree) (input : Input) (invocation : Invocation) :
    Option Outcome :=
  let trace := invocation.options.trace
  match level files invocation.options with
  | .error error => some (failure files trace [] [] error)
  | .ok level =>
    let prepared := job files input invocation
    let log := LogLine.renderAll level prepared.log
    match prepared.result with
    | .error error => some (failure files trace [] log error)
    | .ok (.print text) => some { code := 0, output := text, errors := log, files := files }
    | .ok (.store changed) => some { code := 0, output := [], errors := log, files := changed }
    | .ok (.execute program) =>
      runOutcome files trace level prepared.log (program.run .empty none steps)

/-- Reads a command line. -/
def ofArguments (arguments : List String) : Except UsageError Invocation := do
  let (options, rest) ← Options.read {} arguments
  let command ← if options.help then pure .help else Command.read rest
  pure ⟨options, command⟩

end Invocation

/-- Does what a command line asks for, in a file tree and with a standard input. -/
def invoke (steps : Nat) (files : FileTree) (input : Input) (arguments : List String) :
    Option Outcome :=
  match Invocation.ofArguments arguments with
  | .error error => some (Invocation.failure files false [] [] (.usage error))
  | .ok invocation => invocation.carryOut steps files input

end Scriptlet
