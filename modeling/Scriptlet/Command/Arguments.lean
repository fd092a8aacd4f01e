import Scriptlet.Manifest.Basic

/-!
# Command lines

A command line has options, then the name of a command, then what the command is
applied to. Two dashes end the options, of the whole line or of a command.

Asking for help is covered in its simplest forms only: the command without a topic, and the
option in front of a command. A library for command lines commonly does more, and this
module does not follow it there. A topic behind the help command is passed over, also where
no command has that name, instead of being an error with the status three. An option for
help behind the name of a command is an undefined option, like any other there, instead of
a question about the command. And the option in front does not come before the log level:
with a level that does not exist, the invocation fails.
-/

namespace Scriptlet

/-- The options in front of the command. -/
structure Options where
  manifest : String := Manifest.defaultPath
  logLevel : String := ""
  trace : Bool := false
  help : Bool := false
deriving DecidableEq, Repr

/-- What can be done with a source. -/
inductive SourceCommand where
  | run
  | tokens
  | ast
  | fmt
deriving DecidableEq, Repr

/-- What a command line asks for. -/
inductive Command where
  /-- To say how the program is used. -/
  | help
  /-- To write the manifest of a new module. -/
  | init (name : String)
  /-- To do something with the source at a path, or with the entry of the manifest
  if the path is empty. -/
  | source (command : SourceCommand) (path : String)
  /-- Something that is no command. -/
  | unknown (name : String)
deriving DecidableEq, Repr

/-- A command line that has been understood. -/
structure Invocation where
  options : Options
  command : Command
deriving DecidableEq, Repr

/-- What is wrong with the options of a command line. -/
inductive UsageError where
  | badSyntax (argument : String)
  | undefinedOption (name : String)
  | missingValue (name : String)
  | badTruth (name value : String)
deriving DecidableEq, Repr

namespace UsageError

def message : UsageError → String
  | .badSyntax argument => "bad flag syntax: " ++ argument
  | .undefinedOption name => "flag provided but not defined: -" ++ name
  | .missingValue name => "flag needs an argument: -" ++ name
  | .badTruth name value =>
    "invalid boolean value \"" ++ value ++ "\" for -" ++ name ++ ": parse error"

end UsageError

/-- What an argument is by its looks. -/
inductive Argument where
  | plain
  | stop
  | option (name : String) (value : Option String)
  | malformed
deriving DecidableEq, Repr

namespace Argument

/-- Takes the text of an option apart at its equals sign. -/
def ofOption (chars : List Char) : Argument :=
  let (name, value) := chars.span (· ≠ '=')
  match name, value with
  | [], _ => .malformed
  | '-' :: _, _ => .malformed
  | _, [] => .option (String.ofList name) none
  | _, _ :: value => .option (String.ofList name) (some (String.ofList value))

/-- Looks at an argument. One or two dashes start an option, a dash alone does
not. -/
def classify (argument : String) : Argument :=
  match argument.toList with
  | ['-', '-'] => .stop
  | '-' :: '-' :: chars => ofOption chars
  | '-' :: char :: chars => ofOption (char :: chars)
  | _ => .plain

end Argument

namespace Options

/-- The truth value that a text spells. -/
def readTruth? (text : String) : Option Bool :=
  if ["1", "t", "T", "TRUE", "true", "True"].contains text then
    some true
  else if ["0", "f", "F", "FALSE", "false", "False"].contains text then
    some false
  else
    none

/-- Sets an option that takes a text. -/
def setText? (options : Options) (name value : String) : Option Options :=
  match name with
  | "manifest" => some { options with manifest := value }
  | "log-level" => some { options with logLevel := value }
  | _ => none

/-- Sets an option that is on or off. -/
def setTruth? (options : Options) (name : String) (value : Bool) : Option Options :=
  match name with
  | "trace" => some { options with trace := value }
  | "help" => some { options with help := value }
  | "h" => some { options with help := value }
  | _ => none

/-- Sets an option whose value may be part of the argument. Nothing comes out if
the value has yet to come. -/
def set (options : Options) (name : String) (value : Option String) :
    Except UsageError (Option Options) :=
  match options.setTruth? name true, value with
  | some on, none => .ok (some on)
  | some _, some text =>
    match readTruth? text with
    | some truth => .ok (options.setTruth? name truth)
    | none => .error (.badTruth name text)
  | none, none =>
    if (options.setText? name "").isSome then .ok none else .error (.undefinedOption name)
  | none, some text =>
    match options.setText? name text with
    | some changed => .ok (some changed)
    | none => .error (.undefinedOption name)

/-- Reads options up to the first other argument. -/
def read (options : Options) : List String → Except UsageError (Options × List String)
  | [] => .ok (options, [])
  | [argument] =>
    match Argument.classify argument with
    | .plain => .ok (options, [argument])
    | .stop => .ok (options, [])
    | .malformed => .error (.badSyntax argument)
    | .option name value =>
      match options.set name value with
      | .error error => .error error
      | .ok (some changed) => .ok (changed, [])
      | .ok none => .error (.missingValue name)
  | argument :: next :: rest =>
    match Argument.classify argument with
    | .plain => .ok (options, argument :: next :: rest)
    | .stop => .ok (options, next :: rest)
    | .malformed => .error (.badSyntax argument)
    | .option name value =>
      match options.set name value with
      | .error error => .error error
      | .ok (some changed) => changed.read (next :: rest)
      | .ok none => ((options.setText? name next).getD options).read rest

end Options

namespace Command

/-- What a command is applied to: the first argument behind its name. Commands
have no options of their own. -/
def firstArgument : List String → Except UsageError String
  | [] => .ok ""
  | argument :: rest =>
    match Argument.classify argument with
    | .plain => .ok argument
    | .stop => .ok (rest.headD "")
    | .malformed => .error (.badSyntax argument)
    | .option name _ => .error (.undefinedOption name)

/-- The command with a name, if there is one, applied to an argument. -/
def ofName? (name : String) : Option (String → Command) :=
  match name with
  | "init" => some .init
  | "run" => some (.source .run)
  | "tokens" => some (.source .tokens)
  | "ast" => some (.source .ast)
  | "fmt" => some (.source .fmt)
  | _ => none

/-- Reads the name of a command and its arguments. -/
def read : List String → Except UsageError Command
  | [] => .ok .help
  | name :: rest =>
    if name = "" ∨ name = "help" ∨ name = "h" then
      .ok .help
    else
      match ofName? name with
      | some command => (firstArgument rest).map command
      | none => .ok (.unknown name)

end Command

end Scriptlet
