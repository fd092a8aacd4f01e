import Scriptlet.Run.Evaluation

/-!
# Execution of programs

A run works off a list of statements. Executing the first of them changes the
state of the run and puts statements in its place: the chosen block of a branch,
or the body of a loop followed by the loop itself. The run ends when no statement
is left, when one fails, or when its steps are used up.
-/

namespace Scriptlet

/-- What an executed statement did. -/
inductive Action where
  | assigned (name : String) (value : Value)
  | printed (value : Value)
deriving DecidableEq, Repr

/-- A record of an assignment or a print: where the statement starts and what it
did. -/
structure TraceRecord where
  position : Position
  action : Action
deriving DecidableEq, Repr

namespace TraceRecord

/-- A record as a line of the log. -/
def message (record : TraceRecord) : Bytes :=
  let place := Bytes.ofString (record.position.describe ++ ": ")
  match record.action with
  | .assigned name value => place ++ Bytes.ofString (name ++ " = ") ++ value.display
  | .printed value => place ++ Bytes.ofString "print " ++ value.display

end TraceRecord

/-- The state of a run: the variables, the lines printed and the records made, the
newest first, and how many more lines the output takes, if that is limited. -/
structure RunState where
  env : Environment := {}
  lines : List Bytes := []
  records : List TraceRecord := []
  room : Option Nat := none
deriving DecidableEq, Repr

namespace RunState

/-- The printed text. -/
def output (state : RunState) : Bytes :=
  state.lines.reverse.flatten

/-- The records in the order in which they were made. -/
def trace (state : RunState) : List TraceRecord :=
  state.records.reverse

/-- Adds a record. -/
def record (state : RunState) (position : Position) (action : Action) : RunState :=
  { state with records := ⟨position, action⟩ :: state.records }

/-- Binds a variable. -/
def bind (state : RunState) (name : String) (value : Value) : RunState :=
  { state with env := state.env.set name value }

/-- Prints a line, unless the output takes no more. -/
def write (state : RunState) (line : Bytes) : Except RunFailure RunState :=
  match state.room with
  | none => .ok { state with lines := line :: state.lines }
  | some 0 => .error .outputClosed
  | some (room + 1) => .ok { state with lines := line :: state.lines, room := some room }

/-- Executes a statement. Gives the statements that take its place, or why there
are none, and the state it leaves in either case. -/
def step (state : RunState) : Stmt → Except RunFailure (List Stmt) × RunState
  | .assign name value span =>
    match value.eval state.env with
    | .error failure => (.error failure, state)
    | .ok result =>
      (.ok [], (state.record span.start (.assigned name result)).bind name result)
  | .print value span =>
    match value.eval state.env with
    | .error failure => (.error failure, state)
    | .ok result =>
      let recorded := state.record span.start (.printed result)
      match recorded.write (result.display ++ Bytes.ofString "\n") with
      | .error failure => (.error failure, recorded)
      | .ok written => (.ok [], written)
  | .ifThen condition body _ =>
    match condition.holds state.env with
    | .error failure => (.error failure, state)
    | .ok true => (.ok body, state)
    | .ok false => (.ok [], state)
  | .ifElse condition body otherwise _ =>
    match condition.holds state.env with
    | .error failure => (.error failure, state)
    | .ok true => (.ok body, state)
    | .ok false => (.ok otherwise, state)
  | .whileDo condition body span =>
    match condition.holds state.env with
    | .error failure => (.error failure, state)
    | .ok true => (.ok (body ++ [.whileDo condition body span]), state)
    | .ok false => (.ok [], state)
  | .gap => (.error (.missing .statement), state)

end RunState

/-- How a run stands when no more steps are made. -/
inductive Ending where
  /-- All statements have been executed. -/
  | finished
  /-- A statement failed. -/
  | failed (failure : RunFailure)
  /-- The steps were used up before the end. -/
  | unfinished
deriving DecidableEq, Repr

/-- The result of a run. What was printed and bound before a failure is kept. -/
structure RunResult where
  state : RunState
  ending : Ending
deriving DecidableEq, Repr

/-- Executes statements for at most some number of steps. -/
def execute : Nat → List Stmt → RunState → RunResult
  | _, [], state => ⟨state, .finished⟩
  | 0, _ :: _, state => ⟨state, .unfinished⟩
  | steps + 1, statement :: rest, state =>
    match state.step statement with
    | (.ok inserted, state) => execute steps (inserted ++ rest) state
    | (.error failure, state) => ⟨state, .failed failure⟩

namespace Program

/-- Runs a program in an environment, with room for some lines of output. -/
def run (program : Program) (env : Environment) (room : Option Nat) (steps : Nat) : RunResult :=
  execute steps program { env := env, room := room }

end Program

end Scriptlet
