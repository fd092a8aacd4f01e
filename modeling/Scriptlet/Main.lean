import Scriptlet.Command.Invocation

/-!
# The program

Runs a command line on the real files and streams. The files that an invocation
can ask for are looked at first; a running program prints as it goes.
-/

namespace Scriptlet

namespace Terminal

/-- Adds what stands at a path, if anything does. A directory shows itself when it
is read. -/
def look (tree : FileTree) (path : String) : IO FileTree := do
  try
    let content ← IO.FS.readBinFile path
    pure (tree.add path content.toList)
  catch error =>
    match error with
    | .inappropriateType none _ _ => pure (tree.add (path ++ "/") [])
    | .inappropriateType _ _ _ => pure tree
    | .noFileOrDirectory _ _ _ => pure tree
    | _ => throw error

/-- Adds what stands at a path and at all places on the way. -/
def observe (tree : FileTree) (path : String) : IO FileTree :=
  let names := Path.parts path
  let paths := (List.range names.length).map fun count => Path.join (names.take (count + 1))
  (paths.filter (· ≠ "")).foldlM look tree

/-- Reads a stream to its end. -/
partial def readAll (stream : IO.FS.Stream) (chunks : List Bytes) : IO Bytes := do
  let chunk ← stream.read 65536
  if chunk.isEmpty then
    pure chunks.reverse.flatten
  else
    readAll stream (chunk.toList :: chunks)

/-- The standard input, with the fault that cuts it short. -/
def readInput : IO Input := do
  try
    pure { bytes := ← readAll (← IO.getStdin) [] }
  catch error =>
    pure { bytes := [], fault := some error.toString }

def print (bytes : Bytes) : IO Unit := do
  (← IO.getStdout).write bytes.toByteArray

def printError (bytes : Bytes) : IO Unit := do
  (← IO.getStderr).write bytes.toByteArray

/-- Reports why an invocation fails. -/
def fail (options : Options) (error : CommandError) : IO UInt32 := do
  printError (error.report options.trace)
  pure error.exitCode.toUInt32

/-- Runs statements to their end and prints what they print. -/
partial def run (options : Options) (level : LogLevel) (statements : List Stmt)
    (state : RunState) : IO UInt32 := do
  match statements with
  | [] =>
    printError (LogLine.renderAll level [Invocation.finishLine state.env])
    pure 0
  | statement :: rest =>
    let (outcome, state) := state.step statement
    printError (LogLine.renderAll level (state.trace.map Invocation.recordLine))
    print state.output
    match outcome with
    | .ok inserted => run options level (inserted ++ rest) { env := state.env }
    | .error failure => fail options (.run failure)

/-- Stores the files that an invocation has written. -/
def store (before after : FileTree) : IO Unit :=
  (after.changesSince before).forM fun (place, content) =>
    IO.FS.writeBinFile place.path content.toByteArray

/-- The files and the input that an invocation can ask for. -/
def gather (invocation : Invocation) : IO (FileTree × Input) := do
  let tree ← observe {} invocation.options.manifest
  match invocation.command with
  | .source _ path =>
    match Invocation.sourcePath tree invocation.options path with
    | .error _ => pure (tree, { bytes := [] })
    | .ok path =>
      if path = SourceFile.inputPath then
        pure (tree, ← readInput)
      else
        pure (← observe tree path, { bytes := [] })
  | _ => pure (tree, { bytes := [] })

/-- Carries out an invocation. -/
def carryOut (invocation : Invocation) : IO UInt32 := do
  let options := invocation.options
  let (tree, input) ← gather invocation
  match Invocation.level tree options with
  | .error error => fail options error
  | .ok level =>
    let prepared := Invocation.job tree input invocation
    printError (LogLine.renderAll level prepared.log)
    match prepared.result with
    | .error error => fail options error
    | .ok (.print text) =>
      print text
      pure 0
    | .ok (.store changed) =>
      store tree changed
      pure 0
    | .ok (.execute program) => run options level program {}

end Terminal

end Scriptlet

/-- The entry point of the program. -/
def main (arguments : List String) : IO UInt32 :=
  match Scriptlet.Invocation.ofArguments arguments with
  | .ok invocation => Scriptlet.Terminal.carryOut invocation
  | .error error => Scriptlet.Terminal.fail {} (.usage error)
