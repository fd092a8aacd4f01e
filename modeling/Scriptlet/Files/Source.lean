import Scriptlet.Files.Tree
import Scriptlet.Text.Bytes

/-!
# Source files

A source comes from a file or, if the path is a dash, from the standard input.
-/

namespace Scriptlet

/-- The text of a source and the name by which messages call it. -/
structure SourceFile where
  text : Bytes
  name : String
deriving DecidableEq, Repr

/-- Why a source cannot be had. -/
inductive SourceError where
  | file (error : FileError)
  | input (fault : String)
deriving DecidableEq, Repr

namespace SourceError

def message : SourceError → String
  | .file error => error.message
  | .input fault => fault

end SourceError

namespace SourceFile

/-- The path that stands for the standard input. -/
def inputPath : String := "-"

/-- The name of the standard input in messages. -/
def inputName : String := "<stdin>"

/-- Gets the source at a path. -/
def load (tree : FileTree) (input : Input) (path : String) : Except SourceError SourceFile :=
  if path = inputPath then
    match input.readAll with
    | .ok text => .ok ⟨text, inputName⟩
    | .error fault => .error (.input fault)
  else
    match tree.read path with
    | .ok text => .ok ⟨text, path⟩
    | .error error => .error (.file error)

end SourceFile

end Scriptlet
