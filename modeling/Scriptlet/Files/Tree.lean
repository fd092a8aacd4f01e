import Scriptlet.Files.Path
import Scriptlet.Text.Bytes

/-!
# File trees

The files and directories that a command can see. A place is the list of names
that lead to it from the working directory; places above that directory start
with `..`, and absolute ones with `/`.

Following a path goes through it name by name. Every name but the last has to be
a directory, also when `..` follows it.
-/

namespace Scriptlet

/-- What can stand at a place. -/
inductive FileEntry where
  | file (content : Bytes)
  | directory
deriving DecidableEq, Repr

/-- Why a file cannot be used. -/
inductive FileFault where
  | missing
  | notDirectory
  | isDirectory
deriving DecidableEq, Repr

namespace FileFault

def message : FileFault → String
  | .missing => "no such file or directory"
  | .notDirectory => "not a directory"
  | .isDirectory => "is a directory"

end FileFault

/-- A failed operation on the file at a path. -/
structure FileError where
  operation : String
  path : String
  fault : FileFault
deriving DecidableEq, Repr

namespace FileError

def message (error : FileError) : String :=
  error.operation ++ " " ++ error.path ++ ": " ++ error.fault.message

end FileError

/-- The names that lead to a place. -/
abbrev Place := List String

namespace Place

/-- The place one level up. -/
def parent (place : Place) : Place :=
  match place.getLast? with
  | none => [".."]
  | some ".." => place ++ [".."]
  | some "/" => place
  | some _ => place.dropLast

/-- The place that a name leads to. -/
def move (place : Place) (name : String) : Place :=
  if name = "" ∨ name = "." then
    place
  else if name = ".." then
    place.parent
  else
    place ++ [name]

/-- Whether a place is the working directory, the root or a directory above. Such
places are always there. -/
def isGiven (place : Place) : Bool :=
  place == ["/"] || place.all (· == "..")

/-- Where a path starts. -/
def origin (path : String) : Place :=
  if Path.isAbsolute path then ["/"] else []

/-- The place as a path. -/
def path : Place → String
  | "/" :: names => "/" ++ Path.join names
  | names => Path.join names

end Place

/-- Files and directories with their places. -/
structure FileTree where
  entries : List (Place × FileEntry) := []
deriving DecidableEq, Repr

namespace FileTree

/-- What stands at a place. -/
def entry? (tree : FileTree) (place : Place) : Option FileEntry :=
  if place.isGiven then some .directory else tree.entries.lookup place

/-- Puts an entry in place of an earlier one. -/
def replace (place : Place) (entry : FileEntry) :
    List (Place × FileEntry) → List (Place × FileEntry)
  | [] => [(place, entry)]
  | (other, held) :: rest =>
    if place = other then
      (place, entry) :: rest
    else
      (other, held) :: replace place entry rest

/-- The tree with an entry at a place. -/
def set (tree : FileTree) (place : Place) (entry : FileEntry) : FileTree where
  entries := replace place entry tree.entries

/-- Follows a name from a place, which must be a directory. -/
def enter (tree : FileTree) (place : Place) (name : String) : Except FileFault Place :=
  match tree.entry? place with
  | none => .error .missing
  | some (.file _) => .error .notDirectory
  | some .directory => .ok (place.move name)

/-- Follows names one after another. -/
def follow (tree : FileTree) (place : Place) : List String → Except FileFault Place
  | [] => .ok place
  | name :: rest => do
    let next ← tree.enter place name
    tree.follow next rest

/-- What a path leads to. The empty path leads nowhere. -/
def find (tree : FileTree) (path : String) : Except FileFault FileEntry := do
  if path = "" then
    .error .missing
  else
    let place ← tree.follow (.origin path) (Path.parts path)
    match tree.entry? place with
    | some entry => pure entry
    | none => .error .missing

/-- Whether a path leads to anything. Only a path that ends in nothing does not;
one that is blocked by a file might. -/
def isPresent (tree : FileTree) (path : String) : Bool :=
  match tree.find path with
  | .error .missing => false
  | _ => true

/-- The content of the file at a path. -/
def read (tree : FileTree) (path : String) : Except FileError Bytes :=
  match tree.find path with
  | .ok (.file content) => .ok content
  | .ok .directory => .error ⟨"read", path, .isDirectory⟩
  | .error fault => .error ⟨"open", path, fault⟩

/-- The names of a path up to the slashes at its end. -/
def namesBeforeSlash (path : String) : List String :=
  ((Path.parts path).reverse.dropWhile (· = "")).reverse

/-- Whether the last name of a path can only be that of a directory. -/
def namesDirectory (path : String) : Bool :=
  ["", ".", ".."].contains ((Path.parts path).getLastD "")

/-- The place of a file that is to be written at a path. The directory must be
there, and no directory may stand at the place. -/
def target (tree : FileTree) (path : String) : Except FileFault Place := do
  if path = "" then
    .error .missing
  else
    let names := namesBeforeSlash path
    let directory ← tree.follow (.origin path) names.dropLast
    let place ← tree.enter directory (names.getLastD "")
    if namesDirectory path ∨ tree.entry? place = some .directory then
      .error .isDirectory
    else
      pure place

/-- The tree after a file has been written. -/
def write (tree : FileTree) (path : String) (content : Bytes) : Except FileError FileTree :=
  match tree.target path with
  | .ok place => .ok (tree.set place (.file content))
  | .error fault => .error ⟨"open", path, fault⟩

/-- Adds directories for a place and all places above it. -/
def addDirectory (tree : FileTree) (place : Place) : FileTree :=
  (List.range (place.length + 1)).foldl
    (fun tree depth =>
      let above := place.take depth
      if (tree.entry? above).isNone then tree.set above .directory else tree)
    tree

/-- Adds a file or, if the path ends in a slash, a directory, together with the
directories above it. -/
def add (tree : FileTree) (path : String) (content : Bytes) : FileTree :=
  let place : Place :=
    if Path.isAbsolute path then "/" :: Path.cleanParts path else Path.cleanParts path
  if (Path.parts path).getLastD "" = "" then
    tree.addDirectory place
  else
    (tree.addDirectory place.dropLast).set place (.file content)

/-- The files of a tree that are not in another tree, or not with this content. -/
def changesSince (tree before : FileTree) : List (Place × Bytes) :=
  tree.entries.filterMap fun (place, entry) =>
    match entry with
    | .directory => none
    | .file content =>
      if before.entry? place = some (.file content) then none else some (place, content)

end FileTree

end Scriptlet
