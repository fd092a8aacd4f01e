import Scriptlet.Text.Chars

/-!
# Paths

A path is a list of names with slashes between them. Cleaning a path removes
what does not change where it leads: doubled slashes, `.`, and a name with the
`..` that follows it.
-/

namespace Scriptlet

namespace Path

/-- The names of a path, from left to right. Neighbouring slashes have an empty
name between them. -/
def parts (path : String) : List String :=
  (splitAt '/' path.toList).map String.ofList

/-- Names with slashes between them. -/
def join (names : List String) : String :=
  "/".intercalate names

/-- Whether a path starts at the root of the file system. -/
def isAbsolute (path : String) : Bool :=
  path.toList.head? == some '/'

/-- Adds a name to a clean path, whose last name comes first. Going up from the
root stays there; going up from the start of a relative path is kept. -/
def push (absolute : Bool) (stack : List String) (name : String) : List String :=
  if name = "" ∨ name = "." then
    stack
  else if name = ".." then
    match stack with
    | [] => if absolute then [] else [".."]
    | top :: rest => if top = ".." then ".." :: stack else rest
  else
    name :: stack

/-- The names of a path after cleaning. -/
def cleanParts (path : String) : List String :=
  ((parts path).foldl (push (isAbsolute path)) []).reverse

/-- The shortest path that leads to the same place. -/
def clean (path : String) : String :=
  let names := join (cleanParts path)
  if isAbsolute path then
    "/" ++ names
  else if names = "" then
    "."
  else
    names

/-- The directory that a path lies in. -/
def directory (path : String) : String :=
  let upToSlash := path.toList.reverse.dropWhile (· ≠ '/')
  clean (String.ofList upToSlash.reverse)

/-- Where a path leads if it starts in a directory. -/
def within (directory path : String) : String :=
  clean (directory ++ "/" ++ path)

end Path

end Scriptlet
