import Scriptlet.Code.Symbol
import Scriptlet.SumType.StandardPackage
import Scriptlet.Text.Chars
import Scriptlet.Text.Decimal
import Scriptlet.Text.Quoted

/-!
# Imports of generated code

Every package that the generated Go code uses is imported once and gets a name in
it. Packages of the standard library keep their own names. For any other package
the name is made from its path and is always written down. A number is added to a
name that is reserved or taken.
-/

namespace Scriptlet

namespace SumType

/-- An imported package with its name. -/
structure Import where
  path : String
  name : String
  /-- Whether the name is written in front of the path. -/
  named : Bool
deriving DecidableEq, Repr

namespace Import

/-- The names that Go declares by itself, and the usual name of an error. -/
def predeclared : List String :=
  ["bool", "byte", "complex64", "complex128", "error", "float32", "float64", "int", "int8",
    "int16", "int32", "int64", "rune", "string", "uint", "uint8", "uint16", "uint32", "uint64",
    "uintptr", "true", "false", "iota", "nil", "append", "cap", "close", "complex", "copy",
    "delete", "imag", "len", "make", "new", "panic", "print", "println", "real", "recover", "err"]

/-- The text behind the last slash of a path, except for a slash at its end. -/
def lastPart (path : String) : List Char :=
  let chars := path.toList
  let trimmed := if chars.getLast? = some '/' then chars.dropLast else chars
  (splitAt '/' trimmed).getLastD []

/-- A character in lower case, as far as names need it. The Kelvin sign becomes a
letter, and so does the capital `I` with a dot. -/
def lower (char : Char) : Char :=
  if char = '\u212a' then 'k' else if char = '\u0130' then 'i' else char.toLower

def isNameChar (char : Char) : Bool :=
  ('a' ≤ char ∧ char ≤ 'z') ∨ ('0' ≤ char ∧ char ≤ '9')

/-- The name that is made from a path: small letters and digits, a letter first. -/
def nameOfPath (path : String) : String :=
  match (((lastPart path).map lower).filter isNameChar).dropWhile Char.isDigit with
  | [] => "pkg"
  | chars => String.ofList chars

/-- The name of a package before other imports are looked at. -/
def ownName (path : String) : String :=
  if standard.contains path then String.ofList (lastPart path) else nameOfPath path

/-- Whether a name can be given to one more package. -/
def isFree (imports : List Import) (name : String) : Bool :=
  !Code.Symbol.keywords.contains name && !predeclared.contains name &&
    !(imports.map (·.name)).contains name

/-- A name, or else the name with the first number that makes it free. There are
more numbers to try than names to avoid. -/
def freeName (imports : List Import) (name : String) : String :=
  let count := Code.Symbol.keywords.length + predeclared.length + imports.length + 1
  let numbered := (List.range count).map fun number => name ++ Decimal.text (number + 1 : Nat)
  ((name :: numbered).find? (isFree imports)).getD name

/-- Adds a package, unless it is imported already. -/
def add (imports : List Import) (path : String) : List Import :=
  if (imports.map (·.path)).contains path then
    imports
  else
    let own := ownName path
    let name := if path = "C" then own else freeName imports own
    imports ++ [⟨path, name, !standard.contains path || name != own⟩]

/-- The imports for packages in the order of their use. -/
def ofPaths (paths : List String) : List Import :=
  paths.foldl add []

/-- The name of a package. -/
def nameOf (imports : List Import) (path : String) : String :=
  ((imports.find? fun entry => entry.path == path).map (·.name)).getD ""

/-- An import as it is written. -/
def render (entry : Import) : String :=
  (if entry.named then entry.name ++ " " else "") ++ Quoted.text entry.path

/-- Puts an import at its place in a list that is sorted by path. -/
def insert (entry : Import) : List Import → List Import
  | [] => [entry]
  | other :: rest =>
    if other.path < entry.path then other :: insert entry rest else entry :: other :: rest

/-- Sorts imports by path. -/
def sort (imports : List Import) : List Import :=
  imports.foldr insert []

/-- The lines that import the packages. -/
def renderAll (imports : List Import) : List String :=
  match sort imports with
  | [] => []
  | [entry] => ["import " ++ entry.render]
  | entries => ["import ("] ++ entries.map (fun entry => "\t" ++ entry.render) ++ [")"]

end Import

end SumType

end Scriptlet
