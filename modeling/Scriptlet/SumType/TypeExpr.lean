import Scriptlet.SumType.Basic
import Scriptlet.SumType.Word

/-!
# Type expressions

Types are written as texts: slices and pointers of other types, types of imported
packages, and everything else as it stands.
-/

namespace Scriptlet

namespace SumType

/-- A text without the double quotes or backquotes around it. -/
def unquote (chars : List Char) : List Char :=
  match chars with
  | first :: rest =>
    if (first = '"' ∨ first = '\x60') ∧ rest.getLast? = some first then rest.dropLast else chars
  | [] => []

/-- What is left of a text without its quotes is not longer than the text. -/
theorem length_unquote_le (chars : List Char) : (unquote chars).length ≤ chars.length := by
  unfold unquote
  split
  · split
    · simp only [List.length_dropLast, List.length_cons]
      omega
    · exact Nat.le_refl _
  · exact Nat.le_refl _

/-- The last name of the path of a package. -/
def baseName (path : String) : String :=
  match (path.toList.reverse.dropWhile (· = '/')).takeWhile (· ≠ '/') with
  | [] => if path = "" then "." else "/"
  | chars => String.ofList chars.reverse

/-- A type in generated code. -/
inductive TypeExpr where
  | slice (element : TypeExpr)
  | pointer (target : TypeExpr)
  /-- A type of the package with a path. -/
  | imported (path name : String)
  /-- A type that is written as it stands. -/
  | written (text : String)
deriving DecidableEq, Repr

namespace TypeExpr

/-- The type with a name that may start with the name of a package. Of the imports
with that name, the first is meant. -/
def ofName (imports : List String) (chars : List Char) : TypeExpr :=
  match chars.span (· ≠ '.') with
  | (_, []) => .written (String.ofList chars)
  | (qualifier, _ :: name) =>
    let paths := imports.map fun path => String.ofList (unquote path.toList)
    match paths.find? fun path => baseName path == String.ofList qualifier with
    | some path => .imported path (String.ofList name)
    | none => .written (String.ofList chars)

/-- Reads a type, part by part. -/
def ofChars (imports : List String) (chars : List Char) : TypeExpr :=
  match _shape : unquote chars with
  | '[' :: ']' :: element => .slice (ofChars imports element)
  | '*' :: target => .pointer (ofChars imports target)
  | name => ofName imports name
termination_by chars.length
decreasing_by
  all_goals
    have shorter := length_unquote_le chars
    rw [_shape] at shorter
    simp only [List.length_cons] at shorter
    omega

/-- Reads the type of a field, a variant or a declaration. -/
def ofKind (imports : List String) (kind : String) : TypeExpr :=
  ofChars imports kind.toList

/-- The package that a type comes from. -/
def package? : TypeExpr → Option String
  | .slice element => element.package?
  | .pointer target => target.package?
  | .imported path _ => some path
  | .written _ => none

end TypeExpr

end SumType

end Scriptlet
