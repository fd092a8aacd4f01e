import Scriptlet.Code.Tree
import Scriptlet.Text.Escape
import Scriptlet.Text.Quoted

/-!
# Paths of imported packages

A usual path of a package is written between double quotes. Imports between
parentheses are sorted by path as far as they stand on successive lines, and none
is written twice.
-/

namespace Scriptlet

namespace Code

namespace PackagePath

/-- The path that is meant by a quoted text. -/
def meaning (spelling : String) : Bytes :=
  match spelling.toList with
  | '"' :: rest => (Escape.resolve '"' rest.dropLast).getD []
  | chars => Bytes.ofChars (chars.drop 1).dropLast

/-- Whether a character is usual in paths of packages. -/
def isUsual (char : Char) : Bool :=
  isPrintable char && !(['{', '}', '\'', '\x60', '\ufffd'].contains char) &&
    !" !\"#$%&()*,:;<=>?[\\]^|".toList.contains char

/-- A quoted path as it is written. -/
def standard (spelling : String) : String :=
  match (meaning spelling).toString? with
  | some path =>
    if path ≠ "" && path.toList.all isUsual then Quoted.text path else spelling
  | none => spelling

end PackagePath

namespace GoSpec

/-- What imports are sorted by: the path, and then the name. -/
def importKey : GoSpec → Bytes × String
  | .package name path => (PackagePath.meaning path.spelling, (name.map (·.spelling)).getD "")
  | _ => ([], "")

/-- The place where an import ends. -/
def importFinish : GoSpec → Place
  | .package _ path => path.place.afterText path.spelling
  | spec => spec.start

/-- An import at another place. -/
def moveImport (place : Place) : GoSpec → GoSpec
  | .package name path => .package (name.map ({ · with place })) { path with place }
  | spec => spec

/-- Puts an import at its place in a sorted list, unless it is there already. -/
def insertImport (entry : GoSpec) : List GoSpec → List GoSpec
  | [] => [entry]
  | other :: rest =>
    let (path, name) := entry.importKey
    let (otherPath, otherName) := other.importKey
    if path < otherPath ∨ (path = otherPath ∧ name < otherName) then
      entry :: other :: rest
    else if path = otherPath ∧ name = otherName then
      other :: rest
    else
      other :: insertImport entry rest

/-- Imports on successive lines in their order. They share the places among them. -/
def sortRun (run : List GoSpec) : List GoSpec :=
  match run with
  | [] | [_] => run
  | _ => List.zipWith moveImport (run.map start) (run.foldr insertImport [])

/-- Imports in their order. An empty line keeps them apart. -/
def sortImports (list : List GoSpec) : List GoSpec :=
  (list.splitBy fun entry next => next.start.line ≤ entry.importFinish.line + 1).flatMap sortRun

end GoSpec

namespace GoDecl

/-- A declaration with its imports in their order. Where comments stand among them, they
stay as they are. -/
def sortImports (comments : List Comment) : GoDecl → GoDecl
  | .group "import" place (some (opening, closing)) list =>
    let isCommented := comments.any fun comment =>
      opening.offset < comment.place.offset && comment.place.offset < closing.offset
    .group "import" place (some (opening, closing))
      (if isCommented then list else GoSpec.sortImports list)
  | declaration => declaration

end GoDecl

end Code

end Scriptlet
