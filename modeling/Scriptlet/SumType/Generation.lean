import Scriptlet.Code.Draft
import Scriptlet.SumType.Import
import Scriptlet.SumType.TypeExpr

/-!
# Generated code

The Go code for a description. A sum type becomes an interface with a marker
method. Each variant becomes a type with that method. A visitor interface has one
method for each variant, and a function calls the method for the variant at hand.
-/

namespace Scriptlet

namespace SumType

open Code (Row Piece Draft)

/-- Why no code can be generated. -/
inductive CodeError where
  /-- A variant has braces and no fields. -/
  | noFields (variant : String)
  /-- A name is a keyword. -/
  | badName (name : String)
  /-- What is generated cannot be read as code. -/
  | unreadable
deriving DecidableEq, Repr

namespace Generation

/-- Something between braces, a line for each item. -/
def braced (head : String) (items : List String) : List String :=
  [head ++ " " ++ braceOpen] ++ items.map ("\t" ++ ·) ++ [braceClose]

/-- Checks that a name is no keyword. -/
def checkName (name : String) : Except CodeError Unit :=
  if Code.Symbol.keywords.contains name then .error (.badName name) else .ok ()

/-- A type before it is brought into form. -/
def typeText (imports : List Import) : TypeExpr → String
  | .slice element => "[] " ++ typeText imports element
  | .pointer target => "* " ++ typeText imports target
  | .imported path name => Import.nameOf imports path ++ "." ++ name
  | .written text => text

/-- The text of the type that a variant or a field is written with. -/
def kindText (description : Description) (imports : List Import) (kind : String) : String :=
  typeText imports (.ofKind description.imports kind)

/-- The declaration of a type, which has to be brought into form. -/
def declare (name type : String) : Piece :=
  .text ("type " ++ name ++ " " ++ type)

/-- The text of a structure with some fields. -/
def recordText (description : Description) (imports : List Import) (fields : List Field) :
    String :=
  let lines := fields.map fun field =>
    field.name ++ " " ++ kindText description imports field.kind ++ "\n"
  "struct" ++ inBraces ("\n" ++ String.join lines)

/-- The type of a variant. If it holds a value of a sum type, it is a structure
with that value inside. -/
def variantType (description : Description) (imports : List Import) (variant : Variant) :
    Except CodeError Piece :=
  match variant.content with
  | .record [] => .error (.noFields variant.name)
  | .record fields => .ok (declare variant.name (recordText description imports fields))
  | .value kind =>
    if description.isSum kind then
      .ok (declare variant.name ("struct" ++ inBraces ("\n" ++ kind ++ "\n")))
    else
      .ok (declare variant.name (kindText description imports kind))

/-- The method by which a variant belongs to a sum type. The braces have a column. -/
def markerMethod (sum : String) (variant : Variant) : Piece :=
  .rows "func" none
    [{ cells := [{ text := "func (v " ++ variant.name ++ ") is_" ++ sum ++ "()" }]
       text := inBraces "" }]

/-- The interface of a sum type. -/
def sumInterface (sum : String) : Piece :=
  .rows "type" none
    ((braced ("type " ++ sum ++ " interface") ["is_" ++ sum ++ "()"]).map Row.ofLine)

/-- The interface of visitors of a sum type. -/
def visitorInterface (sum : String) (variants : List Variant) : Piece :=
  let lines :=
    braced ("type " ++ sum ++ "Visitor[R any] interface")
      (variants.map fun variant =>
        "Visit" ++ variant.name ++ "(" ++ variant.name ++ ") (R, error)")
  .rows "type" (some ("// " ++ sum ++ "Visitor has one method per " ++ sum ++ " variant."))
    (lines.map Row.ofLine)

/-- The lines that call a visitor for a variant. -/
def dispatchLines (variant : Variant) : List String :=
  ["case " ++ variant.name ++ ":", "\treturn v.Visit" ++ variant.name ++ "(n)"]

/-- The function that calls the method of a visitor for the variant at hand. -/
def visitFunction (imports : List Import) (sum : String) (variants : List Variant) : Piece :=
  let lines :=
    braced
      ("func Visit" ++ sum ++ "[R any](node " ++ sum ++ ", v " ++ sum ++
        "Visitor[R]) (R, error)")
      (["switch n := node.(type) " ++ braceOpen] ++ variants.flatMap dispatchLines ++
        [braceClose, "var zero R",
          "return zero, " ++ Import.nameOf imports "fmt" ++ ".Errorf(" ++
            Quoted.text ("unknown " ++ sum ++ " variant %T") ++ ", node)"])
  .rows "func"
    (some ("// Visit" ++ sum ++ " dispatches node to the method of v handling its variant."))
    (lines.map Row.ofLine)

/-- The pieces for a variant: its type and its marker method. -/
def variantPieces (description : Description) (imports : List Import) (sum : String)
    (variant : Variant) : Except CodeError (List Piece) := do
  pure [← variantType description imports variant, markerMethod sum variant]

/-- The pieces for a declaration. Without variants there are none. -/
def declarationPieces (description : Description) (imports : List Import)
    (declaration : Declaration) : Except CodeError (List Piece) := do
  match declaration.meaning with
  | .plain kind => pure [declare declaration.name (kindText description imports kind)]
  | .sum [] => pure []
  | .sum variants =>
    checkName declaration.name
    let pieces ← variants.mapM (variantPieces description imports declaration.name)
    pure ([sumInterface declaration.name] ++ pieces.flatten ++
      [visitorInterface declaration.name variants,
        visitFunction imports declaration.name variants])

/-- The package that a kind comes from, if it comes from one. -/
def kindPackages (description : Description) (kind : String) : List String :=
  (TypeExpr.ofKind description.imports kind).package?.toList

/-- The packages that a variant uses. -/
def variantPackages (description : Description) (variant : Variant) : List String :=
  match variant.content with
  | .record fields => fields.flatMap fun field => kindPackages description field.kind
  | .value kind => if description.isSum kind then [] else kindPackages description kind

/-- The packages that a declaration uses, in the order of their use. The function
of a sum type needs a package for its error. -/
def declarationPackages (description : Description) (declaration : Declaration) : List String :=
  match declaration.meaning with
  | .plain kind => kindPackages description kind
  | .sum [] => []
  | .sum variants => variants.flatMap (variantPackages description) ++ ["fmt"]

/-- The imports of the code for a description. -/
def imports (description : Description) : List Import :=
  Import.ofPaths (description.declarations.flatMap (declarationPackages description))

/-- The piece that imports packages, if there are any. -/
def importPieces (imports : List Import) : List Piece :=
  if imports.isEmpty then [] else [.rows "import" none ((Import.renderAll imports).map Row.ofLine)]

end Generation

namespace Description

/-- The code for a description as a package with a name, before it is brought into
form. -/
def draft (description : Description) (package : String) : Except CodeError Draft := do
  let imports := Generation.imports description
  let pieces ←
    description.declarations.mapM (Generation.declarationPieces description imports)
  pure
    { comment := "// Code generated by adtGen. DO NOT EDIT."
      package
      pieces := Generation.importPieces imports ++ pieces.flatten }

/-- The code for a description as a package with a name, where a draft is brought into form in a
given way. -/
def codeWith (render : Draft → Option (List String)) (description : Description)
    (package : String) : Except CodeError String := do
  match render (← description.draft package) with
  | some lines => .ok (String.join (lines.map (· ++ "\n")))
  | none => .error .unreadable

/-- The code for a description as a package with a name. -/
def code (description : Description) (package : String) : Except CodeError String :=
  description.codeWith Draft.lines? package

end Description

end SumType

end Scriptlet
