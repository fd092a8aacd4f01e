import Scriptlet.Proofs.Code.Declarations
import Scriptlet.Proofs.SumType.Kinds

/-!
# What generated code declares

The declarations that the code for a description consists of, as trees without places. A sum type
is an interface. Every variant of it is a type with a marker method, has a method in the interface
of visitors, and has a case in the function that calls this method.
-/

namespace Scriptlet

namespace SumType

open Code (GoExpr GoStmt GoDecl GoSpec Member Members)

namespace Tree

/-- Parts of a list that have no names. -/
def unnamed (contents : List GoExpr) : List (Member GoExpr) :=
  contents.map (.ofNames [])

/-- The parameter of a visitor and of the function that calls it: any type of results. -/
def resultParameter : Members GoExpr where
  list := [.ofNames ["R"] (.ofName "any")]

/-- What a visitor gives: a result and an error. -/
def visitResults : Members GoExpr where
  list := unnamed [.ofName "R", .ofName "error"]

/-- The interface of a sum type has a marker method. -/
def sumInterface (sum : String) : GoDecl :=
  .ofType sum {} (.ofElements [.ofNames ["is_" ++ sum] (.function {} {} {})])

/-- The method by which a variant belongs to a sum type. It does nothing. -/
def markerMethod (sum : String) (variant : Variant) : GoDecl :=
  .function {} true { list := [.ofNames ["v"] (.ofName variant.name)] } ⟨{}, "is_" ++ sum⟩ {} {} {}
    (some ⟨[], {}, {}⟩) 0

/-- The method of a visitor for a variant takes a value of it. -/
def visitMethod (variant : Variant) : Member GoExpr :=
  .ofNames ["Visit" ++ variant.name]
    (.function {} { list := unnamed [.ofName variant.name] } visitResults)

/-- The interface of visitors has a method for each variant. -/
def visitorInterface (sum : String) (variants : List Variant) : GoDecl :=
  .ofType (sum ++ "Visitor") resultParameter (.ofElements (variants.map visitMethod))

/-- A call of something that belongs to a value or a package. -/
def callOf (owner name : String) (arguments : List GoExpr) : GoExpr :=
  .call (.selected (.ofName owner) ⟨{}, name⟩) { list := unnamed arguments } none

/-- The case of a variant calls the method of the visitor for it. -/
def dispatchCase (variant : Variant) : GoStmt :=
  .clause {} (unnamed [.ofName variant.name]) {}
    [.result {} (unnamed [callOf "v" ("Visit" ++ variant.name) [.ofName "n"]])]

/-- The switch on the variant at hand has a case for each. -/
def dispatch (variants : List Variant) : GoStmt :=
  .typeSwitch {} none
    (.assign (unnamed [.ofName "n"]) {} ":=" (unnamed [.asserted (.ofName "node") {} none {}]))
    ⟨variants.map dispatchCase, {}, {}⟩

/-- The result that comes with an error. -/
def zeroResult : GoStmt :=
  .declaration (.group "var" {} none [.value [⟨{}, "zero"⟩] (some (.ofName "R")) [] false])

/-- A value that is of no variant is an error. -/
def unknownVariant (package sum : String) : GoStmt :=
  let message : GoExpr := .literal {} (.text (Quoted.text ("unknown " ++ sum ++ " variant %T")))
  .result {} (unnamed [.ofName "zero", callOf package "Errorf" [message, .ofName "node"]])

/-- The interface of visitors for a type of results. -/
def visitor (sum : String) : GoExpr :=
  .indexed (.ofName (sum ++ "Visitor")) { list := unnamed [.ofName "R"] }

/-- The function that calls the method of a visitor for the variant at hand. -/
def visitFunction (imports : List Import) (sum : String) (variants : List Variant) : GoDecl :=
  .function {} false {} ⟨{}, "Visit" ++ sum⟩ resultParameter
    { list := [.ofNames ["node"] (.ofName sum), .ofNames ["v"] (visitor sum)] } visitResults
    (some ⟨[dispatch variants, zeroResult,
      unknownVariant (Import.nameOf imports "fmt") sum], {}, {}⟩) 0

/-- A package that is imported, with its name if that is written. -/
def importSpec (entry : Import) : GoSpec :=
  .package (if entry.named then some ⟨{}, entry.name⟩ else none) ⟨{}, Quoted.text entry.path⟩

/-- The declaration of imports, sorted by path. There is none if nothing is imported, and no
parentheses stand around a single one. -/
def importDeclarations (imports : List Import) : List GoDecl :=
  match Import.sort imports with
  | [] => []
  | [entry] => [.group "import" {} none [importSpec entry]]
  | entries => [.group "import" {} (some ({}, {})) (entries.map importSpec)]

section Types

variable (description : Description) (imports : List Import) (trees : String → GoExpr)

/-- The type that a variant or a field is written with, in generated code. -/
def kind (written : String) : GoExpr :=
  (TypeExpr.ofKind description.imports written).tree imports (trees written)

/-- The type of a variant. With fields it is a structure of exactly these fields in their order, and
with a value of a sum type a structure that this value is put into. -/
def variantType (variant : Variant) : GoDecl :=
  .ofType variant.name {} <|
    match variant.content with
    | .record fields =>
      .ofFields (fields.map fun field =>
        .ofNames [field.name] (kind description imports trees field.kind))
    | .value written =>
      if description.isSum written then .ofFields (unnamed [.ofName written])
      else kind description imports trees written

/-- The declarations for a declared type. Without variants there are none. -/
def declarations (declaration : Declaration) : List GoDecl :=
  match declaration.meaning with
  | .plain written => [.ofType declaration.name {} (kind description imports trees written)]
  | .sum [] => []
  | .sum variants =>
    [sumInterface declaration.name] ++
      variants.flatMap (fun variant =>
        [variantType description imports trees variant, markerMethod declaration.name variant]) ++
      [visitorInterface declaration.name variants, visitFunction imports declaration.name variants]

end Types

end Tree

namespace Description

/-- The declarations in the code for a description, from the trees of the types in it. -/
def trees (description : Description) (kinds : String → GoExpr) : List GoDecl :=
  let imports := Generation.imports description
  Tree.importDeclarations imports ++
    description.declarations.flatMap (Tree.declarations description imports kinds)

end Description

end SumType

end Scriptlet
