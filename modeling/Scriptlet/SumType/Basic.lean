/-!
# Descriptions of sum types

A description lists imported packages and declares types. A declared type is
another name for a type that is written out, or the sum of some variants.
-/

namespace Scriptlet

namespace SumType

/-- A field of a variant, with its type as it was written. -/
structure Field where
  name : String
  kind : String
deriving DecidableEq, Repr

/-- What a variant holds. -/
inductive Content where
  /-- A value of a type. -/
  | value (kind : String)
  /-- Named fields. -/
  | record (fields : List Field)
deriving DecidableEq, Repr

/-- One of the variants of a sum type. -/
structure Variant where
  name : String
  content : Content
deriving DecidableEq, Repr

/-- What a name is declared to be. -/
inductive Meaning where
  | plain (kind : String)
  /-- A sum type with its variants. Without variants nothing is declared: the name stands for no
  type, and there is no code for it. -/
  | sum (variants : List Variant)
deriving DecidableEq, Repr

/-- The declaration of a type. -/
structure Declaration where
  name : String
  meaning : Meaning
deriving DecidableEq, Repr

namespace Declaration

/-- The variants of a sum type. -/
def variants (declaration : Declaration) : List Variant :=
  match declaration.meaning with
  | .plain _ => []
  | .sum variants => variants

/-- Whether a sum type is declared. It has a variant at least. -/
def isSum (declaration : Declaration) : Bool :=
  !declaration.variants.isEmpty

end Declaration

/-- Imported packages and declared types, both in the order in which they are
written. -/
structure Description where
  imports : List String
  declarations : List Declaration
deriving DecidableEq, Repr

namespace Description

/-- Whether a name is declared to be a sum type. -/
def isSum (description : Description) (name : String) : Bool :=
  description.declarations.any fun declaration => declaration.name == name && declaration.isSum

end Description

end SumType

end Scriptlet
