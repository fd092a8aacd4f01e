import Scriptlet.Proofs.SumType.Templates
import Scriptlet.SumType.Grammar

/-!
# Code for a description

Where the names in a description are names of Go and the types in it are types of Go, code can be
generated for it, and the code declares what the description says (`code_generated`). There is one
exception: a variant with braces and no fields has no code, and so has the whole description.
-/

namespace Scriptlet

namespace SumType

open Code
open Code.GoReader

namespace Variant

/-- The names in a variant: its own and those of its fields. -/
def names (variant : Variant) : List String :=
  variant.name ::
    match variant.content with
    | .record fields => fields.map (·.name)
    | .value _ => []

/-- The types that a variant is written with. -/
def kinds (variant : Variant) : List String :=
  match variant.content with
  | .record fields => fields.map (·.kind)
  | .value kind => [kind]

/-- Whether a variant has braces and nothing between them. -/
def isBare (variant : Variant) : Bool :=
  variant.content = .record []

end Variant

namespace Declaration

/-- The names that are declared with a type. -/
def names (declaration : Declaration) : List String :=
  declaration.name :: declaration.variants.flatMap Variant.names

/-- The types that a type is declared with. -/
def kinds (declaration : Declaration) : List String :=
  match declaration.meaning with
  | .plain kind => [kind]
  | .sum variants => variants.flatMap Variant.kinds

end Declaration

namespace Description

/-- All variants of all sum types. -/
def variants (description : Description) : List Variant :=
  description.declarations.flatMap Declaration.variants

/-- A description in the terms of Go: declared names are names, kinds are types with known trees,
and what is imported are paths of packages. -/
structure IsSound (description : Description) (trees : String → GoExpr) : Prop where
  names : ∀ declaration ∈ description.declarations, ∀ name ∈ declaration.names, isName name = true
  kinds : ∀ declaration ∈ description.declarations, ∀ kind ∈ declaration.kinds,
    IsType kind (trees kind)
  imports : ∀ path ∈ description.imports, isUsualImport path = true

end Description

/-- A piece renders a declaration: it is read as that declaration, and it can be written wherever
it stands. -/
structure Renders (piece : Piece) (tree : GoDecl) : Prop where
  declares : Declares piece.chars tree
  adds : Draft.Progress.Adds piece

namespace Renders

/-- Lines in their form render what they declare. -/
theorem rows {keyword : String} {comment : Option String} {rows : List Row} {tree : GoDecl}
    (declares : Declares (Piece.rows keyword comment rows).chars tree)
    (other : keyword ≠ "import") : Renders (.rows keyword comment rows) tree :=
  ⟨declares, Draft.Progress.adds_rows other comment rows⟩

/-- A text renders what it declares. -/
theorem text {content : String} {tree : GoDecl}
    (declares : Declares (Piece.text content).chars tree) : Renders (.text content) tree :=
  ⟨declares, Draft.Progress.adds_text declares⟩

end Renders

section Making

variable {α β ε : Type} {make : α → Except ε β} {items : List α}

/-- What can be made for each of some things can be made for all of them. -/
theorem exists_mapM {fits : α → β → Prop}
    (each : ∀ item ∈ items, ∃ made, make item = .ok made ∧ fits item made) :
    ∃ all, items.mapM make = .ok all ∧ List.Forall₂ fits items all := by
  induction items with
  | nil => exact ⟨[], rfl, .nil⟩
  | cons item items ih =>
    rw [List.forall_mem_cons] at each
    obtain ⟨made, makes, first⟩ := each.1
    obtain ⟨all, makesAll, others⟩ := ih each.2
    refine ⟨made :: all, ?_, .cons first others⟩
    rw [List.mapM_cons, makes, makesAll]
    rfl

/-- If something cannot be made, then not all can. -/
theorem exists_error_mapM {item : α} (member : item ∈ items) {error : ε}
    (fails : make item = .error error) : ∃ error, items.mapM make = .error error := by
  induction items with
  | nil => cases member
  | cons first items ih =>
    rw [List.mapM_cons]
    cases made : make first with
    | error error => exact ⟨error, rfl⟩
    | ok value =>
      obtain rfl | member := List.mem_cons.mp member
      · cases fails.symm.trans made
      · obtain ⟨error, fails⟩ := ih member
        exact ⟨error, by rw [fails]; rfl⟩

/-- If not all can be made, then one of them cannot, for the same reason. -/
theorem exists_of_mapM_eq_error {error : ε} (fails : items.mapM make = .error error) :
    ∃ item ∈ items, make item = .error error := by
  induction items with
  | nil => cases fails
  | cons first items ih =>
    rw [List.mapM_cons] at fails
    cases made : make first with
    | error reason =>
      rw [made] at fails
      exact ⟨first, List.mem_cons_self .., made.trans (congrArg _ (Except.error.inj fails))⟩
    | ok value =>
      rw [made] at fails
      cases rest : items.mapM make with
      | error reason =>
        rw [rest] at fails
        obtain ⟨item, member, same⟩ := ih (rest.trans (congrArg _ (Except.error.inj fails)))
        exact ⟨item, List.mem_cons_of_mem _ member, same⟩
      | ok values =>
        rw [rest] at fails
        cases fails

/-- What fits the parts of each of some items fits the parts of all of them. -/
theorem forall₂_flatten {γ : Type} {fits : β → γ → Prop} {parts : α → List γ} {all : List (List β)}
    (each : List.Forall₂ (fun item made => List.Forall₂ fits made (parts item)) items all) :
    List.Forall₂ fits all.flatten (items.flatMap parts) := by
  induction each with
  | nil => exact .nil
  | cons first _ ih =>
    rw [List.flatMap_cons, List.flatten_cons]
    exact List.rel_append first ih

end Making

section Pieces

variable {description : Description} {imports : List Import} {trees : String → GoExpr}

/-- The text of a kind spells its type, with the names that packages are imported under. -/
theorem spellsType_kindText {kind : String}
    (usual : ∀ path ∈ description.imports, isUsualImport path = true)
    (isType : IsType kind (trees kind))
    (known : ∀ path ∈ Generation.kindPackages description kind,
      isName (Import.nameOf imports path) = true) :
    SpellsType (Generation.kindText description imports kind).toList
      (Tree.kind description imports trees kind) := by
  refine spellsType_ofChars usual (fun path found => known path ?_) isType.spells
  have package : (TypeExpr.ofKind description.imports kind).package? = some path := found
  rw [Generation.kindPackages, package]
  exact List.mem_singleton.mpr rfl

/-- The characters of a declaration that has to be brought into form. -/
theorem chars_declare (name type : String) :
    (Generation.declare name type).chars = ("type " ++ name ++ " " ++ type).toList ++ ['\n'] := by
  simp [Generation.declare, Piece.chars, charsOf, Piece.lines]

/-- A structure that a value of a sum type is put into. -/
theorem declares_embedded {name sum : String} (valid : isName name = true)
    (named : isName sum = true) :
    Declares (Generation.declare name ("struct" ++ inBraces ("\n" ++ sum ++ "\n"))).chars
      (.ofType name {} (.ofFields (Tree.unnamed [.ofName sum]))) := by
  rw [chars_declare]
  refine ⟨"type", _, .of_chunks [.keyword "type", .blank, .name name, .blank, .keyword "struct",
    .sign '{', .newline, .name sum, .newline, .sign '}', .newline] rfl ?_ ?_ rfl, rfl, ?_⟩
  · simp [Chunk.names, valid, named]
  · simp [Chunk.chars]
  · intro steps tail enough _
    obtain ⟨steps, rfl⟩ : ∃ fewer, steps = fewer + 6 := Nat.exists_eq_add_of_le' (by omega)
    have inner : Takes false fieldsView (namedFields (steps + 1)) [.name sum]
        (.lineEnd :: .sign braceClose :: .lineEnd :: tail) ([], .ofName sum) :=
      .of_next (uniform (Nat.le_add_left 1 steps)).namedFields rfl (by simp)
    exact ((Takes.many_cons rfl inner.field (.many_nil rfl (steps + 1))).record.declaredType
      (by decide) (by decide)).typeDeclaration

/-- The declaration of a type that is written out. -/
theorem renders_kind {name kind : String} (valid : isName name = true)
    (usual : ∀ path ∈ description.imports, isUsualImport path = true)
    (isType : IsType kind (trees kind))
    (known : ∀ path ∈ Generation.kindPackages description kind,
      isName (Import.nameOf imports path) = true) :
    Renders (Generation.declare name (Generation.kindText description imports kind))
      (.ofType name {} (Tree.kind description imports trees kind)) := by
  refine .text ?_
  rw [← Generation.declare, chars_declare]
  exact declares_type valid (spellsType_kindText usual isType known)

/-- Every variant has a type, unless it is bare. -/
theorem exists_variantType {variant : Variant} (filled : variant.isBare = false)
    (usual : ∀ path ∈ description.imports, isUsualImport path = true)
    (sums : ∀ kind, description.isSum kind = true → isName kind = true)
    (names : ∀ name ∈ variant.names, isName name = true)
    (types : ∀ kind ∈ variant.kinds, IsType kind (trees kind))
    (known : ∀ path ∈ Generation.variantPackages description variant,
      isName (Import.nameOf imports path) = true) :
    ∃ piece, Generation.variantType description imports variant = .ok piece ∧
      Renders piece (Tree.variantType description imports trees variant) := by
  obtain ⟨name, content⟩ := variant
  have valid : isName name = true := names name (List.mem_cons_self ..)
  cases content with
  | record fields =>
    have labels : ∀ field ∈ fields, isName field.name = true := fun field member =>
      names field.name (List.mem_cons_of_mem _ (List.mem_map_of_mem member))
    have spelled : ∀ field ∈ fields,
        SpellsType (Generation.kindText description imports field.kind).toList
          (Tree.kind description imports trees field.kind) := fun field member =>
      spellsType_kindText usual (types field.kind (List.mem_map_of_mem member)) fun path used =>
        known path (List.mem_flatMap.mpr ⟨field, member, used⟩)
    cases fields with
    | nil => cases filled
    | cons first others =>
      refine ⟨_, rfl, .text ?_⟩
      rw [← Generation.declare, chars_declare]
      exact declares_record valid labels spelled
  | value kind =>
    by_cases sum : description.isSum kind = true
    · have tree : Tree.variantType description imports trees ⟨name, .value kind⟩ =
          .ofType name {} (.ofFields (Tree.unnamed [.ofName kind])) :=
        congrArg (GoDecl.ofType name {}) (if_pos sum)
      rw [tree]
      exact ⟨_, if_pos sum, .text (declares_embedded valid (sums kind sum))⟩
    · have tree : Tree.variantType description imports trees ⟨name, .value kind⟩ =
          .ofType name {} (Tree.kind description imports trees kind) :=
        congrArg (GoDecl.ofType name {}) (if_neg sum)
      have packages : Generation.variantPackages description ⟨name, .value kind⟩ =
          Generation.kindPackages description kind := if_neg sum
      rw [packages] at known
      rw [tree]
      exact ⟨_, if_neg sum, renders_kind valid usual (types kind (List.mem_singleton.mpr rfl)) known⟩

private theorem checkName_of_isName {name : String} (named : isName name = true) :
    Generation.checkName name = .ok () := by
  simp only [isName, Bool.and_eq_true, Bool.not_eq_true'] at named
  rw [Generation.checkName, named.2]
  rfl

/-- The pieces for a sum type with variants, whose name is a name of Go. -/
theorem declarationPieces_of_sum {name : String} (valid : isName name = true)
    {variants : List Variant} (some : variants ≠ []) :
    Generation.declarationPieces description imports ⟨name, .sum variants⟩ =
      (variants.mapM (Generation.variantPieces description imports name)).map fun pieces =>
        [Generation.sumInterface name] ++ pieces.flatten ++
          [Generation.visitorInterface name variants,
            Generation.visitFunction imports name variants] := by
  obtain ⟨first, others, rfl⟩ := List.exists_cons_of_ne_nil some
  simp only [Generation.declarationPieces, checkName_of_isName valid]
  cases (first :: others).mapM (Generation.variantPieces description imports name) <;> rfl

private theorem declarationPackages_of_sum {name : String} {variants : List Variant}
    (some : variants ≠ []) :
    Generation.declarationPackages description ⟨name, .sum variants⟩ =
      variants.flatMap (Generation.variantPackages description) ++ ["fmt"] := by
  obtain ⟨first, others, rfl⟩ := List.exists_cons_of_ne_nil some
  rfl

/-- The declarations for a sum type with variants. -/
theorem Tree.declarations_of_sum {name : String} {variants : List Variant}
    (some : variants ≠ []) :
    Tree.declarations description imports trees ⟨name, .sum variants⟩ =
      [sumInterface name] ++ variants.flatMap (fun variant =>
        [variantType description imports trees variant, markerMethod name variant]) ++
        [visitorInterface name variants, visitFunction imports name variants] := by
  obtain ⟨first, others, rfl⟩ := List.exists_cons_of_ne_nil some
  rfl

/-- Every declared type has code, unless one of its variants is bare. -/
theorem exists_declarationPieces {declaration : Declaration}
    (filled : ∀ variant ∈ declaration.variants, variant.isBare = false)
    (usual : ∀ path ∈ description.imports, isUsualImport path = true)
    (sums : ∀ kind, description.isSum kind = true → isName kind = true)
    (names : ∀ name ∈ declaration.names, isName name = true)
    (types : ∀ kind ∈ declaration.kinds, IsType kind (trees kind))
    (known : ∀ path ∈ Generation.declarationPackages description declaration,
      isName (Import.nameOf imports path) = true) :
    ∃ pieces, Generation.declarationPieces description imports declaration = .ok pieces ∧
      List.Forall₂ Renders pieces (Tree.declarations description imports trees declaration) := by
  obtain ⟨name, meaning⟩ := declaration
  have valid : isName name = true := names name (List.mem_cons_self ..)
  cases meaning with
  | plain kind =>
    exact ⟨_, rfl, .cons (renders_kind valid usual (types kind (List.mem_singleton.mpr rfl)) known) .nil⟩
  | sum variants =>
    by_cases some : variants = []
    · subst some
      exact ⟨[], rfl, .nil⟩
    rw [declarationPackages_of_sum some] at known
    rw [Tree.declarations_of_sum some]
    have inside {variant : Variant} (member : variant ∈ variants) {name : String}
        (mentioned : name ∈ variant.names) : isName name = true :=
      names name (List.mem_cons_of_mem _ (List.mem_flatMap.mpr ⟨variant, member, mentioned⟩))
    have labels : ∀ variant ∈ variants, isName variant.name = true :=
      fun variant member => inside member (List.mem_cons_self ..)
    have error : isName (Import.nameOf imports "fmt") = true :=
      known "fmt" (List.mem_append_right _ (List.mem_singleton.mpr rfl))
    have each : ∀ variant ∈ variants, ∃ pieces,
        Generation.variantPieces description imports name variant = .ok pieces ∧
          List.Forall₂ Renders pieces [Tree.variantType description imports trees variant,
            Tree.markerMethod name variant] := by
      intro variant member
      obtain ⟨piece, made, renders⟩ := exists_variantType (filled variant member) usual sums
        (fun _ mentioned => inside member mentioned)
        (fun kind used => types kind (List.mem_flatMap.mpr ⟨variant, member, used⟩))
        (fun path used =>
          known path (List.mem_append_left _ (List.mem_flatMap.mpr ⟨variant, member, used⟩)))
      refine ⟨[piece, Generation.markerMethod name variant], ?_, .cons renders (.cons ?_ .nil)⟩
      · rw [Generation.variantPieces, made]
        rfl
      · exact .rows (declares_markerMethod valid (labels variant member)) (by decide)
    obtain ⟨pieces, made, renders⟩ := exists_mapM each
    refine ⟨[Generation.sumInterface name] ++ pieces.flatten ++
      [Generation.visitorInterface name variants, Generation.visitFunction imports name variants],
      ?_, List.rel_append (List.rel_append (.cons ?_ .nil) (forall₂_flatten renders))
        (.cons ?_ (.cons ?_ .nil))⟩
    · rw [declarationPieces_of_sum valid some, made]
      rfl
    · exact .rows (declares_sumInterface valid) (by decide)
    · exact .rows (declares_visitorInterface valid labels) (by decide)
    · exact .rows (declares_visitFunction valid labels error) (by decide)

/-- A bare variant is the only reason for which a variant has no code. -/
theorem variantPieces_eq_error_iff {sum : String} {variant : Variant} {error : CodeError} :
    Generation.variantPieces description imports sum variant = .error error ↔
      variant.isBare = true ∧ error = .noFields variant.name := by
  obtain ⟨name, content⟩ := variant
  have type : Generation.variantType description imports ⟨name, content⟩ = .error error ↔
      Variant.isBare ⟨name, content⟩ = true ∧ error = .noFields name := by
    cases content with
    | record fields =>
      cases fields with
      | nil => simp [Generation.variantType, Variant.isBare, eq_comm]
      | cons first others => simp [Generation.variantType, Variant.isBare]
    | value kind =>
      by_cases sum : description.isSum kind = true <;>
        simp [Generation.variantType, Variant.isBare, sum]
  rw [← type, Generation.variantPieces]
  cases Generation.variantType description imports ⟨name, content⟩ with
  | error reason =>
    have same : (Except.error reason : Except CodeError (List Piece)) = .error error ↔
        (Except.error reason : Except CodeError Piece) = .error error := by
      rw [Except.error.injEq, Except.error.injEq]
    exact same
  | ok piece => exact ⟨nofun, nofun⟩

private theorem bare_of_declarationPieces_eq_error {declaration : Declaration} {error : CodeError}
    (valid : isName declaration.name = true)
    (fails : Generation.declarationPieces description imports declaration = .error error) :
    ∃ variant ∈ declaration.variants, variant.isBare = true ∧ error = .noFields variant.name := by
  obtain ⟨name, meaning⟩ := declaration
  cases meaning with
  | plain kind => cases fails
  | sum variants =>
    by_cases some : variants = []
    · subst some
      cases fails
    rw [declarationPieces_of_sum valid some] at fails
    cases made : variants.mapM (Generation.variantPieces description imports name) with
    | ok pieces =>
      rw [made] at fails
      cases fails
    | error reason =>
      rw [made] at fails
      obtain rfl : reason = error := Except.error.inj fails
      obtain ⟨variant, member, gives⟩ := exists_of_mapM_eq_error made
      exact ⟨variant, member, variantPieces_eq_error_iff.mp gives⟩

private theorem exists_error_declarationPieces {declaration : Declaration} {variant : Variant}
    (valid : isName declaration.name = true) (member : variant ∈ declaration.variants)
    (bare : variant.isBare = true) :
    ∃ error, Generation.declarationPieces description imports declaration = .error error := by
  obtain ⟨name, meaning⟩ := declaration
  cases meaning with
  | plain kind => cases member
  | sum variants =>
    have fails : Generation.variantPieces description imports name variant =
        .error (.noFields variant.name) := variantPieces_eq_error_iff.mpr ⟨bare, rfl⟩
    have member : variant ∈ variants := member
    obtain ⟨error, fails⟩ := exists_error_mapM member fails
    exact ⟨error, by rw [declarationPieces_of_sum valid (List.ne_nil_of_mem member), fails]; rfl⟩

end Pieces

namespace Description

variable {description : Description} {trees : String → GoExpr}

/-- The imports of the code have names of Go for all packages that the code uses. -/
theorem isName_nameOf_imports {declaration : Declaration}
    (member : declaration ∈ description.declarations) {path : String}
    (used : path ∈ Generation.declarationPackages description declaration) :
    isName (Import.nameOf (Generation.imports description) path) = true :=
  Import.isName_nameOf (List.mem_flatMap.mpr ⟨declaration, member, used⟩)

/-- The name of a sum type is a declared name. -/
theorem IsSound.isName_of_isSum (sound : description.IsSound trees) {kind : String}
    (sum : description.isSum kind = true) : isName kind = true := by
  obtain ⟨declaration, member, same⟩ := List.any_eq_true.mp sum
  rw [Bool.and_eq_true, beq_iff_eq] at same
  rw [← same.1]
  exact sound.names declaration member declaration.name (List.mem_cons_self ..)

/-- A sound description has a draft, unless a variant of it is bare. -/
theorem IsSound.exists_draft (sound : description.IsSound trees)
    (filled : ∀ variant ∈ description.variants, variant.isBare = false) (package : String) :
    ∃ draft pieces, description.draft package = .ok draft ∧ draft.package = package ∧
      draft.pieces = Generation.importPieces (Generation.imports description) ++ pieces ∧
      List.Forall₂ Renders pieces (description.declarations.flatMap
        (Tree.declarations description (Generation.imports description) trees)) := by
  have each : ∀ declaration ∈ description.declarations, ∃ pieces,
      Generation.declarationPieces description (Generation.imports description) declaration =
        .ok pieces ∧ List.Forall₂ Renders pieces
          (Tree.declarations description (Generation.imports description) trees declaration) :=
    fun declaration member => exists_declarationPieces
      (fun variant inside => filled variant (List.mem_flatMap.mpr ⟨declaration, member, inside⟩))
      sound.imports (fun _ sum => sound.isName_of_isSum sum) (sound.names declaration member)
      (sound.kinds declaration member) (fun _ used => isName_nameOf_imports member used)
  obtain ⟨pieces, made, renders⟩ := exists_mapM each
  have drafted : description.draft package = .ok
      { comment := "// Code generated by adtGen. DO NOT EDIT.", package
        pieces := Generation.importPieces (Generation.imports description) ++ pieces.flatten } := by
    simp only [draft, made]
    rfl
  exact ⟨_, pieces.flatten, drafted, rfl, rfl, forall₂_flatten renders⟩

/-- A bare variant is the only reason for which a sound description has no draft. -/
theorem IsSound.exists_draft_error (sound : description.IsSound trees) {variant : Variant}
    (member : variant ∈ description.variants) (bare : variant.isBare = true) (package : String) :
    ∃ other ∈ description.variants, other.isBare = true ∧
      description.draft package = .error (.noFields other.name) := by
  obtain ⟨declaration, inside, member⟩ := List.mem_flatMap.mp member
  have valid (declaration : Declaration) (inside : declaration ∈ description.declarations) :
      isName declaration.name = true :=
    sound.names declaration inside declaration.name (List.mem_cons_self ..)
  have fails : ∃ error, Generation.declarationPieces description (Generation.imports description)
      declaration = .error error :=
    exists_error_declarationPieces (valid declaration inside) member bare
  obtain ⟨error, fails⟩ := exists_error_mapM inside fails.choose_spec
  obtain ⟨declaration, inside, gives⟩ := exists_of_mapM_eq_error fails
  obtain ⟨other, member, bare, rfl⟩ :=
    bare_of_declarationPieces_eq_error (valid declaration inside) gives
  refine ⟨other, List.mem_flatMap.mpr ⟨declaration, inside, member⟩, bare, ?_⟩
  simp only [draft, fails]
  rfl

private theorem eq_rows_of_mem_importPieces {imports : List Import} {piece : Piece}
    (member : piece ∈ Generation.importPieces imports) :
    ∃ comment rows, piece = .rows "import" comment rows := by
  unfold Generation.importPieces at member
  split at member
  · cases member
  · exact ⟨none, _, List.mem_singleton.mp member⟩

/-- The draft of a sound description means what the description says, and it can be brought into
form. -/
theorem IsSound.exists_lines (sound : description.IsSound trees)
    (filled : ∀ variant ∈ description.variants, variant.isBare = false) {package : String}
    (named : isName package = true) :
    ∃ draft lines, description.draft package = .ok draft ∧
      draft.Means (package, description.trees trees) ∧ draft.lines? = some lines := by
  obtain ⟨draft, pieces, made, rfl, parts, renders⟩ := sound.exists_draft filled package
  have imported := imports_importPieces (Import.isName_of_mem_ofPaths :
    ∀ entry ∈ Generation.imports description, isName entry.name = true)
  obtain ⟨written, declared⟩ := (List.forall₂_and_left _ _).mp
    (renders.imp fun _ _ (each : Renders _ _) => And.intro each.adds each.declares)
  obtain ⟨lines, formed⟩ :=
    Draft.exists_lines named parts (fun _ member => eq_rows_of_mem_importPieces member) written
  exact ⟨draft, lines, made, Draft.means_of_pieces named parts imported declared, formed⟩

/-- **Code for descriptions.** Take a description whose declared names are names of Go, whose kinds
are types of Go and whose imports are paths of packages, and a way to bring drafts into form that
renders the given code of its draft. If a variant has braces and no fields, no code is generated,
for the reason of such a variant. Else code is generated, and it says exactly this, in this order:
the name of the package, the imports, and for every declaration a type, or the interface of a sum
type, a type and a marker method for each variant, the interface of visitors with a method for each
variant, and the function with a case for each variant. `Draft.lines?` brings the draft into form,
too. -/
theorem code_generated {render : Draft → Option (List String)} {package : String}
    (sound : description.IsSound trees) (named : isName package = true)
    (rendered : ∀ draft, description.draft package = .ok draft → draft.IsRenderedBy render) :
    if description.variants.any Variant.isBare then
      ∃ variant ∈ description.variants, variant.isBare = true ∧
        description.codeWith render package = .error (.noFields variant.name)
    else
      (∃ text, description.codeWith render package = .ok text ∧
        meaning? text = some (package, description.trees trees)) ∧
      ∃ text, description.code package = .ok text := by
  split
  · next bare =>
    obtain ⟨variant, member, bare⟩ := List.any_eq_true.mp bare
    obtain ⟨other, inside, empty, fails⟩ := sound.exists_draft_error member bare package
    refine ⟨other, inside, empty, ?_⟩
    simp only [codeWith, fails]
    rfl
  · next filled =>
    have filled : ∀ variant ∈ description.variants, variant.isBare = false :=
      fun variant member => Bool.eq_false_iff.mpr fun bare =>
        filled (List.any_eq_true.mpr ⟨variant, member, bare⟩)
    obtain ⟨draft, lines, made, means, formed⟩ := sound.exists_lines filled named
    obtain ⟨rendered, renders, said⟩ := rendered draft made _ means.meaning?
    refine ⟨⟨_, ?_, said⟩, String.join (lines.map (· ++ "\n")), ?_⟩
    · simp only [codeWith, made, renders, bind, Except.bind]
    · simp only [code, codeWith, made, formed, bind, Except.bind]

-- Imports have to be paths of packages: this one is found in front of the point of a type, where
-- it is no qualifier, and what is left of the type is no type.
example : (Description.mk ["struct" ++ braceOpen ++ " pkg"]
    [⟨"N", .plain ("struct" ++ inBraces " pkg.T")⟩]).code "geo" =
    .error .unreadable := by
  decide +kernel

end Description

/-- A description of shapes: one with two fields, and one that holds another shape. -/
def shapes : Description where
  imports := ["geo/units"]
  declarations := [⟨"Shape", .sum
    [⟨"Disk", .record [⟨"Width", "*units.Length"⟩, ⟨"Marks", "[]Mark"⟩]⟩,
      ⟨"Frame", .value "Shape"⟩]⟩, ⟨"Mark", .plain "int"⟩]

/-- A description of sizes. -/
def sizes : Description where
  imports := ["geo/units"]
  declarations := [⟨"Width", .plain "*units.Length"⟩, ⟨"Sizes", .plain "[]Mark"⟩]

/-- The types in them. -/
def shapeKinds : List String :=
  ["*units.Length", "[]Mark", "Shape", "int"]

/-- The trees of these types. -/
def shapeTrees (kind : String) : GoExpr :=
  if kind = "*units.Length" then .pointer {} (.selected (.ofName "units") ⟨{}, "Length"⟩)
  else if kind = "[]Mark" then .array {} none (.ofName "Mark")
  else .ofName kind

/-- The types of shapes and sizes are types of Go. -/
theorem isType_shapeTrees : ∀ kind ∈ shapeKinds, IsType kind (shapeTrees kind) := by
  have pointer : (Lexemes.scan {} ("_ " ++ "*units.Length")).map (·.list.map (·.symbol)) =
      some (.name "_" ::
        ([.sign "*", .name "units", .sign ".", .name "Length"] ++ [.lineEnd])) := by
    decide +kernel
  have array : (Lexemes.scan {} ("_ " ++ "[]Mark")).map (·.list.map (·.symbol)) =
      some (.name "_" :: ([.sign "[", .sign "]", .name "Mark"] ++ [.lineEnd])) := by
    decide +kernel
  have few : 8 ≤ 48 := by decide
  simp only [shapeKinds, List.forall_mem_cons]
  refine ⟨?_, ?_, ?_, ?_, nofun⟩
  · exact .of_symbols pointer few rfl rfl
  · exact .of_symbols array few rfl rfl
  · exact .of_name (by decide +kernel)
  · exact .of_name (by decide +kernel)

/-- The description of shapes is in the terms of Go. -/
theorem isSound_shapes : shapes.IsSound shapeTrees where
  names := by decide +kernel
  kinds declaration member kind inside := by
    have known : ∀ declaration ∈ shapes.declarations, ∀ kind ∈ declaration.kinds,
        kind ∈ shapeKinds := by
      decide
    exact isType_shapeTrees kind (known declaration member kind inside)
  imports := by decide +kernel

/-- The description of sizes is in the terms of Go. -/
theorem isSound_sizes : sizes.IsSound shapeTrees where
  names := by decide +kernel
  kinds declaration member kind inside := by
    have known : ∀ declaration ∈ sizes.declarations, ∀ kind ∈ declaration.kinds,
        kind ∈ shapeKinds := by
      decide
    exact isType_shapeTrees kind (known declaration member kind inside)
  imports := by decide +kernel

/-- The draft for shapes is rendered by its own lines. -/
theorem isRenderedBy_shapes (draft : Draft) (made : shapes.draft "geo" = .ok draft) :
    draft.IsRenderedBy fun draft => some draft.rawLines := by
  obtain ⟨_, -, found, means, -⟩ :=
    isSound_shapes.exists_lines (by decide) (show isName "geo" = true by decide +kernel)
  obtain rfl := Except.ok.inj (found.symm.trans made)
  exact means.isRenderedBy rfl (decide_eq_true rfl)

/-- `Draft.lines?` renders the draft for sizes: it moves symbols, and it adds and leaves out
none. -/
theorem isRenderedBy_sizes (draft : Draft) (made : sizes.draft "geo" = .ok draft) :
    draft.IsRenderedBy Draft.lines? := by
  obtain ⟨_, lines, found, means, formed⟩ :=
    isSound_sizes.exists_lines (by decide) (show isName "geo" = true by decide +kernel)
  obtain rfl := Except.ok.inj (found.symm.trans made)
  have kept : (sizes.draft "geo").toOption.all
      (fun draft => draft.lines?.all draft.keepsSymbols) = true := by
    decide +kernel
  rw [made] at kept
  exact means.isRenderedBy formed (by simpa [Except.toOption, formed] using kept)

/-- The description of shapes is read from a text, and there is code for it that declares what it
should. The code for sizes is brought into form and declares what it should. -/
theorem shapes_code_generated :
    Description.read? (Bytes.ofString ("import \"geo/units\"; type Shape = " ++
      "| Disk of " ++ inBraces "Width \"*units.Length\"; Marks \"[]Mark\";" ++
      " | Frame of Shape; " ++
      "type Mark = int;")) = some shapes ∧
      shapes.IsSound shapeTrees ∧ isName "geo" = true ∧
      (∃ text, shapes.codeWith (fun draft => some draft.rawLines) "geo" = .ok text ∧
        meaning? text = some ("geo", shapes.trees shapeTrees)) ∧
      (∃ text, shapes.code "geo" = .ok text) ∧
      ∃ text, sizes.code "geo" = .ok text ∧
        meaning? text = some ("geo", sizes.trees shapeTrees) := by
  have named : isName "geo" = true := by decide +kernel
  have drawn := Description.code_generated isSound_shapes named isRenderedBy_shapes
  have measured := Description.code_generated isSound_sizes named isRenderedBy_sizes
  rw [if_neg (by decide)] at drawn measured
  exact ⟨by decide +kernel, isSound_shapes, named, drawn.1, drawn.2, measured.1⟩

/-- A sum type with a variant that has braces and no fields. -/
def bareSum : Description where
  imports := []
  declarations := [⟨"E", .sum [⟨"A", .record []⟩]⟩]

/-- Such a sum type is read, its names are names of Go, and no code is generated for it. -/
theorem code_bareSum :
    Description.read? (Bytes.ofString ("type E = | A of " ++ inBraces "" ++ ";")) = some bareSum ∧
      bareSum.IsSound .ofName ∧ isName "geo" = true ∧
      bareSum.code "geo" = .error (.noFields "A") := by
  refine ⟨by decide +kernel, ⟨by decide +kernel, ?_, nofun⟩, by decide +kernel, rfl⟩
  intro declaration member
  obtain rfl := List.mem_singleton.mp member
  exact nofun

end SumType

end Scriptlet
