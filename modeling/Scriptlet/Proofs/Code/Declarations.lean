import Scriptlet.Proofs.Code.Chunks
import Scriptlet.Proofs.Code.TypeText

/-!
# Declarations on lines of their own

Lines that are one declaration are read as that declaration wherever they stand. A type can be
declared to be what a text spells, or to be a structure whose fields have types that texts spell.
-/

namespace Scriptlet

namespace Code

open GoReader

/-- Lines start with a keyword that is accepted, and a rule reads them, in front of anything but a
name. The tree has no places. -/
def ReadsAs (accepts : String → Bool) (rule : Nat → GoReader GoDecl) (chars : List Char)
    (tree : GoDecl) : Prop :=
  ∃ word symbols, SpellsLines chars (.keyword word :: symbols) ∧ accepts word = true ∧
    ∀ steps tail, 16 * symbols.length + 32 ≤ steps →
      (∀ spelling, tail.head? ≠ some (.name spelling)) →
      Takes false GoDecl.erase (rule steps) (.keyword word :: symbols) tail tree

/-- Lines that are a declaration, and not one of imports. -/
abbrev Declares : List Char → GoDecl → Prop :=
  ReadsAs (· ≠ "import") declaration

/-- Lines that import packages. -/
abbrev Imports : List Char → GoDecl → Prop :=
  ReadsAs (· = "import") (declarations "import")

/-- A part of a list with names and without places. -/
def Member.ofNames (names : List String) (content : GoExpr) : Member GoExpr where
  names := names.map fun spelling => ⟨{}, spelling⟩
  content
  first := {}
  lastLine := 0

namespace GoExpr

/-- A name without a place. -/
def ofName (spelling : String) : GoExpr :=
  .name ⟨{}, spelling⟩

/-- A structure without places. -/
def ofFields (fields : List (Member GoExpr)) : GoExpr :=
  .record {} { list := fields }

/-- An interface without places. -/
def ofElements (elements : List (Member GoExpr)) : GoExpr :=
  .interface {} { list := elements }

end GoExpr

namespace GoDecl

/-- The declaration of a type without places. -/
def ofType (name : String) (parameters : Members GoExpr) (type : GoExpr) : GoDecl :=
  .group "type" {} none [.type ⟨{}, name⟩ parameters false type]

end GoDecl

namespace GoReader

namespace Takes

variable {isHeader : Bool} {symbols tail : List Symbol} {steps : Nat}

/-- What is found at the end, and in front of any one symbol, is found in front of everything that
does not start with a name. -/
theorem of_outcomes {α γ : Type} {view : α → γ} {reader first : GoReader α} {value : γ}
    (follows : ∀ tail, Follows tail view first reader)
    (last : GoReader.outcome view first symbols = some (value, []))
    (inside : ∀ next, GoReader.outcome view first (symbols ++ [next]) = some (value, [next]))
    (notName : ∀ spelling, tail.head? ≠ some (.name spelling)) :
    Takes false view reader symbols tail value := by
  cases tail with
  | nil =>
    rw [← List.append_nil symbols] at last
    exact .of_ahead (follows []) last (.inl rfl)
  | cons next others =>
    refine .of_next (follows others) (inside next) fun spelling same => ?_
    exact notName spelling (congrArg some same)

private theorem tag?_absent (absent : ∀ spelling, tail.head? ≠ some (.text spelling)) :
    Takes isHeader (Option.map Label.erase) tag? [] tail none :=
  bind_nil .peek fun next same => by
    obtain rfl : next = tail.head? := same
    split
    · next spelling found => exact absurd found (absent spelling)
    · exact .pure rfl

private theorem typeSpec {name : String} {parameters : Members GoExpr} {type : GoExpr}
    (body : Takes false declaredView (declaredType steps) symbols (.lineEnd :: tail)
      (parameters, false, type)) :
    Takes false GoSpec.erase (spec "type" (steps + 1)) (.name name :: (symbols ++ [.lineEnd])) tail
      (.type ⟨{}, name⟩ parameters false type) := by
  rw [spec]
  refine bind_cons (.label name) fun label same => body.bind fun found same' => ?_
  obtain ⟨parameters', isAlias, type'⟩ := found
  simp only [declaredView, Prod.map_apply, id_eq, Prod.mk.injEq] at same'
  exact bind_cons .finish fun _ _ => .pure (by simp [GoSpec.erase, same, same'])

/-- The declaration of a type. -/
theorem typeDeclaration {name : String} {parameters : Members GoExpr} {type : GoExpr}
    (body : Takes false declaredView (declaredType steps) symbols (.lineEnd :: tail)
      (parameters, false, type)) :
    Takes false GoDecl.erase (declaration (steps + 2))
      (.keyword "type" :: .name name :: (symbols ++ [.lineEnd])) tail
      (.ofType name parameters type) := by
  refine bind_nil .peek fun next same => ?_
  obtain rfl : next = some (.keyword "type") := same
  show Takes false GoDecl.erase (declarations "type" (steps + 2)) _ _ _
  rw [declarations]
  refine bind_cons (.exactly _) fun _ _ => bind_nil .lastPlace fun place _ =>
    bind_nil (.optional_absent (by simp)) fun opens same => ?_
  obtain rfl : opens = false := same
  exact body.typeSpec.map fun found same => by simp [GoDecl.erase, GoDecl.ofType, same]

/-- A declared type that starts with no bracket. -/
theorem declaredType {symbol : Symbol} {tree : GoExpr}
    (body : Takes false GoExpr.erase (type steps) (symbol :: symbols) tail tree)
    (bracket : symbol ≠ .sign "[") (equals : symbol ≠ .sign "=") :
    Takes false declaredView (declaredType (steps + 1)) (symbol :: symbols) tail
      ({}, false, tree) := by
  rw [GoReader.declaredType]
  refine bind_nil (.optional_absent (by simpa using bracket)) fun opens same => ?_
  obtain rfl : opens = false := same
  rw [if_neg Bool.false_ne_true, pure_bind]
  refine bind_nil (.optional_absent (by simpa using equals)) fun isAlias same => ?_
  obtain rfl : isAlias = false := same
  exact body.map fun found same => by simp [same, Members.erase]

/-- A declared type with parameters. -/
theorem declaredType_parameters {first : List Symbol} {symbol : Symbol}
    {parameters : Members GoExpr} {tree : GoExpr}
    (starts : Takes false (Sum.map (Members.erase GoExpr.erase) GoExpr.erase)
      (parametersOrArray steps) first (symbol :: symbols ++ tail) (.inl parameters))
    (body : Takes false GoExpr.erase (type steps) (symbol :: symbols) tail tree)
    (equals : symbol ≠ .sign "=") :
    Takes false declaredView (GoReader.declaredType (steps + 1))
      (.sign "[" :: (first ++ symbol :: symbols)) tail (parameters, false, tree) := by
  rw [GoReader.declaredType]
  refine bind_cons (.optional _) fun opens same => ?_
  obtain rfl : opens = true := same
  refine starts.bind fun found same => ?_
  obtain ⟨parameters', rfl, alike⟩ : ∃ parameters', found = .inl parameters' ∧
      parameters'.erase GoExpr.erase = parameters := by
    cases found with
    | inl parameters' => exact ⟨parameters', rfl, Sum.inl.inj same⟩
    | inr type => cases same
  refine bind_nil (.optional_absent (by simpa using equals)) fun isAlias plain => ?_
  obtain rfl : isAlias = false := plain
  exact body.map fun found same' => by simp [alike, same']

/-- Members between braces. -/
protected theorem braced {list : GoReader (List (Member GoExpr))} {values : List (Member GoExpr)}
    (inner : Takes isHeader (List.map (Member.erase GoExpr.erase)) list symbols
      (.sign braceClose :: tail) values) :
    Takes isHeader (Members.erase GoExpr.erase) (braced list)
      (.sign braceOpen :: (symbols ++ [.sign braceClose])) tail { list := values } :=
  bind_cons (.sign _) fun _ _ => bind_nil .lastPlace fun _ _ => inner.bind fun _ same =>
    bind_cons (.sign _) fun _ _ => bind_nil .lastPlace fun _ _ => .pure (by
      simp [Members.erase, same])

/-- A structure with some fields. -/
theorem record {fields : List (Member GoExpr)}
    (inner : Takes false (List.map (Member.erase GoExpr.erase))
      (many startsField (field steps) steps) symbols (.sign braceClose :: tail) fields) :
    Takes false GoExpr.erase (type (steps + 1))
      (.keyword "struct" :: .sign braceOpen :: (symbols ++ [.sign braceClose])) tail (.ofFields fields) := by
  rw [type]
  refine bind_nil .nextPlace fun place _ => bind_nil .peek fun next same => ?_
  obtain rfl : next = some (.keyword "struct") := same
  exact bind_cons (.keyword _) fun _ _ => inner.braced.map fun found same => by
    simp [GoExpr.erase, GoExpr.ofFields, same]

/-- A field on a line of its own. -/
protected theorem field {names : List Label} {tree : GoExpr}
    (inner : Takes false fieldsView (namedFields steps) symbols (.lineEnd :: tail) (names, tree)) :
    Takes false (Member.erase GoExpr.erase) (field (steps + 1)) (symbols ++ [.lineEnd]) tail
      { names, content := tree, first := {}, lastLine := 0 } := by
  rw [GoReader.field]
  refine bind_nil .nextPlace fun _ _ => inner.bind fun found same => ?_
  obtain ⟨names', content⟩ := found
  simp only [fieldsView, Prod.map_apply, Prod.mk.injEq] at same
  exact bind_nil (.tag?_absent (by simp)) fun tag same' => bind_nil .lastLine fun _ _ =>
    bind_cons .finish fun _ _ => .pure (by
      obtain rfl : tag = none := by simpa using same'
      simp [Member.erase, same])

/-- An interface with some elements. -/
theorem interface {elements : List (Member GoExpr)}
    (inner : Takes false (List.map (Member.erase GoExpr.erase))
      (many startsElement (element steps) steps) symbols (.sign braceClose :: tail) elements) :
    Takes false GoExpr.erase (type (steps + 1))
      (.keyword "interface" :: .sign braceOpen :: (symbols ++ [.sign braceClose])) tail
      (.ofElements elements) := by
  rw [type]
  refine bind_nil .nextPlace fun place _ => bind_nil .peek fun next same => ?_
  obtain rfl : next = some (.keyword "interface") := same
  exact bind_cons (.keyword _) fun _ _ => inner.braced.map fun found same => by
    simp [GoExpr.erase, GoExpr.ofElements, same]

/-- A look at two symbols takes nothing. -/
protected theorem peekTwo : Takes isHeader id peekTwo [] tail (tail.take 2) :=
  of_look fun rest starts => by simp [← starts, Rest.symbols]

/-- A method of an interface on a line of its own. -/
theorem method {name : String} {parameters results : Members GoExpr}
    (inner : Takes false (Prod.map (Members.erase GoExpr.erase) (Members.erase GoExpr.erase))
      (signature steps) (.sign "(" :: symbols) (.lineEnd :: tail) (parameters, results)) :
    Takes false (Member.erase GoExpr.erase) (element (steps + 1))
      (.name name :: .sign "(" :: (symbols ++ [.lineEnd])) tail
      (.ofNames [name] (.function {} parameters results)) := by
  rw [element]
  refine bind_nil .nextPlace fun _ _ => bind_nil .peekTwo fun next same => ?_
  obtain rfl : next = [.name name, .sign "("] := same
  refine bind_cons (.label name) fun label named => bind_nil .nextPlace fun opening _ => ?_
  rw [← List.cons_append]
  refine inner.bind fun found same => ?_
  obtain ⟨parameters', results'⟩ := found
  simp only [Prod.map_apply, Prod.mk.injEq] at same
  simp only [pure_bind]
  refine bind_nil .lastLine fun _ _ => bind_cons .finish fun _ _ => .pure ?_
  simp [Member.erase, Member.ofNames, GoExpr.erase, named, same]

end Takes

variable {steps more : Nat} {symbols : List Symbol} {tree : GoExpr}

/-- The symbols of a type are taken where a type is declared. -/
theorem Typed.takes_declaredType (typed : Typed steps symbols tree) (atMost : steps ≤ more)
    (tail : List Symbol) :
    Takes false declaredView (declaredType more) symbols (.lineEnd :: tail) ({}, false, tree) :=
  .of_next (uniform atMost).declaredType typed.declared nofun

/-- The symbols of a type are taken behind the name of a field. -/
theorem Typed.takes_namedFields (typed : Typed steps symbols tree) (atMost : steps ≤ more)
    (name : String) (tail : List Symbol) :
    Takes false fieldsView (namedFields more) (.name name :: symbols) (.lineEnd :: tail)
      ([⟨{}, name⟩], tree) :=
  .of_next (uniform atMost).namedFields (typed.field name) nofun

end GoReader

/-- A line that has ended leaves nothing open. -/
theorem closed_of_lineEnd (symbols : List Symbol) :
    ((symbols ++ [Symbol.lineEnd]).getLast?.map Symbol.canEnd).getD false = false := by
  simp [Symbol.canEnd]

/-- A type that is declared to be what a text spells. -/
theorem declares_type {name text : String} {tree : GoExpr} (named : isName name = true)
    (spelled : SpellsType text.toList tree) :
    Declares (("type " ++ name ++ " " ++ text).toList ++ ['\n']) (.ofType name {} tree) := by
  obtain ⟨symbols, spells, typed⟩ := spelled
  refine ⟨"type", .name name :: (symbols ++ [.lineEnd]), ⟨?_, ?_⟩, rfl, ?_⟩
  · have chars : ("type " ++ name ++ " " ++ text).toList ++ ['\n'] =
        ['t', 'y', 'p', 'e'] ++ ' ' :: (name.toList ++ ' ' :: (text.toList ++ ['\n'])) := by
      simp
    rw [chars]
    exact .word (by decide +kernel) (by decide +kernel) <| .blank (.inl rfl) <|
      .name named (by decide +kernel) <| .blank (.inl rfl) spells
  · exact closed_of_lineEnd (.name name :: symbols)
  · intro steps tail enough _
    obtain ⟨steps, rfl⟩ := Nat.exists_eq_add_of_le' (Nat.le_trans (by omega : 2 ≤ _) enough)
    simp only [List.length_cons, List.length_append, List.length_nil] at enough
    exact (typed.takes_declaredType (by omega) tail).typeDeclaration

section Records

variable {α : Type} {fields : List α} {label text : α → String} {tree : α → GoExpr}

/-- Fields of a structure, each on a line of its own. -/
theorem exists_fields (named : ∀ field ∈ fields, isName (label field) = true)
    (spelled : ∀ field ∈ fields, SpellsType (text field).toList (tree field)) :
    ∃ symbols, SpellsLines
        (fields.flatMap fun field => (label field).toList ++ ' ' :: ((text field).toList ++ ['\n']))
        symbols ∧ fields.length ≤ symbols.length ∧
      ∀ steps limit tail, 16 * symbols.length + 48 ≤ steps → fields.length ≤ limit →
        tail.head? = some (.sign braceClose) →
        Takes false (List.map (Member.erase GoExpr.erase)) (many startsField (field steps) limit)
          symbols tail (fields.map fun field => .ofNames [label field] (tree field)) := by
  induction fields with
  | nil =>
    refine ⟨[], .nil, Nat.le_refl _, fun steps limit tail _ _ ends => ?_⟩
    exact .many_nil (by rw [ends]; rfl) limit
  | cons first others ih =>
    rw [List.forall_mem_cons] at named spelled
    obtain ⟨symbols, spells, typed⟩ := spelled.1
    obtain ⟨more, lines, count, takes⟩ := ih named.2 spelled.2
    refine ⟨.name (label first) :: (symbols ++ [.lineEnd]) ++ more, ?_, ?_, ?_⟩
    · refine .append ⟨?_, closed_of_lineEnd (.name (label first) :: symbols)⟩ lines
      exact .name named.1 (by decide +kernel) (.blank (.inl rfl) spells)
    · simp only [List.length_append, List.length_cons, List.length_nil]
      omega
    · intro steps limit tail enough atMost ends
      simp only [List.length_append, List.length_cons, List.length_nil] at enough atMost
      obtain ⟨steps, rfl⟩ := Nat.exists_eq_add_of_le' (show 1 ≤ steps by omega)
      obtain ⟨limit, rfl⟩ := Nat.exists_eq_add_of_le' (show 1 ≤ limit by omega)
      have fits : 16 * symbols.length + 48 ≤ steps := by omega
      have field := (typed.takes_namedFields fits (label first) (more ++ tail)).field
      exact .many_cons rfl field (takes (steps + 1) limit tail (by omega) (by omega) ends)

/-- A type that is declared to be a structure. -/
theorem declares_record {name : String} (valid : isName name = true)
    (named : ∀ field ∈ fields, isName (label field) = true)
    (spelled : ∀ field ∈ fields, SpellsType (text field).toList (tree field)) :
    Declares (("type " ++ name ++ " " ++ ("struct" ++ inBraces ("\n" ++
        String.join (fields.map fun field => label field ++ " " ++ text field ++ "\n")))).toList ++
          ['\n'])
      (.ofType name {}
        (.ofFields (fields.map fun field => .ofNames [label field] (tree field)))) := by
  obtain ⟨symbols, lines, count, takes⟩ := exists_fields named spelled
  refine ⟨"type", .name name :: (.keyword "struct" :: .sign braceOpen ::
    (symbols ++ [.sign braceClose]) ++ [.lineEnd]), ?_, rfl, ?_⟩
  · have opening : SpellsLines (("type " ++ name ++ " struct" ++ braceOpen ++ "\n").toList)
        [.keyword "type", .name name, .keyword "struct", .sign braceOpen] :=
      .of_chunks [.keyword "type", .blank, .name name, .blank, .keyword "struct", .sign '{',
        .newline] rfl (by simpa [Chunk.names] using valid) (by simp [Chunk.chars]) rfl
    have closing : SpellsLines ['}', '\n'] [.sign braceClose, .lineEnd] :=
      .of_chunks [.sign '}', .newline] rfl rfl rfl rfl
    have chars : ("type " ++ name ++ " " ++ ("struct" ++ inBraces ("\n" ++
        String.join (fields.map fun field => label field ++ " " ++ text field ++ "\n")))).toList ++
          ['\n'] = ("type " ++ name ++ " struct" ++ braceOpen ++ "\n").toList ++
        (fields.flatMap (fun field => (label field).toList ++ ' ' :: ((text field).toList ++ ['\n'])) ++
          ['}', '\n']) := by
      simp [List.flatMap_map]
    rw [chars]
    have all := opening.append (lines.append closing)
    simpa using all
  · intro steps tail enough _
    simp only [List.length_append, List.length_cons, List.length_nil] at enough
    obtain ⟨steps, rfl⟩ := Nat.exists_eq_add_of_le' (show 4 ≤ steps by omega)
    have inner := takes steps steps (.sign braceClose :: .lineEnd :: tail) (by omega) (by omega) rfl
    exact (inner.record.declaredType (by decide) (by decide)).typeDeclaration

end Records

end Code

end Scriptlet
