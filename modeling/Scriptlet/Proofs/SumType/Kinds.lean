import Mathlib.Data.List.TakeDrop
import Scriptlet.Proofs.Code.TypeText
import Scriptlet.SumType.Generation

/-!
# Types of variants and fields

The type of a variant or a field is written as a text. In the generated code, a type of an imported
package has the name that the package has there. Everything else in it stays as it is, so the text
is still a type.
-/

namespace Scriptlet

namespace SumType

open Code (GoExpr Symbol Spells SpellsType IsType isName)
open Code.GoReader

namespace TypeExpr

/-- The tree of a type in generated code, made from the tree of the type as it is written. -/
def tree (imports : List Import) (type : TypeExpr) (written : GoExpr) : GoExpr :=
  match type.package? with
  | some path => written.requalified (Import.nameOf imports path)
  | none => written

end TypeExpr

variable {paths : List String} {imports : List Import} {chars : List Char} {ends : Bool}
  {symbols : List Symbol} {steps : Nat} {tree : GoExpr}

/-- Types have no quotes around them. -/
theorem unquote_eq {symbol : Symbol} (spells : Spells ends true (chars ++ ['\n']) (symbol :: symbols))
    (starts : startsType symbol = true) : unquote chars = chars := by
  unfold unquote
  split
  · next first rest =>
    refine if_neg fun ⟨quote, _⟩ => ?_
    obtain rfl | rfl := quote
    · rw [spells.head_of_quote] at starts
      cases starts
    · rw [spells.head_of_backquote] at starts
      cases starts
  · rfl

/-- The first symbol in front of a line end, unless it is the line end. -/
theorem exists_cons_of_lineEnd {symbol : Symbol} {rest : List Symbol}
    (split : symbols ++ [.lineEnd] = symbol :: rest) (inside : symbol ≠ .lineEnd) :
    ∃ more, symbols = symbol :: more ∧ rest = more ++ [.lineEnd] := by
  cases symbols with
  | nil =>
    obtain ⟨rfl, -⟩ := List.cons.inj split
    exact absurd rfl inside
  | cons first more =>
    obtain ⟨rfl, rfl⟩ := List.cons.inj split
    exact ⟨more, rfl, rfl⟩

/-- Whether an import is written with characters that are usual in paths of packages. -/
def isUsualImport (path : String) : Bool :=
  (unquote path.toList).all Code.PackagePath.isUsual

/-- Where the type rule reads a text, it reads the text in generated code too. -/
structure Rewrites (imports : List Import) (type : TypeExpr) (ends : Bool) (steps : Nat)
    (symbols : List Symbol) (tree : GoExpr) (written : List Symbol) : Prop where
  length : written.length = symbols.length
  bracket : written.head? = some (.sign "[") → symbols.head? = some (.sign "[")
  spells : Spells ends true ((Generation.typeText imports type).toList ++ ['\n'])
    (written ++ [.lineEnd])
  found : outcome GoExpr.erase (Code.GoReader.type steps) (written ++ [.lineEnd]) =
    some (type.tree imports tree, [.lineEnd])

namespace Rewrites

variable {type : TypeExpr} {written : List Symbol}

/-- A type of slices is rewritten by rewriting its elements. -/
theorem slice (inner : Rewrites imports type true steps symbols tree written) :
    Rewrites imports (.slice type) ends (steps + 2) (.sign "[" :: .sign "]" :: symbols)
      (.array {} none tree) (.sign "[" :: .sign "]" :: written) where
  length := by simp [inner.length]
  bracket _ := rfl
  spells := by
    have chars : (Generation.typeText imports (.slice type)).toList =
        '[' :: ']' :: ' ' :: (Generation.typeText imports type).toList := by
      simp [Generation.typeText]
    rw [chars]
    exact .sign (by decide +kernel) (by decide +kernel) <|
      .sign (by decide +kernel) (by decide +kernel) <| .blank (.inl rfl) inner.spells
  found := by
    rw [List.cons_append, List.cons_append, type_slice, inner.found]
    simp only [TypeExpr.tree, TypeExpr.package?]
    cases type.package? <;> rfl

/-- A type of pointers is rewritten by rewriting what they point to. -/
theorem pointer (inner : Rewrites imports type false steps symbols tree written) :
    Rewrites imports (.pointer type) ends (steps + 1) (.sign "*" :: symbols) (.pointer {} tree)
      (.sign "*" :: written) where
  length := by simp [inner.length]
  bracket head := by simp at head
  spells := by
    have chars : (Generation.typeText imports (.pointer type)).toList =
        '*' :: ' ' :: (Generation.typeText imports type).toList := by
      simp [Generation.typeText]
    rw [chars]
    exact .sign (by decide +kernel) (by decide +kernel) <| .blank (.inl rfl) inner.spells
  found := by
    rw [List.cons_append, type_pointer, inner.found]
    simp only [TypeExpr.tree, TypeExpr.package?]
    cases type.package? <;> rfl

/-- A type of a package is rewritten by giving it the name of the package. -/
theorem imported {path : String} {qualifier : String} {name : List Char}
    (named : isName (Import.nameOf imports path) = true)
    (spells : Spells true true ('.' :: (name ++ ['\n'])) (.sign "." :: (symbols ++ [.lineEnd])))
    (found : outcome GoExpr.erase (Code.GoReader.type steps)
      (.name qualifier :: .sign "." :: (symbols ++ [.lineEnd])) = some (tree, [.lineEnd])) :
    Rewrites imports (.imported path (String.ofList name)) ends steps
      (.name qualifier :: .sign "." :: symbols) tree
      (.name (Import.nameOf imports path) :: .sign "." :: symbols) where
  length := rfl
  bracket head := by simp at head
  spells := by
    have chars : (Generation.typeText imports (.imported path (String.ofList name))).toList ++ ['\n'] =
        (Import.nameOf imports path).toList ++ '.' :: (name ++ ['\n']) := by
      simp [Generation.typeText]
    rw [chars]
    exact .name named (by decide +kernel) spells
  found := type_requalified found _

end Rewrites

/-- The symbols of a type start as those of types do. -/
theorem exists_startsType
    (found : outcome GoExpr.erase (type steps) (symbols ++ [.lineEnd]) = some (tree, [.lineEnd])) :
    ∃ symbol more, symbols = symbol :: more ∧ startsType symbol = true := by
  cases symbols with
  | nil => cases startsType_of_type found
  | cons symbol more => exact ⟨symbol, more, rfl, startsType_of_type found⟩

/-- The name of a package in a path is a name of its own, or it is all there is. -/
theorem baseName_eq (path : String) :
    baseName path = "." ∨ baseName path = "/" ∨
      (baseName path).toList ≠ [] ∧ ∀ char ∈ (baseName path).toList, char ∈ path.toList ∧ char ≠ '/' := by
  unfold baseName
  split
  · split
    · exact .inl rfl
    · exact .inr (.inl rfl)
  · next chars filled =>
    refine .inr (.inr ⟨by simpa using filled, fun char member => ?_⟩)
    rw [String.toList_ofList, List.mem_reverse] at member
    have inside := List.takeWhile_subset _ member
    have away := List.all_eq_true.mp (List.all_takeWhile (p := (· ≠ '/'))) char member
    refine ⟨?_, by simpa using away⟩
    exact List.mem_reverse.mp (List.dropWhile_subset _ inside)

/-- Some characters can stand in front of the point of a type of an imported package. -/
def IsQualifier (chars : List Char) : Prop :=
  chars ≠ [] ∧ ∀ char ∈ chars, Code.PackagePath.isUsual char = true ∧ char ≠ '/' ∧ char ≠ '.'

/-- A type without brackets and stars is one of an imported package, or stays as it is written. -/
theorem ofName_eq (usual : ∀ path ∈ paths, isUsualImport path = true) (chars : List Char) :
    TypeExpr.ofName paths chars = .written (String.ofList chars) ∨
      ∃ path qualifier name, chars = qualifier ++ '.' :: name ∧
        TypeExpr.ofName paths chars = .imported path (String.ofList name) ∧
        (qualifier = ['/'] ∨ IsQualifier qualifier) := by
  rcases cut : chars.span (· ≠ '.') with ⟨qualifier, _ | ⟨point, name⟩⟩
  · left
    simp only [TypeExpr.ofName, cut]
  cases chosen : (paths.map fun path => String.ofList (unquote path.toList)).find?
      fun path => baseName path == String.ofList qualifier with
  | none =>
    left
    simp only [TypeExpr.ofName, cut, chosen]
  | some path =>
    have same : TypeExpr.ofName paths chars = .imported path (String.ofList name) := by
      simp only [TypeExpr.ofName, cut, chosen]
    rw [List.span_eq_takeWhile_dropWhile, Prod.mk.injEq] at cut
    have joined := List.takeWhile_append_dropWhile (p := (· ≠ '.')) (l := chars)
    rw [cut.1, cut.2] at joined
    have stops := List.head?_dropWhile_not (fun char : Char => decide (char ≠ '.')) chars
    rw [cut.2] at stops
    obtain rfl : point = '.' := by simpa using stops
    have points : ∀ char ∈ qualifier, char ≠ '.' := by
      intro char member
      rw [← cut.1] at member
      have away := List.all_takeWhile (p := fun char : Char => decide (char ≠ '.')) (l := chars)
      simpa using List.all_eq_true.mp away char member
    have base : (baseName path).toList = qualifier := by
      have matched := List.find?_some chosen
      rw [beq_iff_eq] at matched
      rw [matched, String.toList_ofList]
    have inPath : ∀ char ∈ path.toList, Code.PackagePath.isUsual char = true := by
      obtain ⟨written, member, rfl⟩ := List.mem_map.mp (List.mem_of_find?_eq_some chosen)
      rw [String.toList_ofList]
      exact List.all_eq_true.mp (usual written member)
    refine .inr ⟨path, qualifier, name, joined.symm, same, ?_⟩
    subst base
    obtain point | slash | ⟨filled, inside⟩ := baseName_eq path
    · rw [point] at points
      exact absurd rfl (points '.' (List.mem_singleton.mpr rfl))
    · rw [slash]
      exact .inl rfl
    · exact .inr ⟨filled, fun char member =>
        ⟨inPath char (inside char member).1, (inside char member).2, points char member⟩⟩

/-- A text that is written as it stands. -/
theorem Rewrites.written (spells : Spells ends true (chars ++ ['\n']) (symbols ++ [.lineEnd]))
    (found : outcome GoExpr.erase (type steps) (symbols ++ [.lineEnd]) = some (tree, [.lineEnd])) :
    Rewrites imports (.written (String.ofList chars)) ends steps symbols tree symbols :=
  ⟨rfl, id, by rwa [Generation.typeText, String.toList_ofList], found⟩

private theorem rewrites_ofName (usual : ∀ path ∈ paths, isUsualImport path = true)
    (named : ∀ path, (TypeExpr.ofName paths chars).package? = some path →
      isName (Import.nameOf imports path) = true)
    (spells : Spells ends true (chars ++ ['\n']) (symbols ++ [.lineEnd]))
    (found : outcome GoExpr.erase (type steps) (symbols ++ [.lineEnd]) = some (tree, [.lineEnd])) :
    ∃ written, Rewrites imports (.ofName paths chars) ends steps symbols tree written := by
  obtain same | ⟨path, qualifier, name, rfl, same, shape⟩ := ofName_eq usual chars
  · rw [same]
    exact ⟨symbols, .written spells found⟩
  · rw [same] at named ⊢
    rw [List.append_assoc, List.cons_append] at spells
    obtain rfl | ⟨filled, plain⟩ := shape
    · obtain ⟨symbol, more, rfl, starts⟩ := exists_startsType found
      rw [Spells.head_of_slash spells] at starts
      cases starts
    · obtain ⟨-, rest, split, behind⟩ := spells.of_qualifier filled plain found
      obtain ⟨more, rfl, left⟩ := exists_cons_of_lineEnd split nofun
      obtain ⟨more, rfl, rfl⟩ := exists_cons_of_lineEnd left.symm nofun
      exact ⟨_, .imported (named path rfl) behind found⟩

/-- Every type that is read is rewritten with the names that packages are imported under. -/
theorem rewrites_ofChars (usual : ∀ path ∈ paths, isUsualImport path = true)
    (named : ∀ path, (TypeExpr.ofChars paths chars).package? = some path →
      isName (Import.nameOf imports path) = true)
    (spells : Spells ends true (chars ++ ['\n']) (symbols ++ [.lineEnd]))
    (found : outcome GoExpr.erase (type steps) (symbols ++ [.lineEnd]) = some (tree, [.lineEnd])) :
    ∃ written, Rewrites imports (.ofChars paths chars) ends steps symbols tree written := by
  fun_induction TypeExpr.ofChars paths chars generalizing ends symbols steps tree with
  | case1 chars element shape ih =>
    obtain ⟨symbol, more, rfl, starts⟩ := exists_startsType found
    rw [unquote_eq spells starts] at shape
    subst shape
    obtain ⟨rest, split, inside⟩ := spells.of_slice
    obtain ⟨rfl, behind⟩ := List.cons.inj split
    obtain ⟨more, rfl, rfl⟩ := exists_cons_of_lineEnd behind nofun
    match steps with
    | 0 => cases found
    | 1 => cases found
    | steps + 2 =>
      rw [List.cons_append, List.cons_append, type_slice] at found
      obtain ⟨⟨inner, left⟩, found, same⟩ := Option.map_eq_some_iff.mp found
      cases same
      obtain ⟨written, rewrites⟩ := ih named inside found
      exact ⟨_, rewrites.slice⟩
  | case2 chars target shape ih =>
    obtain ⟨symbol, more, rfl, starts⟩ := exists_startsType found
    rw [unquote_eq spells starts] at shape
    subst shape
    obtain ⟨rfl, inside⟩ := spells.of_star starts
    cases steps with
    | zero => cases found
    | succ steps =>
      rw [List.cons_append, type_pointer] at found
      obtain ⟨⟨inner, left⟩, found, same⟩ := Option.map_eq_some_iff.mp found
      cases same
      obtain ⟨written, rewrites⟩ := ih named inside found
      exact ⟨_, rewrites.pointer⟩
  | case3 chars other =>
    obtain ⟨symbol, more, rfl, starts⟩ := exists_startsType found
    rw [unquote_eq spells starts] at named ⊢
    exact rewrites_ofName usual named spells found

private theorem ofChars_eq (paths : List String) (plain : unquote chars = chars) :
    (∃ element, chars = '[' :: ']' :: element ∧
        TypeExpr.ofChars paths chars = .slice (.ofChars paths element)) ∨
      (∃ target, chars = '*' :: target ∧
        TypeExpr.ofChars paths chars = .pointer (.ofChars paths target)) ∨
      TypeExpr.ofChars paths chars = .ofName paths chars := by
  fun_cases TypeExpr.ofChars paths chars with
  | case1 element shape => exact .inl ⟨element, plain.symm.trans shape, rfl⟩
  | case2 target shape => exact .inr (.inl ⟨target, plain.symm.trans shape, rfl⟩)
  | case3 other => exact .inr (.inr (congrArg _ plain))

/-- A text that spells a type still does so in generated code. -/
theorem spellsType_ofChars (usual : ∀ path ∈ paths, isUsualImport path = true)
    (named : ∀ path, (TypeExpr.ofChars paths chars).package? = some path →
      isName (Import.nameOf imports path) = true) (spelled : SpellsType chars tree) :
    SpellsType (Generation.typeText imports (.ofChars paths chars)).toList
      ((TypeExpr.ofChars paths chars).tree imports tree) := by
  obtain ⟨symbols, spells, typed⟩ := spelled
  obtain ⟨symbol, more, rfl, starts⟩ := typed.startsType
  have plain := unquote_eq spells starts
  by_cases bracket : symbol = .sign "["
  · subst bracket
    obtain ⟨element, rfl, same⟩ | ⟨target, rfl, same⟩ | same := ofChars_eq paths plain
    · rw [same] at named ⊢
      obtain ⟨rest, split, inside⟩ := spells.of_slice
      obtain ⟨more, rfl, rfl⟩ := exists_cons_of_lineEnd (List.cons.inj split).2 nofun
      obtain ⟨fewer, inner, enough, rfl, found⟩ := typed_slice_iff.mp typed
      obtain ⟨written, rewrites⟩ := rewrites_ofChars usual named inside found
      have whole : Rewrites imports (.slice (.ofChars paths element)) true (fewer + 2)
          (.sign "[" :: .sign "]" :: more) (.array {} none inner) _ := rewrites.slice
      refine ⟨_, whole.spells, typed_slice_iff.mpr ⟨fewer, _, ?_, ?_, rewrites.found⟩⟩
      · rw [whole.length, enough]
      · simp only [TypeExpr.tree, TypeExpr.package?]
        cases (TypeExpr.ofChars paths element).package? <;> rfl
    · exact absurd (spells.of_star starts).1 (by decide)
    · rw [same] at named ⊢
      obtain same | ⟨path, qualifier, name, rfl, same, shape⟩ := ofName_eq usual chars
      · rw [same, Generation.typeText, String.toList_ofList]
        exact ⟨_, spells, typed⟩
      · rw [List.append_assoc, List.cons_append] at spells
        obtain rfl | ⟨filled, usual⟩ := shape
        · rw [Spells.head_of_slash spells] at starts
          cases starts
        · obtain _ | ⟨first, others⟩ := qualifier
          · exact absurd rfl filled
          · obtain ⟨usual, slash, -⟩ := usual first (List.mem_cons_self ..)
            exact absurd rfl (spells.head_ne_bracket usual slash)
  · obtain ⟨fewer, enough, found⟩ := (typed_iff_of_startsType starts bracket).mp typed
    obtain ⟨written, rewrites⟩ := rewrites_ofChars usual named spells found
    obtain ⟨symbol', more', rfl, starts'⟩ := exists_startsType rewrites.found
    refine ⟨_, rewrites.spells, ?_⟩
    rw [rewrites.length]
    refine (typed_iff_of_startsType starts' fun same => bracket ?_).mpr ⟨fewer, enough, rewrites.found⟩
    have head := rewrites.bracket (by rw [same]; rfl)
    exact Option.some.inj head

end SumType

end Scriptlet
