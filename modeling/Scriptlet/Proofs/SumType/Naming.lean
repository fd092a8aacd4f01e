import Mathlib.Data.List.Nodup
import Mathlib.Data.List.Perm.Subperm
import Scriptlet.Proofs.Code.Scanning
import Scriptlet.Proofs.Text.Decimal
import Scriptlet.SumType.Import

/-!
# Names in generated code

Generated code uses the names of a description, names that are made from these, and names of
imported packages. All of them are names of Go: the first ones are made with characters that no
keyword has, and for a package there is always a number that makes its name free.
-/

namespace Scriptlet

namespace Code

/-- A word goes on with characters of names. -/
theorem isWord_append {front back : List Char} (valid : isWord front = true)
    (continues : back.all continuesName = true) : isWord (front ++ back) = true := by
  cases front with
  | nil => cases valid
  | cons first others =>
    simp only [isWord, Bool.and_eq_true] at valid
    simp [isWord, valid, continues]

/-- A text that has not only small letters is no keyword. -/
theorem not_keyword_of_any {text : String}
    (unusual : text.toList.any (fun char => !char.isLower) = true) :
    Symbol.keywords.contains text = false := by
  have checked : Symbol.keywords.any (fun keyword =>
      keyword.toList.any fun char => !char.isLower) = false := by
    decide +kernel
  rw [← Bool.not_eq_true, List.contains_iff_mem]
  exact fun member => List.any_eq_false.mp checked text member unusual

/-- A word that goes on is a name if it is not all in small letters. -/
theorem isName_append {front back : String} (valid : isWord front.toList = true)
    (continues : back.toList.all continuesName = true)
    (unusual : (front ++ back).toList.any (fun char => !char.isLower) = true) :
    isName (front ++ back) = true := by
  rw [isName, not_keyword_of_any unusual, String.toList_append, isWord_append valid continues]
  rfl

variable {name : String}

/-- The name of a marker method is a name. -/
theorem isName_marker (named : isName name = true) : isName ("is_" ++ name) = true :=
  isName_append (by decide +kernel) (all_continuesName_of_isWord (isWord_of_isName named)) (by
    rw [String.toList_append, List.any_append]
    rfl)

/-- The name of the method for a variant is a name. -/
theorem isName_visit (named : isName name = true) : isName ("Visit" ++ name) = true :=
  isName_append (by decide +kernel) (all_continuesName_of_isWord (isWord_of_isName named)) (by
    rw [String.toList_append, List.any_append]
    rfl)

/-- The name of the interface of visitors is a name. -/
theorem isName_visitor (named : isName name = true) : isName (name ++ "Visitor") = true :=
  isName_append (isWord_of_isName named) (by decide +kernel) (by
    rw [String.toList_append, List.any_append, Bool.or_comm]
    rfl)

end Code

namespace SumType

namespace Import

open Code (isWord isName isWord_of_isName isWord_append)

private theorem toNat_lt_of_isNameChar {char : Char} (usual : isNameChar char = true) :
    (97 ≤ char.toNat ∧ char.toNat ≤ 122) ∨ (48 ≤ char.toNat ∧ char.toNat ≤ 57) := by
  simpa [isNameChar, Char.le_def, UInt32.le_iff_toNat_le] using usual

/-- The digits by their numbers. -/
theorem isDigit_iff {char : Char} : char.isDigit = true ↔ 48 ≤ char.toNat ∧ char.toNat ≤ 57 := by
  simp [Char.isDigit, UInt32.le_iff_toNat_le]

/-- A digit can go on with a name. -/
theorem continuesName_of_isDigit {char : Char} (digit : char.isDigit = true) :
    continuesName char = true := by
  have small : char.toNat < 0x80 := by
    have bounds := isDigit_iff.mp digit
    omega
  simp [continuesName, isDecimalDigit, small, digit]

/-- A character of package names can start a name unless it is a digit. -/
theorem startsName_of_isNameChar {char : Char} (usual : isNameChar char = true)
    (letter : char.isDigit = false) : startsName char = true := by
  have bounds : 97 ≤ char.toNat ∧ char.toNat ≤ 122 :=
    (toNat_lt_of_isNameChar usual).resolve_right fun digit => by
      rw [isDigit_iff.mpr digit] at letter
      cases letter
  have isLetter : char.isAlpha = true := by
    delta Char.isAlpha Char.isUpper Char.isLower
    simp only [ge_iff_le, UInt32.le_iff_toNat_le, Char.reduceVal, UInt32.reduceToNat,
      Char.toNat_val, Bool.decide_and, Bool.or_eq_true, Bool.and_eq_true, decide_eq_true_eq]
    omega
  have small : char.toNat < 0x80 := by omega
  simp [startsName, Scriptlet.isLetter, small, isLetter]

private theorem continuesName_of_isNameChar {char : Char} (usual : isNameChar char = true) :
    continuesName char = true := by
  cases digit : char.isDigit with
  | true => exact continuesName_of_isDigit digit
  | false => rw [continuesName, startsName_of_isNameChar usual digit, Bool.true_or]

/-- The name that is made from a path is a word. -/
theorem isWord_nameOfPath (path : String) : isWord (nameOfPath path).toList = true := by
  have usual : ∀ char ∈ ((lastPart path).map lower).filter isNameChar, isNameChar char = true :=
    fun _ member => (List.mem_filter.mp member).2
  unfold nameOfPath
  generalize ((lastPart path).map lower).filter isNameChar = chars at usual ⊢
  split
  · decide +kernel
  · next filled =>
    have letter := List.head?_dropWhile_not Char.isDigit chars
    have inside : ∀ char ∈ chars.dropWhile Char.isDigit, isNameChar char = true :=
      fun char member => usual char (List.dropWhile_subset _ member)
    rw [String.toList_ofList]
    generalize chars.dropWhile Char.isDigit = left at filled letter inside ⊢
    obtain _ | ⟨first, others⟩ := left
    · exact absurd rfl filled
    rw [List.forall_mem_cons] at inside
    rw [isWord, startsName_of_isNameChar inside.1 (by simpa using letter), Bool.true_and,
      List.all_eq_true]
    exact fun char member => continuesName_of_isNameChar (inside.2 char member)

/-- A check of paths that are written out. -/
theorem all_isWord_lastPart {chars : List Char} {paths : List String}
    (first : isWord ((splitAt '/' (if chars.getLast? = some '/' then chars.dropLast
      else chars)).getLastD []) = true)
    (others : paths.all (fun path => isWord (lastPart path)) = true) :
    (String.ofList chars :: paths).all (fun path => isWord (lastPart path)) = true := by
  rw [List.all_cons, others, lastPart, String.toList_ofList, Bool.and_true]
  exact first

/-- The packages that come with Go are named with words. -/
theorem isWord_lastPart_standard {path : String} (known : path ∈ standard) :
    isWord (lastPart path) = true := by
  have checked : standard.all (fun path => isWord (lastPart path)) = true := by
    rw [standard, List.all_append, List.all_append, Bool.and_eq_true, Bool.and_eq_true]
    unfold publicPackages internalPackages commandPackages
    -- The characters of a text that is written out are known only if it is taken as their list.
    refine ⟨⟨?_, ?_⟩, ?_⟩ <;>
    · repeat refine all_isWord_lastPart rfl ?_
      rfl
  exact List.all_eq_true.mp checked path known

private theorem isWord_ownName (path : String) : isWord (ownName path).toList = true := by
  unfold ownName
  split
  · next known =>
    rw [String.toList_ofList]
    exact isWord_lastPart_standard (List.contains_iff_mem.mp known)
  · exact isWord_nameOfPath path

/-- A number that is not negative is written with its digits. -/
theorem text_natCast (number : Nat) :
    Decimal.text (number : Nat) = String.ofList (Decimal.digits number) :=
  rfl

/-- The names that are tried for a package if its own name is not free. -/
def numbered (name : String) (count : Nat) : List String :=
  (List.range count).map fun number => name ++ Decimal.text (number + 1 : Nat)

private theorem nodup_numbered (name : String) (count : Nat) : (numbered name count).Nodup := by
  refine List.nodup_range.map fun first second same => ?_
  have digits : Decimal.digits (first + 1) = Decimal.digits (second + 1) := by
    have spelled := congrArg String.toList same
    simp only [text_natCast, String.toList_append, String.toList_ofList] at spelled
    exact List.append_cancel_left spelled
  have value (number : Nat) := (Decimal.numeral_iff.mp (Decimal.numeral_digits number)).2.2
  have equal : first + 1 = second + 1 := by
    rw [← value (first + 1), ← value (second + 1), digits]
  omega

private theorem isWord_numbered {name other : String} {count : Nat} (valid : isWord name.toList = true)
    (member : other ∈ numbered name count) : isWord other.toList = true := by
  obtain ⟨number, -, rfl⟩ := List.mem_map.mp member
  rw [String.toList_append, text_natCast, String.toList_ofList]
  refine isWord_append valid (List.all_eq_true.mpr fun char digit => ?_)
  exact continuesName_of_isDigit
    ((Decimal.numeral_iff.mp (Decimal.numeral_digits (number + 1))).2.1 char digit)

/-- One of the names that are tried is free, because there are more of them than names to
avoid. -/
theorem exists_isFree (imports : List Import) (name : String) :
    ∃ other ∈ numbered name
        (Code.Symbol.keywords.length + predeclared.length + imports.length + 1),
      isFree imports other = true := by
  by_contra absent
  simp only [not_exists, not_and, Bool.not_eq_true] at absent
  have inside : numbered name
      (Code.Symbol.keywords.length + predeclared.length + imports.length + 1) ⊆
        Code.Symbol.keywords ++ predeclared ++ imports.map (·.name) := by
    intro other member
    have taken := absent other member
    simpa [isFree, or_assoc, imp_iff_not_or] using taken
  have atMost := ((nodup_numbered name _).subperm inside).length_le
  simp only [numbered, List.length_map, List.length_range, List.length_append] at atMost
  omega

private theorem isName_freeName (imports : List Import) {name : String}
    (valid : isWord name.toList = true) : isName (freeName imports name) = true := by
  obtain ⟨other, member, free⟩ := exists_isFree imports name
  have tried : ((name :: numbered name
      (Code.Symbol.keywords.length + predeclared.length + imports.length + 1)).find?
        (isFree imports)).isSome = true :=
    List.find?_isSome.mpr ⟨other, List.mem_cons_of_mem _ member, free⟩
  obtain ⟨chosen, found⟩ := Option.isSome_iff_exists.mp tried
  have same : freeName imports name = chosen := congrArg (·.getD name) found
  have word : isWord chosen.toList = true := by
    obtain rfl | member := List.mem_cons.mp (List.mem_of_find?_eq_some found)
    · exact valid
    · exact isWord_numbered valid member
  have free := List.find?_some found
  simp only [isFree, Bool.and_eq_true] at free
  rw [same, isName, word, free.1.1, Bool.true_and]

/-- Every import has a name of Go, and a package that is added is imported. -/
theorem add_spec {imports : List Import} (named : ∀ entry ∈ imports, isName entry.name = true)
    (path : String) :
    (∀ entry ∈ add imports path, isName entry.name = true) ∧
      (∃ entry ∈ add imports path, entry.path = path) ∧ imports ⊆ add imports path := by
  unfold add
  split
  · next known =>
    rw [List.contains_iff_mem, List.mem_map] at known
    exact ⟨named, known, fun _ member => member⟩
  · refine ⟨List.forall_mem_append.mpr ⟨named, List.forall_mem_singleton.mpr ?_⟩,
      ⟨_, List.mem_append_right _ (List.mem_singleton.mpr rfl), rfl⟩,
      fun _ member => List.mem_append_left _ member⟩
    show isName (if path = "C" then ownName path else freeName imports (ownName path)) = true
    split
    · next special =>
      subst special
      decide +kernel
    · exact isName_freeName imports (isWord_ownName path)

/-- Adding packages keeps the names valid, adds all of them and drops none. -/
theorem foldl_add_spec {imports : List Import}
    (named : ∀ entry ∈ imports, isName entry.name = true) (paths : List String) :
    (∀ entry ∈ paths.foldl add imports, isName entry.name = true) ∧
      (∀ path ∈ paths, ∃ entry ∈ paths.foldl add imports, entry.path = path) ∧
      imports ⊆ paths.foldl add imports := by
  induction paths generalizing imports with
  | nil => exact ⟨named, fun _ member => absurd member List.not_mem_nil, fun _ member => member⟩
  | cons path paths ih =>
    obtain ⟨named, ⟨entry, added, same⟩, kept⟩ := add_spec named path
    obtain ⟨named, imported, keeps⟩ := ih named
    refine ⟨named, List.forall_mem_cons.mpr ⟨⟨entry, keeps added, same⟩, imported⟩, ?_⟩
    exact fun _ member => keeps (kept member)

/-- The name that a package is imported under is a name. -/
theorem isName_of_mem_ofPaths {paths : List String} :
    ∀ entry ∈ ofPaths paths, isName entry.name = true :=
  (foldl_add_spec (fun _ member => absurd member List.not_mem_nil) paths).1

/-- Every package that is used has a name of Go. -/
theorem isName_nameOf {paths : List String} {path : String} (used : path ∈ paths) :
    isName (nameOf (ofPaths paths) path) = true := by
  obtain ⟨entry, member, same⟩ :=
    (foldl_add_spec (fun _ member => absurd member List.not_mem_nil) paths).2.1 path used
  have found : ((ofPaths paths).find? fun entry => entry.path == path).isSome = true :=
    List.find?_isSome.mpr ⟨entry, member, beq_iff_eq.mpr same⟩
  obtain ⟨chosen, found⟩ := Option.isSome_iff_exists.mp found
  rw [nameOf, found]
  exact isName_of_mem_ofPaths chosen (List.mem_of_find?_eq_some found)

end Import

end SumType

end Scriptlet
