import Mathlib.Data.List.Induction
import Mathlib.Data.List.Perm.Basic
import Scriptlet.Proofs.Text.Encoding
import Scriptlet.Run.Environment

/-! # Environments as finite maps

An environment that was filled by binding names one after another holds the last value of
each name, and lists the names in byte order, each of them once
(`Environment.Reflects`). Only the last values matter for it
(`Environment.ofWrites_determined`). What carries this is that a binding keeps the names in
order (`Environment.sorted_set`).
-/

namespace Scriptlet

/-- Of two different names one stands before the other. -/
theorem nameBefore_of_not {left right : String} (differ : left ≠ right)
    (behind : ¬ nameBefore left right) : nameBefore right left := by
  have least : Bytes.ofString right ≤ Bytes.ofString left :=
    List.not_lt.mp (by simpa [nameBefore] using behind)
  have other : Bytes.ofString left ≠ Bytes.ofString right :=
    fun same => differ (Bytes.ofString_injective same)
  refine decide_eq_true (Decidable.by_contra fun unordered => other ?_)
  exact List.le_antisymm (List.not_lt.mp unordered) least

namespace Environment

variable {env : Environment} {name : String} {value : Value}

/-- Whether the names of some bindings are in byte order, each of them once. -/
def Sorted (bindings : List (String × Value)) : Prop :=
  bindings.Pairwise fun binding next => nameBefore binding.1 next.1

private theorem mem_insert {binding : String × Value} {bindings : List (String × Value)}
    (member : binding ∈ insert name value bindings) :
    binding = (name, value) ∨ binding ∈ bindings := by
  induction bindings with
  | nil => exact .inl (List.mem_singleton.mp member)
  | cons first rest ih =>
      obtain ⟨other, held⟩ := first
      rw [insert] at member
      split at member
      · exact (List.mem_cons.mp member).imp_right (List.mem_cons_of_mem _)
      · split at member
        · exact List.mem_cons.mp member
        · rcases List.mem_cons.mp member with rfl | later
          · exact .inr List.mem_cons_self
          · exact (ih later).imp_right (List.mem_cons_of_mem _)

private theorem nameBefore_trans {first second third : String} (before : nameBefore first second)
    (behind : nameBefore second third) : nameBefore first third :=
  decide_eq_true (List.lt_trans (of_decide_eq_true before) (of_decide_eq_true behind))

private theorem sorted_insert {bindings : List (String × Value)} (sorted : Sorted bindings) :
    Sorted (insert name value bindings) := by
  induction bindings with
  | nil => exact List.pairwise_singleton _ _
  | cons first rest ih =>
      obtain ⟨other, held⟩ := first
      obtain ⟨least, tail⟩ := List.pairwise_cons.mp sorted
      rw [insert]
      split
      · rename_i same
        subst same
        exact List.pairwise_cons.mpr ⟨least, tail⟩
      · rename_i differ
        split
        · rename_i before
          refine List.pairwise_cons.mpr ⟨fun binding member => ?_, sorted⟩
          rcases List.mem_cons.mp member with rfl | later
          · exact before
          · exact nameBefore_trans before (least binding later)
        · rename_i behind
          refine List.pairwise_cons.mpr ⟨fun binding member => ?_, ih tail⟩
          rcases mem_insert member with rfl | later
          · exact nameBefore_of_not differ behind
          · exact least binding later

/-- Binding a name keeps the names in order. -/
theorem sorted_set (sorted : Sorted env.bindings) : Sorted (env.set name value).bindings :=
  sorted_insert sorted

/-- The names of an environment are those with a value. -/
theorem mem_names_iff : name ∈ env.names ↔ ∃ value, env.get? name = some value := by
  unfold names get?
  induction env.bindings with
  | nil => simp
  | cons first rest ih =>
      obtain ⟨other, held⟩ := first
      rw [List.map_cons, List.mem_cons, ih, lookup_binding]
      by_cases same : name = other
      · simp [same]
      · simp [same]

/-- The environment after names were bound in order, with none bound at first. -/
def ofWrites (writes : List (String × Value)) : Environment :=
  writes.foldl (fun env write => env.set write.1 write.2) empty

/-- One more write sets one more value. -/
theorem ofWrites_append_singleton (writes : List (String × Value)) (name : String)
    (value : Value) : ofWrites (writes ++ [(name, value)]) = (ofWrites writes).set name value := by
  simp only [ofWrites, List.foldl_append, List.foldl_cons, List.foldl_nil]

/-- The value that was bound to a name last. -/
def IsLast (writes : List (String × Value)) (name : String) (value : Value) : Prop :=
  ∃ before after, writes = before ++ (name, value) :: after ∧
    ∀ later ∈ after, later.1 ≠ name

/-- Without writes there is no last one. -/
theorem not_isLast_nil : ¬ IsLast [] name value := by
  rintro ⟨before, after, split, _⟩
  simp at split

/-- The last value of a name is that of the last binding, if it is one of the name, and
else what it was before. -/
theorem isLast_append_singleton_iff {writes : List (String × Value)} {other : String}
    {held : Value} :
    IsLast (writes ++ [(other, held)]) name value ↔
      if name = other then held = value else IsLast writes name value := by
  constructor
  · rintro ⟨before, after, split, unique⟩
    rcases List.eq_nil_or_concat after with rfl | ⟨inner, last, rfl⟩
    · obtain ⟨rfl, same⟩ := List.append_inj' split rfl
      cases same
      exact (if_pos rfl).mpr rfl
    · rw [List.concat_eq_append] at split unique
      rw [← List.cons_append, ← List.append_assoc] at split
      obtain ⟨rfl, same⟩ := List.append_inj' split rfl
      cases same
      have differ : other ≠ name := unique (other, held) (by simp)
      rw [if_neg differ.symm]
      exact ⟨before, inner, rfl, fun later member => unique later (List.mem_append_left _ member)⟩
  · intro last
    by_cases same : name = other
    · rw [if_pos same] at last
      subst same last
      exact ⟨writes, [], rfl, fun later => nofun⟩
    · rw [if_neg same] at last
      obtain ⟨before, after, rfl, unique⟩ := last
      refine ⟨before, after ++ [(other, held)], by simp, fun later member => ?_⟩
      rcases List.mem_append.mp member with inside | final
      · exact unique later inside
      · rw [List.mem_singleton.mp final]
        exact fun equal => same equal.symm

/-- A name has the value that was written to it last. -/
theorem get?_ofWrites_iff {writes : List (String × Value)} :
    (ofWrites writes).get? name = some value ↔ IsLast writes name value := by
  induction writes using List.reverseRecOn with
  | nil => exact iff_of_false (fun found => nomatch found) not_isLast_nil
  | append_singleton writes write ih =>
      rw [ofWrites_append_singleton, get?_set, isLast_append_singleton_iff]
      split
      · exact Option.some_inj
      · exact ih

private theorem sorted_ofWrites (writes : List (String × Value)) : Sorted (ofWrites writes).bindings := by
  induction writes using List.reverseRecOn with
  | nil => exact .nil
  | append_singleton writes write ih =>
      rw [ofWrites_append_singleton]
      exact sorted_set ih

/-- A name has a last value if it was bound at all. -/
theorem exists_isLast_iff {writes : List (String × Value)} :
    (∃ value, IsLast writes name value) ↔ ∃ value, (name, value) ∈ writes := by
  induction writes using List.reverseRecOn with
  | nil => simp [not_isLast_nil]
  | append_singleton writes write ih =>
      obtain ⟨other, held⟩ := write
      simp only [isLast_append_singleton_iff, List.mem_append, List.mem_singleton, Prod.mk.injEq]
      by_cases same : name = other
      · simp [same]
      · simpa [same] using ih

/-- What an environment shows of the bindings that were made in it. -/
structure Reflects (env : Environment) (writes : List (String × Value)) : Prop where
  /-- A name has the value that was bound to it last. -/
  found : ∀ name value, env.get? name = some value ↔ IsLast writes name value
  /-- A name has no value if none was ever bound to it. -/
  missing : ∀ name, env.get? name = none ↔ ∀ value, (name, value) ∉ writes
  /-- The names are strictly increasing in byte order. -/
  increasing : env.names.Pairwise fun name next => Bytes.ofString name < Bytes.ofString next
  /-- They are the names that were bound. -/
  listed : ∀ name, name ∈ env.names ↔ ∃ value, (name, value) ∈ writes
  counted : env.size = env.names.length

/-- An environment made by writes reflects them. -/
theorem ofWrites_reflects (writes : List (String × Value)) :
    (ofWrites writes).Reflects writes where
  found name value := get?_ofWrites_iff
  missing name := by
    rw [Option.eq_none_iff_forall_ne_some]
    simp only [ne_eq, get?_ofWrites_iff]
    rw [← not_exists, exists_isLast_iff, not_exists]
  increasing := List.pairwise_map.mpr ((sorted_ofWrites writes).imp of_decide_eq_true)
  listed name := by
    rw [mem_names_iff]
    simp only [get?_ofWrites_iff]
    exact exists_isLast_iff
  counted := (List.length_map _).symm

/-- The order of the names leaves no choice for their list. -/
theorem Reflects.names_eq {other : Environment} {writes others : List (String × Value)}
    (first : env.Reflects writes) (second : other.Reflects others)
    (alike : ∀ name, name ∈ env.names ↔ name ∈ other.names) : env.names = other.names := by
  have distinct {names : List String}
      (increasing : names.Pairwise fun name next => Bytes.ofString name < Bytes.ofString next) :
      names.Nodup := by
    refine increasing.imp fun before same => ?_
    rw [same] at before
    exact List.lt_irrefl _ before
  have same : env.names.Perm other.names :=
    (List.perm_ext_iff_of_nodup (distinct first.increasing) (distinct second.increasing)).mpr alike
  refine same.eq_of_pairwise (fun name next _ _ before behind => ?_) first.increasing
    second.increasing
  exact absurd behind (List.lt_asymm before)

/-- **Environments are finite maps.** An environment shows the last value of each name that
was bound in it, and the sorted list of these names. Bindings that leave every name with the
same value leave environments that cannot be told apart, in whatever order they were made. -/
theorem ofWrites_determined (writes : List (String × Value)) :
    (ofWrites writes).Reflects writes ∧
    ∀ others, (∀ name value, IsLast writes name value ↔ IsLast others name value) →
      (∀ name, (ofWrites writes).get? name = (ofWrites others).get? name) ∧
      (ofWrites writes).names = (ofWrites others).names ∧
      (ofWrites writes).size = (ofWrites others).size := by
  have reflects := ofWrites_reflects writes
  refine ⟨reflects, fun others alike => ?_⟩
  have found (name : String) : (ofWrites writes).get? name = (ofWrites others).get? name := by
    ext value
    rw [get?_ofWrites_iff, get?_ofWrites_iff]
    exact alike name value
  have names : (ofWrites writes).names = (ofWrites others).names := by
    refine reflects.names_eq (ofWrites_reflects others) fun name => ?_
    rw [mem_names_iff, mem_names_iff, found]
  refine ⟨found, names, ?_⟩
  rw [reflects.counted, (ofWrites_reflects others).counted, names]

/-- A name that is bound twice, among others whose byte order is not that of their
letters. -/
theorem ofWrites_determined_rebound :
    (ofWrites [("b", .integer 1), ("a", .text []), ("Z", .absent), ("b", .integer 2)]).names =
      ["Z", "a", "b"] ∧
    (ofWrites [("b", .integer 1), ("a", .text []), ("Z", .absent), ("b", .integer 2)]).size =
      (ofWrites [("b", .integer 2), ("Z", .absent), ("a", .text [])]).size := by
  refine ⟨by decide, ((ofWrites_determined _).2 _ fun name value => ?_).2.2⟩
  simp only [← get?_ofWrites_iff]
  rw [show ofWrites [("b", .integer 1), ("a", .text []), ("Z", .absent), ("b", .integer 2)] =
    ofWrites [("b", .integer 2), ("Z", .absent), ("a", .text [])] by decide]

end Environment

end Scriptlet
