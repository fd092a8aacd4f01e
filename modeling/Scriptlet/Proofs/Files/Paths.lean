import Scriptlet.Files.Path

/-! # Cleaning paths

Splitting a path into names and joining names undo each other. The names that cleaning
keeps are settled (`Path.Settled`): nothing is left in them to remove, so that going on
from them is the same as going on from the names of the path itself
(`Path.foldl_push_parts_clean`).
-/

namespace Scriptlet

/-! ## Pieces of texts -/

/-- Splitting a text at a character is what the library does. -/
theorem splitAt_eq_splitOn (separator : Char) (text : List Char) :
    splitAt separator text = text.splitOn separator := by
  induction text with
  | nil => rfl
  | cons char rest ih =>
      rw [splitAt, List.splitOn, List.splitOnP_cons_eq_if_modifyHead, ← List.splitOn, ← ih]
      by_cases cut : char = separator
      · simp [cut]
      · cases split : splitAt separator rest with
        | nil => exact absurd (ih.symm.trans split) (List.splitOn_ne_nil separator rest)
        | cons piece pieces => simp [cut]

/-- There is at least one piece. -/
theorem splitAt_ne_nil (separator : Char) (text : List Char) : splitAt separator text ≠ [] := by
  rw [splitAt_eq_splitOn]
  exact List.splitOn_ne_nil separator text

/-- A text with a separator is split in front of it and behind it. -/
theorem splitAt_append_cons (separator : Char) (front back : List Char) :
    splitAt separator (front ++ separator :: back) =
      splitAt separator front ++ splitAt separator back := by
  simp only [splitAt_eq_splitOn, List.splitOn]
  exact List.splitOnP_append_cons front back (by simp)

/-- Pieces without separators are found again. -/
theorem splitAt_intercalate {separator : Char} {pieces : List (List Char)} (nonempty : pieces ≠ [])
    (whole : ∀ piece ∈ pieces, separator ∉ piece) :
    splitAt separator ([separator].intercalate pieces) = pieces := by
  rw [splitAt_eq_splitOn]
  exact List.splitOn_intercalate separator whole nonempty

/-- A text without separators is one piece. -/
theorem splitAt_of_not_mem {separator : Char} {text : List Char} (whole : separator ∉ text) :
    splitAt separator text = [text] := by
  have split : splitAt separator ([separator].intercalate [text]) = [text] :=
    splitAt_intercalate (List.cons_ne_nil text []) (by simpa using whole)
  rwa [List.intercalate_singleton] at split

private theorem not_mem_of_mem_splitAt {separator : Char} {text piece : List Char}
    (part : piece ∈ splitAt separator text) : separator ∉ piece := by
  induction text generalizing piece with
  | nil => simp_all [splitAt]
  | cons char rest ih =>
      rw [splitAt] at part
      split at part
      · rcases List.mem_cons.mp part with rfl | later
        · exact List.not_mem_nil
        · exact ih later
      · rename_i kept
        cases split : splitAt separator rest with
        | nil => exact absurd split (splitAt_ne_nil separator rest)
        | cons first pieces =>
            rw [split] at part
            have within : ∀ piece ∈ first :: pieces, separator ∉ piece := fun _ found =>
              ih (split ▸ found)
            rcases List.mem_cons.mp part with rfl | later
            · rw [List.mem_cons, not_or]
              exact ⟨Ne.symm kept, within first List.mem_cons_self⟩
            · exact within piece (List.mem_cons_of_mem first later)

private theorem head?_eq_some_iff_splitAt {separator : Char} {text : List Char} :
    text.head? = some separator ↔
      ∃ piece pieces, splitAt separator text = [] :: piece :: pieces := by
  cases text with
  | nil => simp [splitAt]
  | cons char rest =>
      obtain ⟨piece, pieces, split⟩ := List.exists_cons_of_ne_nil (splitAt_ne_nil separator rest)
      by_cases cut : char = separator <;> simp [splitAt, cut, split]

namespace Path

variable {absolute : Bool} {name path : String} {names stack : List String}

/-! ## Names -/

private theorem parts_ne_nil (path : String) : parts path ≠ [] := by
  simpa [parts] using splitAt_ne_nil '/' path.toList

/-- A path has a last part. -/
theorem exists_parts_eq_concat (path : String) : ∃ front name, parts path = front ++ [name] :=
  ⟨_, _, (List.dropLast_concat_getLast (parts_ne_nil path)).symm⟩

private theorem parts_empty : parts "" = [""] := by
  simp [parts, splitAt]

/-- The parts of two paths with a slash between them. -/
theorem parts_slash (front back : String) :
    parts (front ++ "/" ++ back) = parts front ++ parts back := by
  simp only [parts, String.toList_append, ← List.map_append, ← splitAt_append_cons]
  simp

/-- There is no slash in a part. -/
theorem slash_not_mem_of_mem_parts (part : name ∈ parts path) : '/' ∉ name.toList := by
  obtain ⟨piece, found, rfl⟩ := List.mem_map.mp part
  simpa using not_mem_of_mem_splitAt found

/-- No part is a slash. -/
theorem ne_slash_of_mem_parts (part : name ∈ parts path) : name ≠ "/" := by
  rintro rfl
  exact slash_not_mem_of_mem_parts part (by decide)

private theorem parts_join (nonempty : names ≠ []) (whole : ∀ name ∈ names, '/' ∉ name.toList) :
    parts (join names) = names := by
  have split : splitAt '/' (join names).toList = names.map String.toList := by
    rw [join, String.toList_intercalate]
    refine splitAt_intercalate (by simpa using nonempty) ?_
    rintro piece found
    obtain ⟨name, member, rfl⟩ := List.mem_map.mp found
    exact whole name member
  simp [parts, split, Function.comp_def]

/-- A path is absolute if its first name is empty and not its only one. -/
theorem isAbsolute_iff (path : String) :
    isAbsolute path = true ↔ ∃ name rest, parts path = "" :: name :: rest := by
  rw [isAbsolute, parts, beq_iff_eq, head?_eq_some_iff_splitAt]
  constructor
  · rintro ⟨piece, pieces, split⟩
    exact ⟨.ofList piece, pieces.map .ofList, by rw [split]; rfl⟩
  · rintro ⟨name, rest, split⟩
    obtain ⟨first, others, split, empty, others_eq⟩ := List.map_eq_cons_iff.mp split
    obtain ⟨piece, pieces, rfl, _⟩ := List.map_eq_cons_iff.mp others_eq
    rw [String.ofList_eq_empty_iff.mp empty] at split
    exact ⟨piece, pieces, split⟩

/-! ## Settled names -/

/-- A name leads nowhere, up or down. -/
theorem name_cases (name : String) :
    (name = "" ∨ name = ".") ∨ name = ".." ∨ name ∉ ["", ".", ".."] := by
  by_cases blank : name = "" ∨ name = "."
  · exact .inl blank
  · by_cases up : name = ".."
    · exact .inr (.inl up)
    · exact .inr (.inr (by simp_all))

/-- An empty name and a single dot lead nowhere. -/
theorem push_of_blank (blank : name = "" ∨ name = ".") : push absolute stack name = stack :=
  if_pos blank

/-- A proper name leads one level down. -/
theorem push_of_proper (proper : name ∉ ["", ".", ".."]) :
    push absolute stack name = name :: stack := by
  simp_all [push]

/-- Two dots take a proper name back. -/
theorem push_up_of_proper (proper : name ∉ ["", ".", ".."]) :
    push absolute (name :: stack) ".." = stack := by
  simp_all [push]

/-- Two dots behind two dots are kept. -/
theorem push_up_up : push absolute (".." :: stack) ".." = ".." :: ".." :: stack := rfl

/-- A step adds no other name than its own. -/
theorem mem_of_mem_push {other : String} (member : other ∈ push absolute stack name) :
    other = name ∨ other ∈ stack := by
  unfold push at member
  grind

/-- Steps add no other names than their own. -/
theorem mem_of_mem_foldl_push (member : name ∈ names.foldl (push absolute) stack) :
    name ∈ names ∨ name ∈ stack := by
  induction names generalizing stack with
  | nil => exact .inr member
  | cons first names ih =>
      rcases ih member with later | held
      · exact .inl (List.mem_cons_of_mem first later)
      · rcases mem_of_mem_push held with rfl | below
        · exact .inl List.mem_cons_self
        · exact .inr below

private theorem foldl_push_of_blank (blank : ∀ name ∈ names, name = "" ∨ name = ".") :
    names.foldl (push absolute) stack = stack := by
  induction names with
  | nil => rfl
  | cons name names ih =>
      obtain ⟨first, rest⟩ := List.forall_mem_cons.mp blank
      rw [List.foldl_cons, push_of_blank first, ih rest]

/-- Names, the last one first, in which there is nothing to remove: none is empty or a
dot, and one that goes up is only preceded by others that go up, in a relative path. -/
inductive Settled (absolute : Bool) : List String → Prop
  | nil : Settled absolute []
  | up {stack : List String} (relative : absolute = false)
      (above : ∀ name ∈ stack, name = "..") (settled : Settled absolute stack) :
      Settled absolute (".." :: stack)
  | down {name : String} {stack : List String} (proper : name ∉ ["", ".", ".."])
      (settled : Settled absolute stack) : Settled absolute (name :: stack)

namespace Settled

/-- What is settled is settled one level up. -/
theorem tail (settled : Settled absolute (name :: stack)) : Settled absolute stack := by
  cases settled with
  | up _ _ settled => exact settled
  | down _ settled => exact settled

private theorem not_blank (settled : Settled absolute stack) (member : name ∈ stack) :
    ¬ (name = "" ∨ name = ".") := by
  induction settled with
  | nil => cases member
  | up relative above settled ih =>
      rcases List.mem_cons.mp member with rfl | below
      · decide
      · exact ih below
  | down proper settled ih =>
      rcases List.mem_cons.mp member with rfl | below
      · simp_all
      · exact ih below

/-- A name that is put behind settled names leaves settled names. -/
theorem push (settled : Settled absolute stack) (name : String) :
    Settled absolute (Path.push absolute stack name) := by
  rcases name_cases name with blank | rfl | proper
  · rw [push_of_blank blank]
    exact settled
  · cases settled with
    | nil =>
        cases absolute with
        | true => exact .nil
        | false => exact .up rfl (by simp) .nil
    | up relative above settled =>
        rw [push_up_up]
        exact .up relative (by simpa using above) (.up relative above settled)
    | down proper settled =>
        rw [push_up_of_proper proper]
        exact settled
  · rw [push_of_proper proper]
    exact .down proper settled

/-- Steps keep names settled. -/
theorem foldl_push (settled : Settled absolute stack) (names : List String) :
    Settled absolute (names.foldl (Path.push absolute) stack) := by
  induction names generalizing stack with
  | nil => exact settled
  | cons name names ih => exact ih (settled.push name)

/-- The last of settled names stays behind the others. -/
theorem push_head (settled : Settled absolute (name :: stack)) :
    Path.push absolute stack name = name :: stack := by
  cases settled with
  | up relative above settled =>
      cases stack with
      | nil =>
          rw [relative]
          rfl
      | cons name stack =>
          obtain rfl := above name List.mem_cons_self
          exact push_up_up
  | down proper settled => exact push_of_proper proper

/-- Of settled names nothing is removed. -/
theorem foldl_push_reverse (settled : Settled absolute stack) :
    stack.reverse.foldl (Path.push absolute) [] = stack := by
  rw [List.foldl_reverse]
  induction stack with
  | nil => rfl
  | cons name stack ih => rw [List.foldr_cons, ih settled.tail, settled.push_head]

end Settled

/-! ## Clean paths -/

/-- The parts of a cleaned path are settled. -/
theorem settled_cleanParts (path : String) :
    Settled (isAbsolute path) (cleanParts path).reverse := by
  rw [cleanParts, List.reverse_reverse]
  exact Settled.nil.foldl_push (parts path)

/-- No part of a cleaned path is empty or a single dot. -/
theorem not_blank_of_mem_cleanParts (member : name ∈ cleanParts path) :
    ¬ (name = "" ∨ name = ".") :=
  (settled_cleanParts path).not_blank (List.mem_reverse.mpr member)

/-- There is no slash in a part of a cleaned path. -/
theorem slash_not_mem_of_mem_cleanParts (member : name ∈ cleanParts path) :
    '/' ∉ name.toList := by
  rcases mem_of_mem_foldl_push (List.mem_reverse.mp member) with part | none
  · exact slash_not_mem_of_mem_parts part
  · cases none

/-- The parts of a cleaned path are found again once they are joined. -/
theorem parts_join_cleanParts (kept : cleanParts path ≠ []) :
    parts (join (cleanParts path)) = cleanParts path :=
  parts_join kept fun _ => slash_not_mem_of_mem_cleanParts

private theorem join_cleanParts_ne_empty (kept : cleanParts path ≠ []) : join (cleanParts path) ≠ "" := by
  intro empty
  have split := parts_join_cleanParts kept
  rw [empty] at split
  have member : "" ∈ cleanParts path := by
    rw [← split]
    decide
  exact not_blank_of_mem_cleanParts member (.inl rfl)

/-- A cleaned path from the root. -/
theorem clean_of_absolute (rooted : isAbsolute path = true) :
    clean path = "/" ++ join (cleanParts path) := by
  rw [clean, if_pos rooted]

/-- A relative path of which nothing is left becomes a single dot. -/
theorem clean_of_cleanParts_eq_nil (relative : isAbsolute path = false)
    (lost : cleanParts path = []) : clean path = "." := by
  simp [clean, relative, lost, join]

/-- A relative path of which something is left becomes that. -/
theorem clean_of_cleanParts_ne_nil (relative : isAbsolute path = false)
    (kept : cleanParts path ≠ []) : clean path = join (cleanParts path) := by
  simp [clean, relative, join_cleanParts_ne_empty kept]

/-- The names of a clean path are those that were kept, behind some that lead nowhere. -/
theorem exists_parts_clean (path : String) :
    ∃ lead, (∀ name ∈ lead, name = "" ∨ name = ".") ∧
      parts (clean path) = lead ++ cleanParts path := by
  cases absolute : isAbsolute path with
  | true =>
      have rooted : parts (clean path) = "" :: parts (join (cleanParts path)) := by
        have split := parts_slash "" (join (cleanParts path))
        rw [String.empty_append, parts_empty] at split
        rw [clean_of_absolute absolute, split, List.singleton_append]
      by_cases kept : cleanParts path = []
      · exact ⟨["", ""], by simp, by rw [rooted, kept]; rfl⟩
      · exact ⟨[""], by simp, by rw [rooted, parts_join_cleanParts kept]; rfl⟩
  | false =>
      by_cases kept : cleanParts path = []
      · exact ⟨["."], by simp, by rw [clean_of_cleanParts_eq_nil absolute kept, kept]; rfl⟩
      · refine ⟨[], by simp, ?_⟩
        rw [clean_of_cleanParts_ne_nil absolute kept, parts_join_cleanParts kept]
        rfl

/-- A cleaned path is not empty. -/
theorem clean_ne_empty (path : String) : clean path ≠ "" := by
  rw [clean]
  split
  · simp
  · split
    · decide
    · assumption

@[simp]
theorem isAbsolute_clean (path : String) : isAbsolute (clean path) = isAbsolute path := by
  cases absolute : isAbsolute path with
  | true => simp [clean_of_absolute absolute, isAbsolute]
  | false =>
      by_cases kept : cleanParts path = []
      · rw [clean_of_cleanParts_eq_nil absolute kept]
        decide
      · rw [clean_of_cleanParts_ne_nil absolute kept, ← Bool.not_eq_true, isAbsolute_iff,
          parts_join_cleanParts kept]
        rintro ⟨name, rest, split⟩
        have member : "" ∈ cleanParts path := by
          rw [split]
          exact List.mem_cons_self
        exact not_blank_of_mem_cleanParts member (.inl rfl)

/-- **Cleaning is final.** The names of a clean path keep the same names as those of the
path. -/
theorem foldl_push_parts_clean (path : String) :
    (parts (clean path)).foldl (push (isAbsolute path)) [] =
      (parts path).foldl (push (isAbsolute path)) [] := by
  obtain ⟨lead, blank, split⟩ := exists_parts_clean path
  have settled := (settled_cleanParts path).foldl_push_reverse
  rw [List.reverse_reverse] at settled
  rw [split, List.foldl_append, foldl_push_of_blank blank, settled, cleanParts,
    List.reverse_reverse]

/-- A path is cleaned to a single name if that is all that is kept of it. -/
theorem clean_eq_iff (proper : name ∉ ["", ".", ".."]) (whole : '/' ∉ name.toList) :
    clean path = name ↔ isAbsolute path = false ∧ cleanParts path = [name] := by
  have single : parts name = [name] := by
    simp [parts, splitAt_of_not_mem whole]
  constructor
  · intro same
    have relative : isAbsolute path = false := by
      rw [← isAbsolute_clean, same, ← Bool.not_eq_true, isAbsolute_iff, single]
      rintro ⟨other, rest, split⟩
      cases split
    refine ⟨relative, ?_⟩
    obtain ⟨lead, blank, split⟩ := exists_parts_clean path
    rw [same, single] at split
    cases lead with
    | nil => exact split.symm
    | cons first lead =>
        obtain ⟨rfl, _⟩ := List.cons.inj split
        rcases blank name List.mem_cons_self with rfl | rfl
        · exact (proper (by decide)).elim
        · exact (proper (by decide)).elim
  · rintro ⟨relative, kept⟩
    rw [clean_of_cleanParts_ne_nil relative (by simp [kept]), kept]
    simp [join]

/-! ## Directories -/

/-- Characters behind the last slash are dropped from the end. -/
theorem dropWhile_ne_slash {behind : List Char} (whole : '/' ∉ behind) (rest : List Char) :
    (behind.reverse ++ rest).dropWhile (· ≠ '/') = rest.dropWhile (· ≠ '/') := by
  refine List.dropWhile_append_of_pos ?_
  intro char member
  simp only [decide_eq_true_eq]
  rintro rfl
  exact whole (List.mem_reverse.mp member)

private theorem directory_of_not_mem (whole : '/' ∉ path.toList) : directory path = clean "" := by
  have none := dropWhile_ne_slash whole []
  rw [List.append_nil] at none
  rw [directory, none]
  rfl

private theorem directory_of_append {front behind : List Char} (whole : '/' ∉ behind)
    (cut : path.toList = front ++ '/' :: behind) :
    directory path = clean (.ofList front ++ "/" ++ "") := by
  rw [directory, cut]
  simp only [List.reverse_append, List.reverse_cons, List.append_assoc, dropWhile_ne_slash whole]
  simp

/-- The parts in front of the last one tell whether a path starts at the root. -/
theorem isAbsolute_congr {front : String} (split : parts front = (parts path).dropLast ++ [""]) :
    isAbsolute front = isAbsolute path := by
  rw [Bool.eq_iff_iff, isAbsolute_iff, isAbsolute_iff, split]
  match parts path with
  | [] => simp
  | [name] => simp
  | first :: second :: rest =>
      have more : ((second :: rest).dropLast ++ [""]) ≠ [] := by simp
      obtain ⟨next, others, tail⟩ := List.exists_cons_of_ne_nil more
      simp [List.dropLast_cons_of_ne_nil, tail]

/-- The directory of a path is what is in front of its last name. -/
theorem exists_directory (path : String) :
    ∃ front, directory path = clean front ∧ isAbsolute front = isAbsolute path ∧
      parts front = (parts path).dropLast ++ [""] := by
  by_cases slash : '/' ∈ path.toList.reverse
  · obtain ⟨behind, front, cut, whole⟩ := List.eq_append_cons_of_mem slash
    rw [List.reverse_eq_iff, List.reverse_append, List.reverse_cons, List.append_assoc] at cut
    have last : '/' ∉ behind.reverse := mt List.mem_reverse.mp whole
    have split : parts path = parts (.ofList front.reverse) ++ [.ofList behind.reverse] := by
      simp [parts, cut, splitAt_append_cons, splitAt_of_not_mem last]
    have names : parts (.ofList front.reverse ++ "/" ++ "") = (parts path).dropLast ++ [""] := by
      rw [parts_slash, split, List.dropLast_concat]
      rfl
    exact ⟨_, directory_of_append last cut, isAbsolute_congr names, names⟩
  · have whole := mt List.mem_reverse.mpr slash
    have names : parts "" = (parts path).dropLast ++ [""] := by
      simp [parts, splitAt_of_not_mem whole, splitAt]
    exact ⟨_, directory_of_not_mem whole, isAbsolute_congr names, names⟩

private theorem isAbsolute_directory (path : String) : isAbsolute (directory path) = isAbsolute path := by
  obtain ⟨front, cleaned, rooted, _⟩ := exists_directory path
  rw [cleaned, isAbsolute_clean, rooted]

private theorem directory_ne_empty (path : String) : directory path ≠ "" :=
  clean_ne_empty _

private theorem isAbsolute_append {front : String} (nonempty : front ≠ "") (back : String) :
    isAbsolute (front ++ back) = isAbsolute front := by
  obtain ⟨char, rest, cut⟩ := List.exists_cons_of_ne_nil (mt String.toList_eq_nil_iff.mp nonempty)
  simp [isAbsolute, cut]

/-- A path below the directory of another one starts where that one starts. -/
theorem isAbsolute_below (path entry : String) :
    isAbsolute (directory path ++ "/" ++ entry) = isAbsolute path := by
  rw [String.append_assoc, isAbsolute_append (directory_ne_empty path), isAbsolute_directory]

/-- **What is kept in a directory.** The names below the directory of a path are kept as if
they stood in place of the last name of the path. -/
theorem cleanParts_below (path entry : String) :
    cleanParts (directory path ++ "/" ++ entry) =
      (((parts path).dropLast ++ parts entry).foldl (push (isAbsolute path)) []).reverse := by
  obtain ⟨front, cleaned, rooted, split⟩ := exists_directory path
  have kept := foldl_push_parts_clean front
  rw [← cleaned, rooted, split, List.foldl_append, List.foldl_cons, push_of_blank (.inl rfl),
    List.foldl_nil] at kept
  rw [cleanParts, isAbsolute_below, parts_slash, List.foldl_append, List.foldl_append, kept]

end Path

end Scriptlet
