import Scriptlet.Files.Tree
import Scriptlet.Proofs.Files.Paths

/-! # Following paths

A path that leads to a place leads there name by name, and every place on the way is a
directory (`FileTree.Open`). So a path leads where its clean form leads, and a path below
the directory of another one leads where its names lead from that directory. Writing a
file changes what stands at the place that its path leads to, and nothing else.
-/

namespace Scriptlet

open Scriptlet.Path (Settled isAbsolute parts clean cleanParts directory)

namespace Place

variable {name path : String} {names stack : List String} {place : Place}

/-- The place that names lead to, whatever stands on the way. -/
def walk (place : Place) (names : List String) : Place :=
  names.foldl move place

private theorem walk_append (place : Place) (front back : List String) :
    place.walk (front ++ back) = (place.walk front).walk back :=
  List.foldl_append

/-- An empty name and a single dot lead nowhere. -/
theorem move_of_blank (blank : name = "" ∨ name = ".") : place.move name = place :=
  if_pos blank

/-- A proper name leads one level down. -/
theorem move_of_proper (proper : name ∉ ["", ".", ".."]) : place.move name = place ++ [name] := by
  simp_all [move]

private theorem isGiven_origin (path : String) : (origin path).isGiven := by
  unfold origin
  split <;> decide

/-- The place where a path starts depends on whether it starts at the root. -/
theorem origin_congr {other : String} (same : isAbsolute other = isAbsolute path) :
    origin other = origin path := by
  rw [origin, origin, same]

/-- A cleaned path starts where the path starts. -/
theorem origin_clean (path : String) : origin (clean path) = origin path :=
  origin_congr (Path.isAbsolute_clean path)

/-- The place below the start of a path that has been reached is the list of the names that
are kept. -/
theorem move_origin (whole : ∀ name ∈ stack, name ≠ "/") (name : String) :
    (origin path ++ stack.reverse).move name =
      origin path ++ (Path.push (isAbsolute path) stack name).reverse := by
  unfold move Path.push
  split
  · rfl
  · split
    · cases stack with
      | nil =>
          unfold origin parent
          cases isAbsolute path <;> rfl
      | cons top rest =>
          -- The last name is not the root, so that a step up removes it.
          have solid : top ≠ "/" := whole top List.mem_cons_self
          have last : (origin path ++ (top :: rest).reverse).getLast? = some top := by simp
          rw [parent, last]
          by_cases up : top = ".."
          · subst up
            simp
          · simp [up]
    · simp

private theorem walk_origin_append (path : String) (held : ∀ name ∈ stack, name ≠ "/")
    (whole : ∀ name ∈ names, name ≠ "/") :
    (origin path ++ stack.reverse).walk names =
      origin path ++ (names.foldl (Path.push (isAbsolute path)) stack).reverse := by
  induction names generalizing stack with
  | nil => rfl
  | cons name names ih =>
      obtain ⟨first, rest⟩ := List.forall_mem_cons.mp whole
      have kept : ∀ other ∈ Path.push (isAbsolute path) stack name, other ≠ "/" := by
        intro other member
        rcases Path.mem_of_mem_push member with rfl | below
        · exact first
        · exact held other below
      calc
        (origin path ++ stack.reverse).walk (name :: names) =
            ((origin path ++ stack.reverse).move name).walk names := rfl
        _ = _ := by rw [move_origin held, ih kept rest, List.foldl_cons]

/-- **Places are kept names.** Names that are followed from the start of a path lead to the
place of those that cleaning keeps. -/
theorem walk_origin (path : String) (whole : ∀ name ∈ names, name ≠ "/") :
    (origin path).walk names =
      origin path ++ (names.foldl (Path.push (isAbsolute path)) []).reverse := by
  have walked := walk_origin_append path (List.forall_mem_nil _) whole
  rwa [List.reverse_nil, List.append_nil] at walked

/-- Walking along a path leads where the cleaned path says. -/
theorem walk_parts (path : String) :
    (origin path).walk (parts path) = origin path ++ cleanParts path :=
  walk_origin path fun _ => Path.ne_slash_of_mem_parts

/-- The place of the directory of a path, and names from there. -/
theorem walk_below (path entry : String) :
    ((origin path).walk (parts path).dropLast).walk (parts entry) =
      origin path ++ cleanParts (directory path ++ "/" ++ entry) := by
  rw [← walk_append, Path.cleanParts_below]
  refine walk_origin path ?_
  intro name member
  rcases List.mem_append.mp member with part | part
  · exact Path.ne_slash_of_mem_parts (List.dropLast_subset _ part)
  · exact Path.ne_slash_of_mem_parts part

/-- A path below the directory of another one is cleaned to a single name if it leads to
that name in the working directory. -/
theorem within_eq_iff (path entry : String) (proper : name ∉ ["", ".", ".."])
    (whole : '/' ∉ name.toList) : Path.within (directory path) entry = name ↔
      ((origin path).walk (parts path).dropLast).walk (parts entry) = [name] := by
  rw [Path.within, Path.clean_eq_iff proper whole, walk_below, Path.isAbsolute_below, origin]
  cases isAbsolute path with
  | true =>
      have other : "/" ≠ name := by
        rintro rfl
        exact whole (by decide)
      simp [other]
  | false => simp

end Place

namespace FileTree

variable {tree : FileTree} {name path : String} {names stack : List String}
  {place target above : Place}

/-! ## Names one after another -/

/-- A place that is always there is a directory. -/
theorem entry?_of_isGiven (given : place.isGiven) : tree.entry? place = some .directory :=
  if_pos given

/-- A directory, and nothing else, can be entered. -/
theorem enter_eq_ok_iff : tree.enter place name = .ok target ↔
    tree.entry? place = some .directory ∧ place.move name = target := by
  unfold enter
  split <;> simp_all

private theorem follow_nil_eq_ok_iff : tree.follow place [] = .ok target ↔ place = target := by
  simp [follow]

/-- Names are followed one by one, through directories. -/
theorem follow_cons_eq_ok_iff : tree.follow place (name :: names) = .ok target ↔
    tree.entry? place = some .directory ∧ tree.follow (place.move name) names = .ok target := by
  rw [follow]
  cases entered : tree.enter place name with
  | error fault =>
      constructor
      · rintro ⟨⟩
      · rintro ⟨inside, _⟩
        cases entered.symm.trans (enter_eq_ok_iff.mpr ⟨inside, rfl⟩)
  | ok next =>
      obtain ⟨inside, rfl⟩ := enter_eq_ok_iff.mp entered
      exact (and_iff_right inside).symm

/-- Names can be followed in two portions. -/
theorem follow_append_eq_ok_iff {front back : List String} :
    tree.follow place (front ++ back) = .ok target ↔
      ∃ next, tree.follow place front = .ok next ∧ tree.follow next back = .ok target := by
  induction front generalizing place with
  | nil => simp [follow]
  | cons name front ih =>
      rw [List.cons_append, follow_cons_eq_ok_iff, ih]
      constructor
      · rintro ⟨inside, next, walked, rest⟩
        exact ⟨next, follow_cons_eq_ok_iff.mpr ⟨inside, walked⟩, rest⟩
      · rintro ⟨next, walked, rest⟩
        obtain ⟨inside, walked⟩ := follow_cons_eq_ok_iff.mp walked
        exact ⟨inside, next, walked, rest⟩

/-- The last name is followed from a directory. -/
theorem follow_concat_eq_ok_iff : tree.follow place (names ++ [name]) = .ok target ↔
    ∃ next, tree.follow place names = .ok next ∧ tree.entry? next = some .directory ∧
      next.move name = target := by
  simp only [follow_append_eq_ok_iff, follow_cons_eq_ok_iff, follow_nil_eq_ok_iff]

/-- Where names can be followed, they lead where walking leads. -/
theorem eq_walk_of_follow (walked : tree.follow place names = .ok target) :
    target = place.walk names := by
  induction names generalizing place with
  | nil =>
      cases walked
      rfl
  | cons name names ih => exact ih (follow_cons_eq_ok_iff.mp walked).2

private theorem follow_of_blank (inside : tree.entry? place = some .directory)
    (blank : ∀ name ∈ names, name = "" ∨ name = ".") : tree.follow place names = .ok place := by
  induction names with
  | nil => rfl
  | cons name names ih =>
      obtain ⟨first, rest⟩ := List.forall_mem_cons.mp blank
      rw [follow_cons_eq_ok_iff, Place.move_of_blank first]
      exact ⟨inside, ih rest⟩

/-- A tree with more directories is followed the same way. -/
theorem follow_mono {other : FileTree}
    (kept : ∀ place, tree.entry? place = some .directory → other.entry? place = some .directory)
    (walked : tree.follow place names = .ok target) : other.follow place names = .ok target := by
  induction names generalizing place with
  | nil => exact walked
  | cons name names ih =>
      obtain ⟨inside, rest⟩ := follow_cons_eq_ok_iff.mp walked
      exact follow_cons_eq_ok_iff.mpr ⟨kept place inside, ih rest⟩

/-! ## Open places -/

/-- Whether all places above a place are directories. -/
def Open (tree : FileTree) (place : Place) : Prop :=
  ∀ above, above <+: place → above ≠ place → tree.entry? above = some .directory

/-- What is in an open directory is open. -/
theorem open_concat (reached : tree.Open place) (inside : tree.entry? place = some .directory)
    (name : String) : tree.Open (place ++ [name]) := by
  intro above front other
  rcases List.prefix_concat_iff.mp front with same | front
  · exact absurd same other
  · by_cases same : above = place
    · rw [same]
      exact inside
    · exact reached above front same

/-- What is above an open place is open. -/
theorem Open.of_prefix (reached : tree.Open place) (front : above <+: place) : tree.Open above := by
  intro higher start other
  refine reached higher (start.trans front) ?_
  rintro rfl
  exact other (start.eq_of_length_le front.length_le)

/-- The place where a path starts is open. -/
theorem open_origin (path : String) : tree.Open (.origin path) := by
  intro above front other
  refine entry?_of_isGiven ?_
  unfold Place.origin at front other
  split at front <;> simp_all [Place.isGiven, List.prefix_cons_iff]

/-- A step from a directory with open places above it leads to another such place. -/
theorem Open.move (reached : tree.Open place) (inside : tree.entry? place = some .directory)
    (name : String) : tree.Open (place.move name) := by
  unfold Place.move
  split
  · exact reached
  · split
    · unfold Place.parent
      split
      · rename_i none
        rw [List.getLast?_eq_none_iff.mp none] at reached inside
        exact open_concat reached inside ".."
      · exact open_concat reached inside ".."
      · exact reached
      · exact reached.of_prefix place.dropLast_prefix
    · exact open_concat reached inside name

/-- Names that can be followed lead from open places to open places. -/
theorem Open.follow (reached : tree.Open place) (walked : tree.follow place names = .ok target) :
    tree.Open target := by
  induction names generalizing place with
  | nil =>
      cases walked
      exact reached
  | cons name names ih =>
      obtain ⟨inside, rest⟩ := follow_cons_eq_ok_iff.mp walked
      exact ih (reached.move inside name) rest

/-! ## Where paths lead -/

/-- Whether a path can be followed to a place. Nothing has to stand there. -/
def Leads (tree : FileTree) (path : String) (place : Place) : Prop :=
  path ≠ "" ∧ tree.follow (.origin path) (parts path) = .ok place

/-- Where a path can be followed, it leads where the cleaned path says. -/
theorem eq_append_of_follow_parts (walked : tree.follow (.origin path) (parts path) = .ok place) :
    place = .origin path ++ cleanParts path := by
  rw [eq_walk_of_follow walked, Place.walk_parts]

/-- What stands where a path leads is found. -/
theorem find_of_leads {entry : FileEntry} (leads : tree.Leads path place)
    (stands : tree.entry? place = some entry) : tree.find path = .ok entry := by
  rw [find, if_neg leads.1, leads.2]
  simp [bind, Except.bind, stands, pure, Except.pure]

private theorem leads_of_find {entry : FileEntry} (found : tree.find path = .ok entry) :
    ∃ place, tree.Leads path place ∧ tree.entry? place = some entry := by
  unfold find at found
  split at found
  · cases found
  · rename_i nonempty
    cases walked : tree.follow (.origin path) (parts path) with
    | error fault =>
        rw [walked] at found
        cases found
    | ok place =>
        refine ⟨place, ⟨nonempty, walked⟩, ?_⟩
        cases stands : tree.entry? place <;> simp_all [bind, Except.bind, pure, Except.pure]

/-- A file is read if and only if the path leads to it. -/
theorem read_eq_ok_iff {content : Bytes} : tree.read path = .ok content ↔
    ∃ place, tree.Leads path place ∧ tree.entry? place = some (.file content) := by
  constructor
  · intro read
    unfold FileTree.read at read
    split at read
    · rename_i held found
      cases read
      exact leads_of_find found
    · cases read
    · cases read
  · rintro ⟨place, leads, stands⟩
    rw [FileTree.read, find_of_leads leads stands]

/-- A file that can be read is present. -/
theorem isPresent_of_read {content : Bytes} (read : tree.read path = .ok content) :
    tree.isPresent path := by
  obtain ⟨place, leads, stands⟩ := read_eq_ok_iff.mp read
  rw [isPresent, find_of_leads leads stands]

/-- Settled names can be followed if the places above the last one are directories. -/
theorem follow_settled (whole : ∀ name ∈ stack, name ≠ "/")
    (settled : Settled (isAbsolute path) stack)
    (reached : tree.Open (.origin path ++ stack.reverse)) :
    tree.follow (.origin path) stack.reverse = .ok (.origin path ++ stack.reverse) := by
  induction stack with
  | nil => simp [follow]
  | cons name stack ih =>
      obtain ⟨_, below⟩ := List.forall_mem_cons.mp whole
      rw [List.reverse_cons, ← List.append_assoc] at reached ⊢
      have front := List.prefix_append (Place.origin path ++ stack.reverse) [name]
      refine follow_concat_eq_ok_iff.mpr
        ⟨_, ih below settled.tail (reached.of_prefix front), ?_, ?_⟩
      · exact reached _ front (by simp)
      · rw [Place.move_origin below, settled.push_head, List.reverse_cons, List.append_assoc]

/-- **Cleaning keeps the place.** If the names of a path can be followed, the clean path
leads to the same place. -/
theorem leads_clean (walked : tree.follow (.origin path) (parts path) = .ok place) :
    tree.Leads (clean path) place := by
  have reached := (open_origin path).follow walked
  obtain rfl := eq_append_of_follow_parts walked
  have whole : ∀ name ∈ (cleanParts path).reverse, name ≠ "/" := by
    rintro name member rfl
    exact Path.slash_not_mem_of_mem_cleanParts (List.mem_reverse.mp member) (by decide)
  have settled := Path.settled_cleanParts path
  rw [← (cleanParts path).reverse_reverse] at reached
  have kept := follow_settled whole settled reached
  rw [List.reverse_reverse] at kept
  obtain ⟨lead, blank, split⟩ := Path.exists_parts_clean path
  refine ⟨Path.clean_ne_empty path, ?_⟩
  rw [Place.origin_clean, split, follow_append_eq_ok_iff]
  exact ⟨_, follow_of_blank (entry?_of_isGiven (Place.isGiven_origin path)) blank, kept⟩

/-- A clean path leads nowhere else than to the names that were kept. -/
theorem Leads.eq_of_clean (leads : tree.Leads (clean path) place) :
    place = .origin path ++ cleanParts path := by
  rw [eq_append_of_follow_parts leads.2, Place.origin_clean, cleanParts, Path.isAbsolute_clean,
    Path.foldl_push_parts_clean]
  rfl

/-! ## Directories of paths -/

/-- Behind names that have been followed, a step up leads to a directory. -/
theorem entry?_move_up (whole : ∀ name ∈ names, name ≠ "/")
    (walked : tree.follow (.origin path) names = .ok place) :
    tree.entry? (place.move "..") = some .directory := by
  have reached := (open_origin path).follow walked
  have kept : ∀ name ∈ names.foldl (Path.push (isAbsolute path)) [], name ≠ "/" := by
    intro name member
    rcases Path.mem_of_mem_foldl_push member with part | none
    · exact whole name part
    · cases none
  have settled := (.nil : Settled (isAbsolute path) []).foldl_push names
  rw [eq_walk_of_follow walked, Place.walk_origin path whole] at reached ⊢
  rw [Place.move_origin kept]
  generalize names.foldl (Path.push (isAbsolute path)) [] = stack at *
  cases settled with
  | nil =>
      refine entry?_of_isGiven ?_
      unfold Place.origin
      cases isAbsolute path <;> decide
  | up relative upward settled =>
      refine entry?_of_isGiven ?_
      simpa [Place.origin, relative, Path.push_up_up, Place.isGiven] using .inr upward
  | down proper settled =>
      rw [Path.push_up_of_proper proper]
      rw [List.reverse_cons, ← List.append_assoc] at reached
      exact reached _ (List.prefix_append _ _) (by simp)

/-- **The directory of a file.** A path that leads to something else than a directory ends
in a proper name, and the names in front of it lead to the directory. -/
theorem Leads.exists_directory (leads : tree.Leads path place)
    (other : tree.entry? place ≠ some .directory) :
    ∃ inside name, place = inside ++ [name] ∧ tree.entry? inside = some .directory ∧
      tree.follow (.origin path) (parts path).dropLast = .ok inside := by
  obtain ⟨front, name, split⟩ := Path.exists_parts_eq_concat path
  have walked := leads.2
  rw [split, follow_concat_eq_ok_iff] at walked
  obtain ⟨inside, walked, stands, rfl⟩ := walked
  rw [split, List.dropLast_concat]
  refine ⟨inside, name, ?_, stands, walked⟩
  rcases Path.name_cases name with blank | rfl | proper
  · rw [Place.move_of_blank blank] at other
    exact absurd stands other
  · have whole : ∀ name ∈ front, name ≠ "/" := by
      intro name member
      have part : name ∈ parts path := by
        rw [split]
        exact List.mem_append_left _ member
      exact Path.ne_slash_of_mem_parts part
    exact absurd (entry?_move_up whole walked) other
  · exact Place.move_of_proper proper

/-- Names below the directory of a path lead to the same place as from there. -/
theorem leads_within {entry : String} {inside : Place}
    (walked : tree.follow (.origin path) (parts path).dropLast = .ok inside)
    (stands : tree.entry? inside = some .directory)
    (below : tree.follow inside (parts entry) = .ok target) :
    tree.Leads (Path.within (directory path) entry) target := by
  obtain ⟨front, cleaned, rooted, split⟩ := Path.exists_directory path
  have base : Place.origin front = .origin path := Place.origin_congr rooted
  have ahead : tree.follow (.origin front) (parts front) = .ok inside := by
    rw [base, split, follow_concat_eq_ok_iff]
    exact ⟨inside, walked, stands, Place.move_of_blank (.inl rfl)⟩
  refine leads_clean ?_
  rw [Place.origin_congr (Path.isAbsolute_below path entry), Path.parts_slash,
    follow_append_eq_ok_iff, cleaned, ← base, ← Place.origin_clean]
  exact ⟨inside, (leads_clean ahead).2, below⟩

/-- A path below the directory of another one leads where walking from that directory leads. -/
theorem Leads.eq_walk_of_within {entry : String} {inside : Place}
    (walked : tree.follow (.origin path) (parts path).dropLast = .ok inside)
    (leads : tree.Leads (Path.within (directory path) entry) place) :
    place = inside.walk (parts entry) := by
  rw [leads.eq_of_clean, Place.origin_congr (Path.isAbsolute_below path entry),
    eq_walk_of_follow walked, Place.walk_below]

/-! ## Writing -/

variable {entry : FileEntry} {content : Bytes} {changed : FileTree}

/-- An entry is found in front of the others. -/
theorem lookup_cons (place other : Place) (entry : FileEntry)
    (entries : List (Place × FileEntry)) :
    ((place, entry) :: entries).lookup other =
      if other = place then some entry else entries.lookup other := by
  rw [List.lookup_cons]
  by_cases same : other = place
  · rw [if_pos same, beq_iff_eq.mpr same]
  · rw [if_neg same, beq_eq_false_iff_ne.mpr same]

private theorem lookup_replace (place other : Place) (entry : FileEntry)
    (entries : List (Place × FileEntry)) :
    (replace place entry entries).lookup other =
      if other = place then some entry else entries.lookup other := by
  induction entries with
  | nil => exact lookup_cons place other entry []
  | cons first rest ih =>
      obtain ⟨key, held⟩ := first
      by_cases taken : place = key
      · subst taken
        rw [replace, if_pos rfl, lookup_cons, lookup_cons]
        split <;> rfl
      · rw [replace, if_neg taken, lookup_cons, lookup_cons, ih]
        by_cases same : other = key
        · subst same
          rw [if_pos rfl, if_neg (Ne.symm taken), if_pos rfl]
        · rw [if_neg same, if_neg same]

/-- What stands at other places stays. -/
theorem entry?_set (free : tree.entry? place ≠ some .directory) (entry : FileEntry)
    (other : Place) :
    FileTree.entry? (tree.set place entry) other =
      if other = place then some entry else tree.entry? other := by
  by_cases given : other.isGiven
  · have apart : other ≠ place := by
      rintro rfl
      exact free (entry?_of_isGiven given)
    rw [entry?_of_isGiven given, if_neg apart, entry?_of_isGiven given]
  · simp [given, entry?, set, lookup_replace]

private theorem namesBeforeSlash_of_proper {front : List String} (split : parts path = front ++ [name])
    (proper : namesDirectory path = false) : namesBeforeSlash path = front ++ [name] := by
  have solid : name ≠ "" := by
    rintro rfl
    simp [namesDirectory, split] at proper
  simp [namesBeforeSlash, split, solid]

/-- What two computations give, one after the other, comes from what each of them gives. -/
theorem exists_of_bind {α β ε : Type} {first : Except ε α} {second : α → Except ε β} {value : β}
    (given : first >>= second = .ok value) :
    ∃ middle, first = .ok middle ∧ second middle = .ok value := by
  cases first with
  | error fault => cases given
  | ok middle => exact ⟨middle, rfl, given⟩

/-- A file is written at the place that its path leads to. -/
theorem leads_of_target (settled : tree.target path = .ok place) :
    tree.Leads path place ∧ tree.entry? place ≠ some .directory := by
  unfold target at settled
  split at settled
  · cases settled
  · rename_i nonempty
    obtain ⟨inside, walked, settled⟩ := exists_of_bind settled
    obtain ⟨next, entered, settled⟩ := exists_of_bind settled
    split at settled
    · cases settled
    · rename_i free
      obtain ⟨proper, free⟩ := not_or.mp free
      cases settled
      obtain ⟨front, name, split⟩ := Path.exists_parts_eq_concat path
      have same := namesBeforeSlash_of_proper split (Bool.not_eq_true _ ▸ proper)
      rw [same] at walked entered
      rw [List.dropLast_concat] at walked
      rw [List.getLastD_concat] at entered
      refine ⟨⟨nonempty, ?_⟩, free⟩
      rw [split, follow_concat_eq_ok_iff]
      exact ⟨inside, walked, enter_eq_ok_iff.mp entered⟩

/-- **Writing a file.** The path leads to a place where the content stands afterwards, and
nothing else is changed. -/
theorem exists_of_write (written : tree.write path content = .ok changed) :
    ∃ place, tree.Leads path place ∧ changed.Leads path place ∧
      tree.entry? place ≠ some .directory ∧
      (∀ other, changed.entry? other =
        if other = place then some (.file content) else tree.entry? other) := by
  unfold write at written
  split at written
  · rename_i place settled
    cases written
    obtain ⟨leads, free⟩ := leads_of_target settled
    have changes := entry?_set free (.file content)
    refine ⟨place, leads, ⟨leads.1, follow_mono ?_ leads.2⟩, free, changes⟩
    intro other stands
    rw [changes, if_neg ?_, stands]
    rintro rfl
    exact free stands
  · cases written

end FileTree

end Scriptlet
