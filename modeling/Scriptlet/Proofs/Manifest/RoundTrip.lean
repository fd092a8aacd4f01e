import Scriptlet.Manifest.Document
import Scriptlet.Proofs.Yaml.Table

/-! # Reading manifests that were written

A manifest is written as a table with an entry for each part that is given. Whatever texts
these parts are, the table is read back with the same entries, and entering them one after
the other gives the manifest again (`Manifest.read_write`).
-/

namespace Scriptlet

open Yaml (Describes KeyWord Node)

namespace Manifest

/-- The entries of the table that a manifest is written as. -/
def entries (manifest : Manifest) : List (String × String) :=
  [("package", manifest.package), ("entry", manifest.entry)] ++
    if manifest.logLevel = "" then [] else [("log-level", manifest.logLevel)]

/-- The lines of a field are those of an entry of a table. -/
theorem toList_lines (key value : String) :
    (lines key value).toList = Yaml.entryLines (key, value) := by
  unfold lines Yaml.entryLines
  cases Yaml.Style.leavesLineOpen value.toList <;> simp

private theorem toList_text (manifest : Manifest) :
    manifest.text.toList = Yaml.tableLines manifest.entries := by
  unfold text entries Yaml.tableLines
  by_cases unset : manifest.logLevel = ""
  · simp [unset, toList_lines]
  · simp [unset, toList_lines]

/-! ## Keys -/

/-- The fields that manifests have. -/
theorem isKnown_iff {key : String} :
    isKnown key ↔ key = "package" ∨ key = "entry" ∨ key = "log-level" := by
  simp [isKnown, or_assoc]

private theorem keyWord_of_isKnown {key : String} (known : isKnown key) : KeyWord key.toList := by
  have plain : key.toList.all Yaml.Style.isPlain := by
    obtain rfl | rfl | rfl := isKnown_iff.mp known <;> decide
  have words : key.toList.all fun char => !Yaml.isSpace char && char ≠ ':' := by
    obtain rfl | rfl | rfl := isKnown_iff.mp known <;> decide
  refine ⟨List.all_eq_true.mp plain, fun char member => ?_, ?_, ?_⟩
  · simpa using List.all_eq_true.mp words char member
  · obtain rfl | rfl | rfl := isKnown_iff.mp known
    · exact ⟨'p', rfl, by decide⟩
    · exact ⟨'e', rfl, by decide⟩
    · exact ⟨'l', rfl, by decide⟩
  · obtain rfl | rfl | rfl := isKnown_iff.mp known <;> decide

private theorem typeOf_of_isKnown {key : String} (known : isKnown key) :
    Yaml.Scalar.typeOf true key = .text := by
  obtain rfl | rfl | rfl := isKnown_iff.mp known <;> decide

private theorem isKnown_of_mem_entries {manifest : Manifest} {entry : String × String}
    (member : entry ∈ manifest.entries) : isKnown entry.1 := by
  unfold entries at member
  by_cases unset : manifest.logLevel = ""
  · simp [unset] at member
    obtain rfl | rfl := member <;> rfl
  · simp [unset] at member
    obtain rfl | rfl | rfl := member <;> rfl

/-! ## Entering entries -/

namespace Draft

/-- A text that is read as a text is its content. -/
theorem textOf_scalar (line : Nat) {bare : Bool} {content : String}
    (text : bare → Yaml.Scalar.typeOf true content = .text) :
    textOf (.scalar line "" bare content) = .ok (.ok content) := by
  have noBytes : ¬"" = Yaml.bytesTag := by decide
  have found : Yaml.ScalarType.ofScalar "" bare content = .ok (some .text) := by
    cases bare with
    | false => rfl
    | true => simp [Yaml.ScalarType.ofScalar, text rfl]
  simp [textOf, Node.resolved, Yaml.scalarText?, noBytes, found, bind, Except.bind, pure,
    Except.pure]

/-- The nodes of an entry put its value in the place of its key. -/
theorem addEntries_cons {nodes : Node × Node} {entry : String × String}
    (described : Describes nodes entry) (known : isKnown entry.1) (draft : Draft)
    (rest : List (Node × Node)) :
    addEntries draft (nodes :: rest) =
      addEntries { draft with manifest := draft.manifest.enter entry.1 entry.2 } rest := by
  obtain ⟨nameLine, valueLine, bare, text, rfl⟩ := described
  have noMerge : isMergeKey (.scalar nameLine "" true entry.1) = false := by
    have other : entry.1 ≠ mergeKey := by
      obtain same | same | same := isKnown_iff.mp known <;> rw [same] <;> decide
    simp [isMergeKey, other]
  have typed : bare → Yaml.Scalar.typeOf true entry.2 = .text := by
    intro isBare
    have isText := text isBare
    simp only [Yaml.Style.isText, Bool.and_eq_true, decide_eq_true_eq] at isText
    exact isText.1
  have entered : draft.addEntry (.scalar nameLine "" true entry.1)
      (.scalar valueLine "" bare entry.2) =
        .ok { draft with manifest := draft.manifest.enter entry.1 entry.2 } := by
    simp [addEntry, textOf_scalar nameLine fun _ => typeOf_of_isKnown known, known,
      textOf_scalar valueLine typed, bind, Except.bind, pure, Except.pure]
  simp [addEntries, noMerge, entered, bind, Except.bind]

/-- Nodes for entries are entered one after the other. -/
theorem addEntries_eq {nodes : List (Node × Node)} {entries : List (String × String)}
    (described : List.Forall₂ Describes nodes entries)
    (known : ∀ entry ∈ entries, isKnown entry.1) (draft : Draft) :
    addEntries draft nodes = .ok { draft with
      manifest := entries.foldl (fun manifest entry => manifest.enter entry.1 entry.2)
        draft.manifest } := by
  induction described generalizing draft with
  | nil => rw [addEntries, List.foldl_nil]
  | cons described _ ih =>
      obtain ⟨first, others⟩ := List.forall_mem_cons.mp known
      rw [addEntries_cons described first, ih others, List.foldl_cons]

end Draft

private theorem foldl_enter_entries (manifest : Manifest) :
    manifest.entries.foldl (fun manifest entry => manifest.enter entry.1 entry.2) {} =
      manifest := by
  obtain ⟨package, entry, logLevel⟩ := manifest
  by_cases unset : logLevel = ""
  · simp [entries, enter, unset]
  · simp [entries, enter, unset]

/-- **A manifest that was written is read back unchanged**, whatever texts it holds. -/
theorem read_write (manifest : Manifest) : read manifest.write = .ok manifest := by
  have known : ∀ entry ∈ manifest.entries, isKnown entry.1 :=
    fun _ member => isKnown_of_mem_entries member
  have words : ∀ entry ∈ manifest.entries, KeyWord entry.1.toList :=
    fun entry member => keyWord_of_isKnown (known entry member)
  obtain ⟨line, nodes, reads, described⟩ := Yaml.readNode_table (by simp [entries]) words
  have entered := Draft.addEntries_eq described known {}
  rw [foldl_enter_entries] at entered
  rw [read, write, Bytes.ofString, toList_text, reads]
  simp [ofNode, Draft.addTable, entered, Except.mapError, bind, Except.bind]

end Manifest

end Scriptlet
