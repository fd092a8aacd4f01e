import Mathlib.Data.List.Forall2
import Scriptlet.Code.Draft
import Scriptlet.Proofs.Code.Declarations

/-!
# Files of declarations

A draft whose pieces are declarations is code: all of it can be read, and it says what its pieces
say, one after the other. Then the draft can also be brought into form. Lines that differ from it in
blanks and comments only say the same.
-/

namespace Scriptlet

namespace Code

open GoReader

/-- The characters of lines, with their ends. -/
def charsOf (lines : List String) : List Char :=
  lines.flatMap fun line => line.toList ++ ['\n']

/-- The characters of a piece. -/
def Piece.chars (piece : Piece) : List Char :=
  charsOf piece.lines

/-- Whether a line ends with something that can be seen. -/
def endsVisibly (line : String) : Bool :=
  line.toList.getLast?.any fun char => !(char = ' ' || char = '\t')

/-- A line ends as its last part ends. -/
theorem endsVisibly_append {front back : String} (visible : endsVisibly back = true) :
    endsVisibly (front ++ back) = true := by
  unfold endsVisibly at visible ⊢
  rw [String.toList_append, List.getLast?_append]
  cases last : back.toList.getLast? with
  | none => simp [last] at visible
  | some char => simpa [last] using visible

namespace Row

/-- A line that ends with something that can be seen stays as it is. -/
theorem line_of_placed {row : Row} {text : String} (same : row.placed ++ row.text = text)
    (visible : endsVisibly text = true) : row.line = text := by
  subst same
  rw [line, ← String.toList_inj]
  rw [endsVisibly, ← List.head?_reverse] at visible
  rw [String.toList_ofList, List.reverse_eq_iff]
  generalize (row.placed ++ row.text).toList.reverse = chars at visible
  cases chars with
  | nil => cases visible
  | cons char others => exact List.dropWhile_cons_of_neg (by simpa using visible)

private theorem align_map_ofLine {lines : List String} (visible : lines.all endsVisibly = true) :
    align (lines.map ofLine) = lines := by
  have columns : ((lines.map ofLine).map (·.cells.length)).foldl max 0 = 0 := by
    induction lines with
    | nil => rfl
    | cons line lines ih => exact ih (by simp_all)
  rw [align, columns]
  show (lines.map ofLine).map line = lines
  rw [List.map_map, ← List.map_id lines, List.map_map]
  refine List.map_congr_left fun text member => line_of_placed (String.empty_append ..) ?_
  exact List.all_eq_true.mp visible text member

/-- A blank stands behind the only cell of a line. -/
theorem align_cell {text rest : String} (filled : text.isEmpty = false)
    (visible : endsVisibly rest = true) :
    align [{ cells := [{ text }], text := rest }] = [text ++ " " ++ rest] := by
  have one : width [{ cells := [{ text }], text := rest }] = text.length + 1 := by
    simp [width, filled]
  have blank : filling (text.length + 1) true text = " " := by
    rw [filling, filled, Bool.and_false, if_neg Bool.false_ne_true, Nat.add_sub_cancel_left]
    rfl
  have placed : placeColumn [{ cells := [{ text }], text := rest }] =
      [{ placed := "" ++ text ++ " ", text := rest, isIndented := true && text.isEmpty }] := by
    rw [← blank, ← one]
    rfl
  show (placeColumn [{ cells := [{ text }], text := rest }]).map line = _
  rw [placed, List.map_singleton]
  exact congrArg ([·]) (line_of_placed (by simp) (endsVisibly_append visible))

end Row

/-- Lines in their form keep their characters. -/
theorem Piece.chars_rows {keyword : String} {comment : Option String} {lines : List String}
    (visible : lines.all endsVisibly = true) :
    (Piece.rows keyword comment (lines.map Row.ofLine)).chars =
      charsOf (comment.toList ++ lines) := by
  rw [Piece.chars, Piece.lines, Row.align_map_ofLine visible]

/-- What a file of code says: the name of its package, and its declarations without places. -/
def meaning? (text : String) : Option (String × List GoDecl) := do
  let lexemes ← Lexemes.scan {} text
  let (_, name, declarations) ← readAll packageFile lexemes.list
  pure (name.spelling, declarations.map GoDecl.erase)

/-- What the code of a draft says before it is brought into form. -/
def Draft.meaning? (draft : Draft) : Option (String × List GoDecl) :=
  Code.meaning? draft.text

/-- A way to bring drafts into form renders the given code of a draft: if the draft is code, its
lines say what the draft says. -/
def Draft.IsRenderedBy (draft : Draft) (render : Draft → Option (List String)) : Prop :=
  ∀ said, draft.meaning? = some said →
    ∃ lines, render draft = some lines ∧
      Code.meaning? (String.join (lines.map (· ++ "\n"))) = some said

/-- The symbols of lines of code, if they can be scanned. -/
def symbols? (chars : List Char) : Option (List Symbol) :=
  if chars.any Lexemes.excluded.contains then
    none
  else
    (Scan.run {} chars).bind fun scan => if scan.stage = .between then some scan.symbols else none

/-- Lines have the symbols that they spell. -/
theorem Spells.symbols? {chars : List Char} {symbols : List Symbol}
    (spells : Spells false false chars symbols) : Code.symbols? chars = some symbols := by
  obtain ⟨after, runs, between, found⟩ := spells.runs {} rfl rfl nofun
  rw [Code.symbols?, spells.allowed, if_neg Bool.false_ne_true, runs, Option.bind_some,
    if_pos between, found]
  rfl

/-- A text is scanned to its symbols. -/
theorem exists_scan {text : String} {symbols : List Symbol}
    (found : symbols? (text.toList ++ ['\n']) = some symbols) :
    ∃ lexemes, Lexemes.scan {} text = some lexemes ∧ lexemes.list.map (·.symbol) = symbols := by
  unfold symbols? at found
  split at found
  · cases found
  · next allowed =>
    obtain ⟨after, runs, done⟩ := Option.bind_eq_some_iff.mp found
    split at done
    · next between =>
      cases done
      have allowed : text.toList.any Lexemes.excluded.contains = false := by
        simp only [List.any_append, Bool.or_eq_true, not_or] at allowed
        exact Bool.eq_false_iff.mpr allowed.1
      have folded : (text.toList ++ ['\n']).foldlM Scan.next {} = some after := runs
      refine ⟨{ list := after.found.reverse, comments := after.comments.reverse }, ?_, rfl⟩
      simp only [Lexemes.scan, allowed, Bool.false_eq_true, if_false, folded]
      exact if_pos between
    · cases done

private theorem toList_intercalate_append (first : String) (others : List String) :
    ("\n".intercalate (first :: others)).toList ++ ['\n'] = charsOf (first :: others) := by
  induction others generalizing first with
  | nil => simp [charsOf]
  | cons second others ih =>
    rw [String.intercalate_cons_cons, charsOf, List.flatMap_cons, ← charsOf, ← ih second]
    simp

/-- The characters of pieces are those of their lines. -/
theorem Piece.flatMap_chars (pieces : List Piece) :
    pieces.flatMap Piece.chars = charsOf (pieces.flatMap Piece.lines) := by
  rw [charsOf, List.flatMap_assoc]
  rfl

/-- The text of pieces is scanned to what their lines spell. -/
theorem spellsLines_join {pieces : List Piece} {symbols : List Symbol}
    (lines : SpellsLines (pieces.flatMap Piece.chars) symbols) :
    SpellsLines ((Piece.join pieces).toList ++ ['\n']) symbols := by
  rw [Piece.flatMap_chars] at lines
  unfold Piece.join
  generalize pieces.flatMap Piece.lines = list at lines
  cases list with
  | nil =>
    rw [← List.append_nil symbols]
    exact lines.append ⟨.newline .nil, rfl⟩
  | cons first others =>
    rw [toList_intercalate_append]
    exact lines

namespace GoReader

variable {α γ : Type} {view : α → γ} {value : γ}

/-- What takes all symbols of some code reads it. -/
theorem exists_readAll {reader : Nat → GoReader α} {lexemes : List Lexeme} {symbols : List Symbol}
    (found : lexemes.map (·.symbol) = symbols)
    (takes : Takes false view (reader (16 * symbols.length + 16)) symbols [] value) :
    ∃ result, readAll reader lexemes = some result ∧ view result = value := by
  subst found
  rw [List.length_map] at takes
  obtain ⟨result, after, read, same, left, -⟩ := takes { lexemes } (List.append_nil _).symm rfl
  refine ⟨result, ?_, same⟩
  have empty : after.lexemes = [] := List.map_eq_nil_iff.mp left
  have run : (reader (16 * lexemes.length + 16)).run { lexemes } = some (result, after) := read
  simp [readAll, run, empty]

/-- What can be seen of a file. -/
abbrev fileView : Place × Label × List GoDecl → String × List GoDecl :=
  fun (_, name, declarations) => (name.spelling, declarations.map GoDecl.erase)

/-- A file is the name of its package, imports and declarations. -/
theorem takes_packageFile {package : String} {steps : Nat} {first symbols : List Symbol}
    {importTrees trees : List GoDecl}
    (imported : Takes false (List.map GoDecl.erase)
      (many (· = .keyword "import") (declarations "import" steps) steps) first (symbols ++ [])
      importTrees)
    (declared : Takes false (List.map GoDecl.erase)
      (many (fun _ => true) (declaration steps) steps) symbols [] trees) :
    Takes false fileView (packageFile steps)
      (.keyword "package" :: .name package :: .lineEnd :: (first ++ symbols)) []
      (package, importTrees ++ trees) :=
  .bind_cons (.keyword _) fun _ _ => .bind_nil .lastPlace fun _ _ =>
    .bind_cons (.label package) fun name named => .bind_cons .finish fun _ _ =>
      imported.bind fun _ same => declared.map fun _ same' => by
        obtain rfl : name.spelling = package := congrArg Label.spelling named
        simp [same, same']

end GoReader

/-- Pieces that a rule reads, one after the other. -/
theorem exists_many {accepts : String → Bool} {rule : Nat → GoReader GoDecl}
    {pieces : List Piece} {trees : List GoDecl} (starts : Symbol → Bool)
    (begins : ∀ word, accepts word = true → starts (.keyword word) = true)
    (each : List.Forall₂ (fun piece tree => ReadsAs accepts rule piece.chars tree) pieces trees) :
    ∃ symbols, SpellsLines (pieces.flatMap Piece.chars) symbols ∧ pieces.length ≤ symbols.length ∧
      (∀ symbol, symbols.head? = some symbol → ∃ word, symbol = .keyword word ∧ accepts word = true) ∧
      ∀ steps limit tail, 16 * symbols.length + 16 ≤ steps → pieces.length ≤ limit →
        tail.head?.any starts = false → (∀ spelling, tail.head? ≠ some (.name spelling)) →
        Takes false (List.map GoDecl.erase) (many starts (rule steps) limit) symbols tail trees := by
  induction each with
  | nil =>
    exact ⟨[], .nil, Nat.le_refl _, nofun, fun _ limit _ _ _ ends _ => .many_nil ends limit⟩
  | @cons piece tree pieces trees first _ ih =>
    obtain ⟨word, symbols, spells, accepted, takes⟩ := first
    obtain ⟨more, lines, count, heads, takesMore⟩ := ih
    refine ⟨.keyword word :: symbols ++ more, ?_, ?_, ?_, ?_⟩
    · rw [List.flatMap_cons]
      exact spells.append lines
    · simp only [List.length_append, List.length_cons]
      omega
    · intro symbol same
      exact ⟨word, (Option.some.inj same).symm, accepted⟩
    · intro steps limit tail enough atMost ends notName
      simp only [List.length_append, List.length_cons] at enough atMost
      obtain ⟨limit, rfl⟩ := Nat.exists_eq_add_of_le' (show 1 ≤ limit by omega)
      refine .many_cons (begins word accepted) (takes steps _ (by omega) fun spelling same => ?_)
        (takesMore steps limit tail (by omega) (by omega) ends notName)
      cases more with
      | nil => exact notName spelling same
      | cons symbol others =>
        obtain ⟨_, keyword, -⟩ := heads symbol rfl
        rw [keyword] at same
        cases same

namespace Draft

variable {draft : Draft} {imports others : List Piece} {importTrees trees : List GoDecl}

/-- The first line of a file spells the keyword and the name of the package. -/
theorem spellsLines_package (named : isName draft.package = true) :
    SpellsLines (draft.packageText.toList ++ ['\n'])
      [.keyword "package", .name draft.package, .lineEnd] :=
  .of_chunks [.keyword "package", .blank, .name draft.package, .newline] rfl
    (by simpa [Chunk.names] using named) (by simp [Chunk.chars, packageText]) rfl

/-- The lines of a draft before it is brought into form. -/
def rawLines (draft : Draft) : List String :=
  draft.packageText :: "" :: draft.pieces.flatMap Piece.lines

/-- Whether lines have the symbols of a draft, and differ from it in blanks and comments only. -/
def keepsSymbols (draft : Draft) (lines : List String) : Bool :=
  symbols? (charsOf lines ++ ['\n']) = symbols? (charsOf draft.rawLines ++ ['\n'])

/-- The symbols of a draft mean something: every text with these symbols says it. -/
def Means (draft : Draft) (said : String × List GoDecl) : Prop :=
  ∃ symbols, symbols? (charsOf draft.rawLines ++ ['\n']) = some symbols ∧
    symbols? (draft.text.toList ++ ['\n']) = some symbols ∧
    ∀ text, symbols? (text.toList ++ ['\n']) = some symbols → Code.meaning? text = some said

namespace Means

variable {said : String × List GoDecl}

/-- A draft says what its symbols mean. -/
protected theorem meaning? (means : draft.Means said) : draft.meaning? = some said := by
  obtain ⟨symbols, -, found, meant⟩ := means
  exact meant draft.text found

/-- What changes only blanks and comments renders the given code. -/
theorem isRenderedBy (means : draft.Means said) {render : Draft → Option (List String)}
    {lines : List String} (formed : render draft = some lines)
    (kept : draft.keepsSymbols lines = true) : draft.IsRenderedBy render := by
  intro other meant
  obtain rfl : other = said := Option.some.inj (meant.symm.trans means.meaning?)
  obtain ⟨symbols, found, -, meant⟩ := means
  have joined : (String.join (lines.map (· ++ "\n"))).toList = charsOf lines := by
    simp [String.toList_join, List.flatMap_map, charsOf]
  exact ⟨lines, formed, meant _ (by rw [joined, of_decide_eq_true kept, found])⟩

end Means

/-- The symbols of a draft of declarations mean what its pieces declare. -/
theorem means_of_pieces (named : isName draft.package = true)
    (pieces : draft.pieces = imports ++ others)
    (imported : List.Forall₂ (fun piece tree => Imports piece.chars tree) imports importTrees)
    (declared : List.Forall₂ (fun piece tree => Declares piece.chars tree) others trees) :
    draft.Means (draft.package, importTrees ++ trees) := by
  obtain ⟨first, importLines, importCount, -, takesImports⟩ :=
    exists_many (· = .keyword "import") (by simp) imported
  obtain ⟨symbols, lines, count, heads, takes⟩ :=
    exists_many (fun _ => true) (fun _ _ => rfl) declared
  have below : SpellsLines (draft.pieces.flatMap Piece.chars) (first ++ symbols) := by
    rw [pieces, List.flatMap_append]
    exact importLines.append lines
  have package := spellsLines_package named
  have newline : SpellsLines ['\n'] [] := ⟨.newline .nil, rfl⟩
  refine ⟨.keyword "package" :: .name draft.package :: .lineEnd :: (first ++ symbols), ?_, ?_, ?_⟩
  · have all := package.append (newline.append (below.append newline))
    rw [Piece.flatMap_chars] at all
    simpa [rawLines, charsOf] using all.spells.symbols?
  · have all := package.append (newline.append (spellsLines_join below))
    simpa [text] using all.spells.symbols?
  · intro text same
    obtain ⟨lexemes, scanned, found⟩ := exists_scan same
    have heads : symbols.head?.any (· = .keyword "import") = false ∧
        ∀ spelling, symbols.head? ≠ some (.name spelling) := by
      cases symbols with
      | nil => exact ⟨rfl, nofun⟩
      | cons symbol others =>
        obtain ⟨word, rfl, other⟩ := heads symbol rfl
        exact ⟨by simpa using other, by simp⟩
    have reads := exists_readAll found (takes_packageFile
      (takesImports _ _ _ (by simp; omega) (by simp; omega) (by simpa using heads.1)
        (by simpa using heads.2))
      (takes _ _ [] (by simp; omega) (by simp; omega) rfl nofun))
    obtain ⟨⟨start, name, declarations⟩, read, same⟩ := reads
    simp only [Code.meaning?, scanned, read, Option.bind_eq_bind, Option.bind_some]
    exact congrArg some same

namespace Progress

/-- Lines in their form can be written, imports only in front of everything else. -/
theorem exists_addRows (progress : Progress) (keyword : String)
    (allowed : keyword = "import" → progress.keyword = "package" ∨ progress.keyword = "import")
    (comment : Option String) (rows : List Row) :
    ∃ after, progress.add (.rows keyword comment rows) = some after ∧ after.keyword = keyword := by
  rw [add, addRows, if_neg]
  · exact ⟨_, rfl, rfl⟩
  · simp only [Bool.and_eq_true, decide_eq_true_eq, not_and]
    rintro ⟨same, notPackage⟩ notImport
    exact (allowed same).elim notPackage notImport

private theorem exists_addText (progress : Progress) {content : String} {tree : GoDecl}
    (declares : Declares (content.toList ++ ['\n']) tree) :
    ∃ after, progress.add (.text content) = some after := by
  obtain ⟨word, symbols, spells, -, takes⟩ := declares
  obtain ⟨lexemes, scanned, found⟩ := spells.spells.scan progress.place
  have one : Takes false (List.map GoDecl.erase)
      (allDeclarations (16 * (Symbol.keyword word :: symbols).length + 16))
      (.keyword word :: symbols ++ []) [] [tree] :=
    .many_cons rfl (takes _ _ (by simp; omega) nofun) (.many_nil rfl _)
  rw [List.append_nil] at one
  obtain ⟨declarations, read, -⟩ := exists_readAll found one
  simp only [add, addText, scanned, read, Option.bind_eq_bind, Option.bind_some]
  exact ⟨_, rfl⟩

/-- A piece that can be written whatever stands in front of it. -/
def Adds (piece : Piece) : Prop :=
  ∀ progress : Progress, ∃ after, progress.add piece = some after

/-- Lines in their form can be written anywhere if they are no imports. -/
theorem adds_rows {keyword : String} (other : keyword ≠ "import") (comment : Option String)
    (rows : List Row) : Adds (.rows keyword comment rows) := fun progress => by
  obtain ⟨after, added, -⟩ :=
    progress.exists_addRows keyword (fun same => absurd same other) comment rows
  exact ⟨after, added⟩

/-- A text that is a declaration can be written anywhere. -/
theorem adds_text {content : String} {tree : GoDecl}
    (declares : Declares (Piece.text content).chars tree) : Adds (.text content) :=
  fun progress => progress.exists_addText (by simpa [Piece.chars, charsOf, Piece.lines] using declares)

private theorem exists_addAll {pieces : List Piece} (each : ∀ piece ∈ pieces, Adds piece)
    (progress : Progress) : ∃ after, progress.addAll pieces = some after := by
  induction pieces generalizing progress with
  | nil => exact ⟨progress, rfl⟩
  | cons piece pieces ih =>
    rw [List.forall_mem_cons] at each
    obtain ⟨middle, added⟩ := each.1 progress
    simp only [addAll, added]
    exact ih each.2 middle

/-- Imports can be written in front of everything else. -/
theorem exists_addAll_imports {imports others : List Piece}
    (first : ∀ piece ∈ imports, ∃ comment rows, piece = .rows "import" comment rows)
    (each : ∀ piece ∈ others, Adds piece) (progress : Progress)
    (start : progress.keyword = "package" ∨ progress.keyword = "import") :
    ∃ after, progress.addAll (imports ++ others) = some after := by
  induction imports generalizing progress with
  | nil => exact exists_addAll each progress
  | cons piece imports ih =>
    rw [List.forall_mem_cons] at first
    obtain ⟨comment, rows, rfl⟩ := first.1
    obtain ⟨middle, added, keyword⟩ := progress.exists_addRows "import" (fun _ => start) comment rows
    simp only [List.cons_append, addAll, added]
    exact ih first.2 middle (.inr keyword)

end Progress

/-- The line with the name of the package can be read by itself. -/
theorem exists_start (named : isName draft.package = true) :
    ∃ progress, draft.start draft.packageText = some progress ∧ progress.keyword = "package" := by
  let comment : Comment := { text := draft.comment, place := {} }
  obtain ⟨lexemes, scanned, found⟩ :=
    (spellsLines_package named).spells.scan ((comment.finish.after '\n').after '\n')
  have alone : Takes false fileView
      (packageFile (16 * [Symbol.keyword "package", .name draft.package, .lineEnd].length + 16))
      [.keyword "package", .name draft.package, .lineEnd] [] (draft.package, [] ++ []) :=
    takes_packageFile (.many_nil rfl _) (.many_nil rfl _)
  obtain ⟨⟨place, name, declarations⟩, read, same⟩ := exists_readAll found alone
  obtain rfl : declarations = [] := by simpa using congrArg Prod.snd same
  simp only [start, comment, scanned, read, Option.bind_eq_bind, Option.bind_some]
  exact ⟨_, rfl, rfl⟩

/-- A draft of declarations can be brought into form. -/
theorem exists_lines (named : isName draft.package = true) (pieces : draft.pieces = imports ++ others)
    (first : ∀ piece ∈ imports, ∃ comment rows, piece = .rows "import" comment rows)
    (each : ∀ piece ∈ others, Progress.Adds piece) : ∃ lines, draft.lines? = some lines := by
  obtain ⟨progress, starts, keyword⟩ := exists_start named
  obtain ⟨after, added⟩ := Progress.exists_addAll_imports first each progress (.inl keyword)
  refine ⟨Row.align after.page.finish, ?_⟩
  simp only [lines?, progress?, starts, pieces, added, Option.map_some]

end Draft

end Code

end Scriptlet
