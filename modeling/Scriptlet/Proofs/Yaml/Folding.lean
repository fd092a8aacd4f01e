import Scriptlet.Proofs.Yaml.Plain

/-! # Reading texts that were folded into lines

A text that is written bare or in single quotes is continued in the next line at some
blanks. Reading takes the characters of a word one by one and turns the gap between two
words into what it stands for. A gap that was written is a row of blanks, a line break in
place of a single blank, or, in quotes, a row of line breaks of the text itself; each of
them stands for what was written. For each way of writing it is shown how one character of
the text is passed (`BarePlace.Stands.passes`, `SinglePlace.Stands.passes`); the whole text
is then read back character by character (`reads_of_passes`).
-/

namespace Scriptlet

namespace Yaml

open Style

/-! ## Places -/

/-- A character that ends no line moves a mark to the right. -/
theorem Mark.after_of_not_isBreak {char : Char} (inline : isBreak char = false) (mark : Mark) :
    mark.after char = mark.right 1 := by
  simp [Mark.after, Mark.right, inline]

/-- The mark of a document stands at the start of a line only. -/
theorem isDocumentMark_of_inside {mark : Mark} (inside : 0 < mark.column) (chars : List Char) :
    isDocumentMark mark chars = false := by
  simp [isDocumentMark, Nat.pos_iff_ne_zero.mp inside]

/-- Line ends are space. -/
theorem isSpace_of_isBreak {char : Char} (ends : isBreak char) : isSpace char := by
  simp [isSpace, ends]

/-- A character of a word ends no line. -/
theorem isBreak_of_not_isSpace {char : Char} (word : isSpace char = false) :
    isBreak char = false := by
  simp only [isSpace, Bool.or_eq_false_iff] at word
  exact word.2

/-- A character of a word is no blank. -/
theorem ne_blank_of_not_isSpace {char : Char} (word : isSpace char = false) : char ≠ ' ' := by
  rintro rfl
  cases word

/-- Whether a text is at its end or goes on with a word. -/
def StartsWord (chars : List Char) : Prop :=
  ∀ char ∈ chars.head?, isSpace char = false

/-! ## Results -/

/-- Characters in front of others are put in front of what was read. -/
theorem Spelled.behind_behind (spelled : Except Fault Spelled) (chars others : List Char) :
    (spelled.map (·.behind others)).map (·.behind chars) =
      spelled.map (·.behind (chars ++ others)) := by
  cases spelled with
  | error fault => rfl
  | ok spelled => simp [Except.map, Spelled.behind]

/-- Nothing in front of what was read changes nothing. -/
theorem Spelled.map_behind_nil (spelled : Except Fault Spelled) :
    spelled.map (·.behind []) = spelled := by
  cases spelled <;> rfl

/-! ## One character after another -/

section Passing

variable {Place : Type} (stands : Place → List Char → Prop) (pending : Place → List Char)
  (reads : Place → List Char → List Char → Prop)

/-- Whether a character that was written can be passed in reading: reading comes to a place in
front of the rest, and the character has then been given out or is still pending. -/
def Passes (place : Place) (char : Char) (rest : List Char) : Prop :=
  ∃ next given, stands next rest ∧ given ++ pending next = pending place ++ [char] ∧
    ∀ content, reads next rest content → reads place (char :: rest) (given ++ content)

/-- **What is passed is read back**: if all characters can be passed and nothing is lost at the
end, then reading gives them all. -/
theorem reads_of_passes
    (passes : ∀ place char rest, stands place (char :: rest) →
      Passes stands pending reads place char rest)
    (ends : ∀ place, stands place [] → reads place [] (pending place))
    {place : Place} {chars : List Char} (begins : stands place chars) :
    reads place chars (pending place ++ chars) := by
  induction chars generalizing place with
  | nil =>
      rw [List.append_nil]
      exact ends place begins
  | cons char rest ih =>
      obtain ⟨next, given, goesOn, joined, whole⟩ := passes place char rest begins
      have later := whole _ (ih goesOn)
      rwa [← List.append_assoc, joined, List.append_assoc] at later

end Passing

/-! ## Gaps -/

namespace Style

/-- A gap in a line or between two, as it is written in front of some characters: blanks, or
a line break in place of a single one. -/
inductive Gap (chars : List Char) : List Char → Prop
  | blanks (count : Nat) : Gap chars (List.replicate count ' ')
  | fold (word : chars.head? ≠ some ' ') : Gap chars ('\n' :: margin)

end Style

/-- A line is not broken behind a blank. -/
theorem not_blankBefore_of_breaksAt {column : Nat} {blankBefore : Bool}
    (breaks : breaksAt column blankBefore) : blankBefore = false := by
  cases blankBefore with
  | false => rfl
  | true => cases breaks

/-- Blanks hold no line ends. -/
theorem filter_isBreak_replicate (count : Nat) :
    (List.replicate count ' ').filter isBreak = [] := by
  apply List.filter_eq_nil_iff.mpr
  intro char member
  rw [List.eq_of_mem_replicate member]
  decide

/-- Blanks between words stay as they are. -/
theorem joinWords_replicate (count : Nat) :
    joinWords (List.replicate count ' ') = List.replicate count ' ' := by
  rw [joinWords, filter_isBreak_replicate]

/-- One blank more. -/
theorem replicate_append_blank (count : Nat) :
    List.replicate count ' ' ++ [' '] = List.replicate (count + 1) ' ' :=
  List.replicate_succ'.symm

/-- A blank of the text makes the gap longer by what it stands for. -/
theorem Style.Gap.snoc {chars gap : List Char} (shape : Gap (' ' :: chars) gap) :
    Gap chars (gap ++ [' ']) ∧ joinWords (gap ++ [' ']) = joinWords gap ++ [' '] := by
  cases shape with
  | blanks count =>
      rw [replicate_append_blank, joinWords_replicate, joinWords_replicate,
        replicate_append_blank]
      exact ⟨.blanks (count + 1), rfl⟩
  | fold word => exact absurd rfl word

/-- There may be no gap. -/
theorem Style.Gap.nil (chars : List Char) : Gap chars [] :=
  .blanks 0

/-! ## Bare texts -/

namespace Style

/-- What remains of a text that can be written bare, at any place in it. -/
structure BareRest (chars : List Char) : Prop where
  blanks : ∀ char ∈ chars, isSpace char → char = ' '
  noKeyMark : hasKeyMark chars = false
  noComment : hasPair isSpace (· = '#') chars = false
  closed : chars.getLast? ≠ some ' '

/-- A text without a pair has none further on. -/
theorem hasPair_of_cons {first second : Char → Bool} {char : Char} {rest : List Char}
    (none : hasPair first second (char :: rest) = false) :
    hasPair first second rest = false := by
  cases rest with
  | nil => rfl
  | cons next rest =>
      simp only [hasPair, Bool.or_eq_false_iff] at none
      exact none.2

/-- A text without a pair has no second part behind a first one. -/
theorem not_second_of_hasPair {first second : Char → Bool} {char : Char} {rest : List Char}
    (none : hasPair first second (char :: rest) = false) (begins : first char)
    (next : Char) (follows : next ∈ rest.head?) : second next = false := by
  cases rest with
  | nil => cases follows
  | cons other rest =>
      cases follows
      simp only [hasPair, begins, Bool.true_and, Bool.or_eq_false_iff] at none
      exact none.1

private theorem getLast?_of_cons {char : Char} {rest : List Char}
    (closed : (char :: rest).getLast? ≠ some ' ') : rest.getLast? ≠ some ' ' := by
  cases rest with
  | nil => simp
  | cons next rest => simpa [List.getLast?_cons_cons] using closed

/-- What is left of a bare text is one further on. -/
theorem BareRest.tail {char : Char} {rest : List Char} (bare : BareRest (char :: rest)) :
    BareRest rest where
  blanks := (List.forall_mem_cons.mp bare.blanks).2
  noKeyMark := by
    have none := bare.noKeyMark
    simp only [hasKeyMark, Bool.or_eq_false_iff] at none
    exact none.2
  noComment := hasPair_of_cons bare.noComment
  closed := getLast?_of_cons bare.closed

/-- A bare text holds no space but blanks. -/
theorem BareRest.not_isSpace {char : Char} {rest : List Char} (bare : BareRest (char :: rest))
    (notBlank : char ≠ ' ') : isSpace char = false := by
  cases space : isSpace char with
  | false => rfl
  | true => exact absurd (bare.blanks char List.mem_cons_self space) notBlank

/-- What is written for a text that does not start with a blank does not do so either. -/
theorem startsSpace_bare {rest : List Char} (bare : BareRest rest) (word : startsBlank rest = false)
    (column : Nat) (blankBefore : Bool) (next : List Char) :
    startsSpace (Style.bare column blankBefore rest ++ next) = false := by
  cases rest with
  | nil => cases word
  | cons char rest =>
      have notBlank : char ≠ ' ' := by
        rintro rfl
        cases word
      rw [Style.bare, if_neg notBlank]
      exact bare.not_isSpace notBlank

/-- A colon of the text is not the end of a key. -/
theorem BareRest.startsBlank_behind_colon {rest : List Char} (bare : BareRest (':' :: rest)) :
    startsBlank rest = false := by
  have none := bare.noKeyMark
  simp only [hasKeyMark, decide_true, Bool.true_and, Bool.or_eq_false_iff] at none
  exact none.1

/-- A text that can be written bare holds blanks only between its words. -/
theorem bareRest_of_allowsBare {chars : List Char} (allowed : allowsBare chars) :
    BareRest chars := by
  simp only [allowsBare, hasOuterBlank, hasIndicator, Bool.and_eq_true, Bool.not_eq_true',
    Bool.or_eq_false_iff, decide_eq_false_iff_not, List.all_eq_true] at allowed
  obtain ⟨⟨⟨plain, noBreak⟩, -, closed⟩, ⟨⟨⟨-, noKeyMark⟩, noComment⟩, -⟩, -⟩ := allowed
  refine ⟨fun char member space => ?_, noKeyMark, noComment, closed⟩
  have noTab : char ≠ '\t' := ne_of_isPlain (plain char member) (by decide)
  have inline : isBreak char = false := by
    simpa using List.any_eq_false.mp noBreak char member
  simpa [isSpace, isBlank, inline, noTab] using space

end Style

/-- A bare text does not end before a character of its own. -/
theorem endsBare_bare {char : Char} {rest gap : List Char} {mark : Mark}
    (bare : BareRest (char :: rest))
    (inside : 0 < mark.column) (noComment : gap ≠ [] → (char :: rest).head? ≠ some '#')
    (column : Nat) (blankBefore : Bool) (next : List Char) :
    endsBare false 1 gap mark char (Style.bare column blankBefore rest ++ next) = false := by
  have notOut : ¬(mark.column : Int) < 1 := by omega
  have noKey : ¬(char = ':' ∧ startsSpace (Style.bare column blankBefore rest ++ next)) := by
    rintro ⟨rfl, space⟩
    rw [startsSpace_bare bare.tail bare.startsBlank_behind_colon] at space
    cases space
  have word : gap = [] ∨ char ≠ '#' := by
    by_cases empty : gap = []
    · exact .inl empty
    · exact .inr fun sign => noComment empty (congrArg some sign)
  simp only [endsBare, isDocumentMark_of_inside inside, notOut]
  obtain rfl | word := word <;> simp_all

/-- A blank in a bare text is kept until the next word. -/
theorem readBare_blank (indent : Int) (gap : List Char) (mark : Mark) (text : List Char) :
    readBare false indent gap mark (' ' :: text) =
      readBare false indent (gap ++ [' ']) (mark.right 1) text := by
  rw [readBare, if_pos (by decide), if_neg (by simp), Mark.after_of_not_isBreak (by decide)]

private theorem readBare_fold (indent : Int) (mark : Mark) (text : List Char) :
    readBare false indent [] mark ('\n' :: margin ++ text) =
      readBare false indent ('\n' :: margin) ⟨mark.line + 1, 2⟩ text := by
  rw [List.cons_append, readBare, if_pos (by decide), if_neg (by simp)]
  exact (readBare_blank indent ['\n'] ⟨mark.line + 1, 0⟩ _).trans
    (readBare_blank indent ['\n', ' '] ⟨mark.line + 1, 1⟩ text)

/-- A bare text ends with its line if the next one is not indented. -/
theorem readBare_lineEnd (mark : Mark) {next : List Char} (word : StartsWord next) :
    readBare false 1 [] mark ('\n' :: next) =
      .ok { content := [], mark := ⟨mark.line + 1, 0⟩, rest := next, lineEnded := true } := by
  rw [readBare, if_pos (by decide), if_neg (by simp)]
  cases next with
  | nil => rfl
  | cons char rest =>
      have notSpace := word char rfl
      rw [readBare, if_neg (by simp [notSpace]), if_pos (by simp [endsBare, Mark.after, isBreak])]
      rfl

/-- A place in a text that is written bare: for the writer the column and whether a blank stands
in front, for the reader the gap in front and the mark. -/
structure BarePlace where
  column : Nat
  blankBefore : Bool
  gap : List Char
  mark : Mark

namespace BarePlace

/-- What the gap stands for. -/
def pending (place : BarePlace) : List Char :=
  joinWords place.gap

/-- What is read for characters that are written from a place on to the end of a line. -/
def Reads (next : List Char) (place : BarePlace) (chars content : List Char) : Prop :=
  ∃ line, readBare false 1 place.gap place.mark
      (Style.bare place.column place.blankBefore chars ++ '\n' :: next) =
    .ok { content := content, mark := ⟨line, 0⟩, rest := next, lineEnded := true }

/-- Whether writing and reading can stand at a place in front of some characters. -/
structure Stands (place : BarePlace) (chars : List Char) : Prop where
  bare : BareRest chars
  shape : Style.Gap chars place.gap
  noGap : place.blankBefore = false → chars.head? = some ' ' → place.gap = []
  noComment : place.gap ≠ [] → chars.head? ≠ some '#'
  goesOn : chars = [] → place.gap = []
  inside : 0 < place.mark.column

variable {place : BarePlace} {char : Char} {rest next : List Char}

/-- Behind a blank of the text there is another character, which starts no comment. -/
theorem Stands.behind_blank (stands : place.Stands (' ' :: rest)) {column : Nat}
    {gap : List Char} {mark : Mark} (shape : Style.Gap rest gap) (inside : 0 < mark.column) :
    Stands ⟨column, true, gap, mark⟩ rest where
  bare := stands.bare.tail
  shape := shape
  noGap impossible := by cases impossible
  noComment _ head := by cases not_second_of_hasPair stands.bare.noComment (by decide) '#' head
  goesOn := by
    rintro rfl
    exact absurd rfl stands.bare.closed
  inside := inside

/-- A blank that is folded is passed. -/
theorem Stands.passes_fold (stands : place.Stands (' ' :: rest))
    (breaks : breaksAt place.column place.blankBefore && rest.head? ≠ some ' ') :
    Passes Stands pending (Reads next) place ' ' rest := by
  obtain ⟨long, noBlank⟩ := Bool.and_eq_true_iff.mp breaks
  have empty := stands.noGap (not_blankBefore_of_breaksAt long) rfl
  refine ⟨⟨indentation, true, '\n' :: margin, ⟨place.mark.line + 1, 2⟩⟩, [],
    stands.behind_blank (.fold (of_decide_eq_true noBlank)) Nat.zero_lt_two, ?_, ?_⟩
  · rw [pending, pending, empty]
    rfl
  · rintro content ⟨line, reads⟩
    refine ⟨line, ?_⟩
    rw [Style.bare, if_pos rfl, if_pos breaks, List.append_assoc, empty, readBare_fold, reads]
    rfl

/-- A blank that is not folded is passed. -/
theorem Stands.passes_blank (stands : place.Stands (' ' :: rest))
    (unbroken : ¬(breaksAt place.column place.blankBefore && rest.head? ≠ some ' ')) :
    Passes Stands pending (Reads next) place ' ' rest := by
  obtain ⟨shape, joined⟩ := stands.shape.snoc
  refine ⟨⟨place.column + 1, true, place.gap ++ [' '], place.mark.right 1⟩, [],
    stands.behind_blank shape (Nat.succ_pos _), joined, ?_⟩
  rintro content ⟨line, reads⟩
  refine ⟨line, ?_⟩
  rw [Style.bare, if_pos rfl, if_neg unbroken, List.cons_append, readBare_blank, reads]
  rfl

/-- A character of a word is passed. -/
theorem Stands.passes_word (stands : place.Stands (char :: rest)) (notBlank : char ≠ ' ') :
    Passes Stands pending (Reads next) place char rest := by
  have notSpace := stands.bare.not_isSpace notBlank
  refine ⟨⟨place.column + 1, false, [], place.mark.right 1⟩, joinWords place.gap ++ [char],
    ⟨stands.bare.tail, .nil rest, fun _ _ => rfl, fun nonempty => absurd rfl nonempty,
      fun _ => rfl, Nat.succ_pos _⟩, List.append_nil _, ?_⟩
  rintro content ⟨line, reads⟩
  refine ⟨line, ?_⟩
  have goesOn := endsBare_bare stands.bare stands.inside stands.noComment (place.column + 1) false
    ('\n' :: next)
  rw [Style.bare, if_neg notBlank, List.cons_append, readBare, if_neg (by simp [notSpace]),
    if_neg (by simp [goesOn]), Mark.after_of_not_isBreak (isBreak_of_not_isSpace notSpace), reads]
  simp [Except.map, Spelled.behind]

/-- **One character of a bare text is passed**, wherever it stands. -/
theorem Stands.passes (stands : place.Stands (char :: rest)) :
    Passes Stands pending (Reads next) place char rest := by
  by_cases blank : char = ' '
  · subst blank
    by_cases breaks : breaksAt place.column place.blankBefore && rest.head? ≠ some ' '
    · exact stands.passes_fold breaks
    · exact stands.passes_blank breaks
  · exact stands.passes_word blank

end BarePlace

/-- **A text that was written bare is read back.** -/
theorem readBare_bare {chars : List Char} (bare : BareRest chars) (column : Nat) {mark : Mark}
    (inside : 0 < mark.column) {next : List Char} (word : StartsWord next) :
    ∃ line, readBare false 1 [] mark (Style.bare column false chars ++ '\n' :: next) =
      .ok { content := chars, mark := ⟨line, 0⟩, rest := next, lineEnded := true } := by
  have begins : BarePlace.Stands ⟨column, false, [], mark⟩ chars :=
    ⟨bare, .nil chars, fun _ _ => rfl, fun nonempty => absurd rfl nonempty, fun _ => rfl, inside⟩
  refine reads_of_passes BarePlace.Stands BarePlace.pending (BarePlace.Reads next)
    (fun _ _ _ stands => stands.passes) (fun place stands => ?_) begins
  refine ⟨place.mark.line + 1, ?_⟩
  rw [BarePlace.pending, stands.goesOn rfl]
  exact readBare_lineEnd place.mark word

/-! ## Texts in single quotes -/

namespace Style

/-- A gap in a text in single quotes, in front of some characters: one between words, or a row
of line breaks that belong to the text. -/
inductive QuotedGap (chars : List Char) : Bool → List Char → Prop
  | between {gap : List Char} (shape : Gap chars gap)
      (free : gap ≠ [] → ∀ char ∈ chars.head?, isBreak char = false) : QuotedGap chars false gap
  | broken {gap : List Char} (breaks : ∀ char ∈ gap, isBreak char ∧ char ≠ '\n')
      (nonempty : gap ≠ []) (word : chars.head? ≠ some ' ') : QuotedGap chars true gap

/-- In front of a blank no line has been broken. -/
theorem QuotedGap.of_blank {rest gap : List Char} {broken : Bool}
    (shape : QuotedGap (' ' :: rest) broken gap) : broken = false ∧ Gap (' ' :: rest) gap := by
  cases shape with
  | between shape _ => exact ⟨rfl, shape⟩
  | broken _ _ word => exact absurd rfl word

/-- What remains of a text that can be written in single quotes, at any place in it. -/
structure SingleRest (chars : List Char) : Prop where
  spaces : ∀ char ∈ chars, isSpace char → char = ' ' ∨ isBreak char ∧ char ≠ '\n'
  noBlankBefore : hasPair (· = ' ') isBreak chars = false
  noBlankBehind : hasPair isBreak (· = ' ') chars = false

/-- A text that can be written between single quotes has no space at its line ends. -/
theorem singleRest_of_allowsSingle {chars : List Char} (allowed : allowsSingle chars)
    (noFeed : '\n' ∉ chars) : SingleRest chars := by
  simp only [allowsSingle, Bool.and_eq_true, Bool.not_eq_true', List.all_eq_true] at allowed
  obtain ⟨⟨plain, noBlankBefore⟩, noBlankBehind⟩ := allowed
  refine ⟨fun char member space => ?_, noBlankBefore, noBlankBehind⟩
  have noTab : char ≠ '\t' := ne_of_isPlain (plain char member) (by decide)
  have other : char ≠ '\n' := fun feed => noFeed (feed ▸ member)
  simpa [isSpace, isBlank, noTab, other] using space

/-- What is left of such a text is one further on. -/
theorem SingleRest.tail {char : Char} {rest : List Char} (single : SingleRest (char :: rest)) :
    SingleRest rest where
  spaces := (List.forall_mem_cons.mp single.spaces).2
  noBlankBefore := hasPair_of_cons single.noBlankBefore
  noBlankBehind := hasPair_of_cons single.noBlankBehind

/-- Such a text holds no space but blanks and line ends. -/
theorem SingleRest.not_isSpace {char : Char} {rest : List Char}
    (single : SingleRest (char :: rest)) (notBlank : char ≠ ' ') (inline : isBreak char = false) :
    isSpace char = false := by
  cases space : isSpace char with
  | false => rfl
  | true =>
      obtain blank | ⟨ends, -⟩ := single.spaces char List.mem_cons_self space
      · exact absurd blank notBlank
      · rw [inline] at ends
        cases ends

/-- A character between single quotes. -/
def quoteSingle (char : Char) : List Char :=
  if char = '\'' then ['\'', '\''] else [char]

private theorem single_word {char : Char} (notBlank : char ≠ ' ') (inline : isBreak char = false)
    (column : Nat) (blankBefore broken : Bool) (rest : List Char) :
    ∃ behind, single column blankBefore broken (char :: rest) =
      (if broken then margin else []) ++ quoteSingle char ++ single behind false false rest := by
  by_cases quote : char = '\''
  · exact ⟨_, by simp [single, quoteSingle, quote]; rfl⟩
  · exact ⟨_, by simp [single, quoteSingle, notBlank, inline, quote]; rfl⟩

end Style

/-- Line ends that are no newlines stay as they are. -/
theorem joinWords_of_breaks {gap : List Char} (breaks : ∀ char ∈ gap, isBreak char ∧ char ≠ '\n') :
    joinWords gap = gap := by
  have kept : gap.filter isBreak = gap :=
    List.filter_eq_self.mpr fun char member => (breaks char member).1
  rw [joinWords, kept]
  cases gap with
  | nil => rfl
  | cons first more =>
      have other := (breaks first List.mem_cons_self).2
      simp only [other, if_false]

/-- The margin behind line breaks counts for nothing. -/
theorem joinWords_append_margin {gap : List Char}
    (breaks : ∀ char ∈ gap, isBreak char ∧ char ≠ '\n') (nonempty : gap ≠ []) :
    joinWords (gap ++ margin) = joinWords gap := by
  have same : (gap ++ margin).filter isBreak = gap.filter isBreak := by
    rw [List.filter_append, margin, filter_isBreak_replicate, List.append_nil]
  have kept : gap.filter isBreak = gap :=
    List.filter_eq_self.mpr fun char member => (breaks char member).1
  rw [joinWords, joinWords, same, kept]
  cases gap with
  | nil => exact absurd rfl nonempty
  | cons first more => rfl

/-- A line break of the text makes the gap longer by what it stands for. -/
theorem Style.QuotedGap.snoc_break {char : Char} {rest gap : List Char} {broken : Bool}
    (shape : QuotedGap (char :: rest) broken gap) (single : SingleRest (char :: rest))
    (ends : isBreak char) :
    QuotedGap rest true (gap ++ [char]) ∧ joinWords (gap ++ [char]) = joinWords gap ++ [char] := by
  have other : char ≠ '\n' := by
    obtain rfl | ⟨-, other⟩ := single.spaces char List.mem_cons_self (isSpace_of_isBreak ends)
    · cases ends
    · exact other
  have breaks : ∀ char ∈ gap, isBreak char ∧ char ≠ '\n' := by
    cases shape with
    | broken breaks nonempty word => exact breaks
    | between shape free =>
        by_cases empty : gap = []
        · simp [empty]
        · have inline := free empty char rfl
          rw [ends] at inline
          cases inline
  have longer : ∀ next ∈ gap ++ [char], isBreak next ∧ next ≠ '\n' := by
    intro next member
    obtain old | new := List.mem_append.mp member
    · exact breaks next old
    · obtain rfl := List.mem_singleton.mp new
      exact ⟨ends, other⟩
  have word : rest.head? ≠ some ' ' := by
    intro head
    cases not_second_of_hasPair single.noBlankBehind ends ' ' head
  exact ⟨.broken longer (by simp) word,
    by rw [joinWords_of_breaks longer, joinWords_of_breaks breaks]⟩

/-- A blank or a line end between single quotes is kept until the next word. -/
theorem readSingle_space {char : Char} (space : isSpace char) (gap : List Char) (mark : Mark)
    (text : List Char) :
    readSingle gap mark (char :: text) = readSingle (gap ++ [char]) (mark.after char) text := by
  rw [readSingle.eq_def]
  exact if_pos space

/-- A blank between single quotes is kept until the next word. -/
theorem readSingle_blank (gap : List Char) (mark : Mark) (text : List Char) :
    readSingle gap mark (' ' :: text) = readSingle (gap ++ [' ']) (mark.right 1) text := by
  rw [readSingle_space (by decide), Mark.after_of_not_isBreak (by decide)]

/-- A margin between single quotes is kept until the next word. -/
theorem readSingle_margin (gap : List Char) (mark : Mark) (text : List Char) :
    readSingle gap mark (margin ++ text) = readSingle (gap ++ margin) (mark.right 2) text := by
  have second := readSingle_blank (gap ++ [' ']) (mark.right 1) text
  rw [List.append_assoc] at second
  exact (readSingle_blank gap mark (' ' :: text)).trans second

/-- A line end between single quotes is kept until the next word. -/
theorem readSingle_break {char : Char} (ends : isBreak char) (gap : List Char) (mark : Mark)
    (text : List Char) :
    readSingle gap mark (char :: text) =
      readSingle (gap ++ [char]) ⟨mark.line + 1, 0⟩ text := by
  rw [readSingle_space (isSpace_of_isBreak ends), Mark.after, if_pos ends]

private theorem readSingle_fold (mark : Mark) (text : List Char) :
    readSingle [] mark ('\n' :: margin ++ text) =
      readSingle ('\n' :: margin) ⟨mark.line + 1, 2⟩ text :=
  (readSingle_break (by decide) [] mark _).trans (readSingle_margin ['\n'] _ text)

private theorem readSingle_word {char : Char} (word : isSpace char = false) (gap : List Char) {mark : Mark}
    (inside : 0 < mark.column) (text : List Char) :
    readSingle gap mark (quoteSingle char ++ text) =
      (readSingle [] (mark.right (quoteSingle char).length) text).map
        (·.behind (joinWords gap ++ [char])) := by
  have inline := isBreak_of_not_isSpace word
  by_cases quote : char = '\''
  · subst quote
    simp [quoteSingle, readSingle, word, isDocumentMark_of_inside inside]
  · rw [quoteSingle, if_neg quote, List.cons_append, readSingle.eq_def]
    simp [word, isDocumentMark_of_inside inside, quote, Mark.after_of_not_isBreak inline]

private theorem readSingle_closing (gap : List Char) (mark : Mark) {next : List Char}
    (closing : next.head? ≠ some '\'') :
    readSingle gap mark ('\'' :: next) = .ok ⟨joinWords gap, mark.right 1, next⟩ := by
  have noMark : isDocumentMark mark ('\'' :: next) = false := by
    simp [isDocumentMark, startsOpening, startsClosing]
  cases next with
  | nil => simp [readSingle, noMark, isSpace, isBlank, isBreak, lineSeparator, paragraphSeparator]
  | cons char rest =>
      have other : char ≠ '\'' := fun same => closing (congrArg some same)
      simp [readSingle, noMark, other, isSpace, isBlank, isBreak, lineSeparator,
        paragraphSeparator]

/-- A place in a text that is written in single quotes: for the writer the column, whether a blank
stands in front and whether a line break does, for the reader the gap in front and the
mark. -/
structure SinglePlace where
  column : Nat
  blankBefore : Bool
  broken : Bool
  gap : List Char
  mark : Mark

namespace SinglePlace

/-- What the gap stands for. -/
def pending (place : SinglePlace) : List Char :=
  joinWords place.gap

/-- What is read for characters that are written from a place on to the closing quote. -/
def Reads (next : List Char) (place : SinglePlace) (chars content : List Char) : Prop :=
  ∃ behind, readSingle place.gap place.mark
      (Style.single place.column place.blankBefore place.broken chars ++ '\'' :: next) =
    .ok ⟨content, behind, next⟩

/-- Whether writing and reading can stand at a place in front of some characters. -/
structure Stands (place : SinglePlace) (chars : List Char) : Prop where
  single : SingleRest chars
  shape : QuotedGap chars place.broken place.gap
  noGap : place.blankBefore = false → chars.head? = some ' ' → place.gap = []
  inside : place.broken = false → 0 < place.mark.column

variable {place : SinglePlace} {char : Char} {rest next : List Char}

/-- Behind a blank the rest of the text stands in its gap. -/
theorem Stands.behind_blank (stands : place.Stands (' ' :: rest)) {column : Nat}
    {gap : List Char} {mark : Mark} (shape : Style.Gap rest gap) (inside : 0 < mark.column) :
    Stands ⟨column, true, false, gap, mark⟩ rest where
  single := stands.single.tail
  shape := .between shape fun _ =>
    not_second_of_hasPair stands.single.noBlankBefore (by decide)
  noGap impossible := by cases impossible
  inside _ := inside

/-- A blank that is folded is passed between single quotes. -/
theorem Stands.passes_fold (stands : place.Stands (' ' :: rest))
    (breaks : breaksAt place.column place.blankBefore && !rest.isEmpty &&
      rest.head? ≠ some ' ') :
    Passes Stands pending (Reads next) place ' ' rest := by
  obtain ⟨front, noBlank⟩ := Bool.and_eq_true_iff.mp breaks
  obtain ⟨long, _⟩ := Bool.and_eq_true_iff.mp front
  have empty := stands.noGap (not_blankBefore_of_breaksAt long) rfl
  refine ⟨⟨indentation, true, false, '\n' :: margin, ⟨place.mark.line + 1, 2⟩⟩, [],
    stands.behind_blank (.fold (of_decide_eq_true noBlank)) Nat.zero_lt_two, ?_, ?_⟩
  · rw [pending, pending, empty]
    rfl
  · rintro content ⟨behind, reads⟩
    refine ⟨behind, ?_⟩
    rw [Style.single, if_pos rfl, if_pos breaks, List.append_assoc, empty, readSingle_fold, reads]
    rfl

/-- A blank that is not folded is passed between single quotes. -/
theorem Stands.passes_blank (stands : place.Stands (' ' :: rest))
    (unbroken : ¬(breaksAt place.column place.blankBefore && !rest.isEmpty &&
      rest.head? ≠ some ' ')) :
    Passes Stands pending (Reads next) place ' ' rest := by
  obtain ⟨inLine, shape⟩ := stands.shape.of_blank
  obtain ⟨shape, joined⟩ := shape.snoc
  refine ⟨⟨place.column + 1, true, false, place.gap ++ [' '], place.mark.right 1⟩, [],
    stands.behind_blank shape (Nat.succ_pos _), joined, ?_⟩
  rintro content ⟨behind, reads⟩
  refine ⟨behind, ?_⟩
  rw [Style.single, if_pos rfl, if_neg unbroken, List.cons_append, inLine, readSingle_blank, reads]
  rfl

/-- A line end is passed between single quotes. -/
theorem Stands.passes_break (stands : place.Stands (char :: rest)) (ends : isBreak char) :
    Passes Stands pending (Reads next) place char rest := by
  obtain ⟨shape, joined⟩ := stands.shape.snoc_break stands.single ends
  have word : rest.head? ≠ some ' ' := by
    cases shape with
    | broken _ _ word => exact word
  have notBlank : char ≠ ' ' := by
    rintro rfl
    cases ends
  refine ⟨⟨0, place.blankBefore, true, place.gap ++ [char], ⟨place.mark.line + 1, 0⟩⟩, [],
    ⟨stands.single.tail, shape, fun _ head => absurd head word, fun impossible => ?_⟩, joined, ?_⟩
  · cases impossible
  · rintro content ⟨behind, reads⟩
    refine ⟨behind, ?_⟩
    rw [Style.single, if_neg notBlank, if_pos ends, List.cons_append, readSingle_break ends, reads]
    rfl

/-- The margin behind line breaks is read into the gap, so that the next word stands inside a
line. -/
theorem Stands.exists_indented (stands : place.Stands (char :: rest)) :
    ∃ gap mark, (∀ text, readSingle place.gap place.mark
        ((if place.broken then margin else []) ++ text) = readSingle gap mark text) ∧
      joinWords gap = joinWords place.gap ∧ 0 < mark.column := by
  cases flag : place.broken with
  | false => exact ⟨place.gap, place.mark, fun _ => rfl, rfl, stands.inside flag⟩
  | true =>
      have shape := stands.shape
      rw [flag] at shape
      cases shape with
      | broken breaks nonempty _ =>
          exact ⟨_, _, readSingle_margin place.gap place.mark,
            joinWords_append_margin breaks nonempty, Nat.succ_pos _⟩

/-- A character of a word is passed between single quotes. -/
theorem Stands.passes_word (stands : place.Stands (char :: rest)) (notBlank : char ≠ ' ')
    (inline : isBreak char = false) : Passes Stands pending (Reads next) place char rest := by
  have word := stands.single.not_isSpace notBlank inline
  obtain ⟨column, written⟩ :=
    single_word notBlank inline place.column place.blankBefore place.broken rest
  obtain ⟨gap, mark, indented, joined, inside⟩ := stands.exists_indented
  refine ⟨⟨column, false, false, [], mark.right (quoteSingle char).length⟩,
    joinWords place.gap ++ [char], ⟨stands.single.tail, ?_, fun _ _ => rfl,
      fun _ => Nat.lt_add_right _ inside⟩, List.append_nil _, ?_⟩
  · exact .between (.nil rest) fun nonempty => absurd rfl nonempty
  · rintro content ⟨behind, reads⟩
    refine ⟨behind, ?_⟩
    rw [written, List.append_assoc, List.append_assoc, indented, readSingle_word word gap inside,
      reads, joined]
    rfl

/-- **One character of a text in single quotes is passed**, wherever it stands. -/
theorem Stands.passes (stands : place.Stands (char :: rest)) :
    Passes Stands pending (Reads next) place char rest := by
  by_cases blank : char = ' '
  · subst blank
    by_cases breaks : breaksAt place.column place.blankBefore && !rest.isEmpty &&
        rest.head? ≠ some ' '
    · exact stands.passes_fold breaks
    · exact stands.passes_blank breaks
  · cases ends : isBreak char with
    | true => exact stands.passes_break ends
    | false => exact stands.passes_word blank ends

end SinglePlace

/-- **A text that was written in single quotes is read back.** -/
theorem readSingle_single {chars : List Char} (single : SingleRest chars) (column : Nat)
    {mark : Mark} (inside : 0 < mark.column) {next : List Char}
    (closing : next.head? ≠ some '\'') :
    ∃ behind, readSingle [] mark (Style.single column false false chars ++ '\'' :: next) =
      .ok ⟨chars, behind, next⟩ := by
  have begins : SinglePlace.Stands ⟨column, false, false, [], mark⟩ chars :=
    ⟨single, .between (.nil chars) fun nonempty => absurd rfl nonempty, fun _ _ => rfl,
      fun _ => inside⟩
  refine reads_of_passes SinglePlace.Stands SinglePlace.pending (SinglePlace.Reads next)
    (fun _ _ _ stands => stands.passes) (fun place _ => ?_) begins
  exact ⟨_, readSingle_closing place.gap place.mark closing⟩

end Yaml

end Scriptlet
