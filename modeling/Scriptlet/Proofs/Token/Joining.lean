import Scriptlet.Proofs.Syntax.Language
import Scriptlet.Proofs.Syntax.Relocation
import Scriptlet.Proofs.Text.Decoding
import Scriptlet.Proofs.Token.Fragment

/-! # Joined sources

What stands behind a text stands as many lines further down as the text has
newlines, and as many bytes further on as the text has; only on the first line do
columns move (`Position.shift`). A lexer behind a text does what it does without the
text, with all positions shifted (`Lexer.drain_shift`). So two sources with a blank
between them are split into the tokens of the first and the shifted tokens of the
second, or fail like the second (`tokenize_joined`).
-/

namespace Scriptlet

open Lexical

namespace Glyph

def newlines (text : List Glyph) : Nat :=
  text.countP fun glyph => glyph.char == '\n'

/-- The characters behind the last newline, the last of them first. -/
def lastLine (text : List Glyph) : List Glyph :=
  text.reverse.takeWhile fun glyph => glyph.char != '\n'

end Glyph

namespace Position

/-- Where a position of a source comes to stand if a text is put in front of the
source. -/
def shift (text : Bytes) (position : Position) : Position where
  line := position.line + Glyph.newlines (Glyph.decode text)
  column :=
    if position.line = 1 then
      position.column + (Glyph.lastLine (Glyph.decode text)).length
    else
      position.column
  offset := position.offset + text.length
  file := position.file

/-- A position stays in its file. -/
theorem file_afterAll (position : Position) (glyphs : List Glyph) :
    (position.afterAll glyphs).file = position.file := by
  induction glyphs generalizing position with
  | nil => rfl
  | cons glyph glyphs ih =>
      rw [afterAll_cons, ih, after]
      split <;> rfl

/-- Line and column behind a text, counted from its first character. The induction
takes characters from its end, since only the last newline decides the column. -/
theorem line_column_afterAll_start (file : String) (glyphs : List Glyph) :
    ((start file).afterAll glyphs).line = 1 + Glyph.newlines glyphs ∧
      ((start file).afterAll glyphs).column = 1 + (Glyph.lastLine glyphs).length := by
  induction glyphs using List.reverseRecOn with
  | nil => exact ⟨rfl, rfl⟩
  | append_singleton glyphs glyph ih =>
      obtain ⟨line, column⟩ := ih
      rw [afterAll_append, afterAll_cons, afterAll_nil, after]
      by_cases newline : glyph.char = '\n'
      · simp [newline, Glyph.newlines, Glyph.lastLine, line]
        omega
      · simp [newline, Glyph.newlines, Glyph.lastLine, line, column]
        omega

private theorem afterAll_start_eq_shift (file : String) (text : Bytes) :
    (start file).afterAll (Glyph.decode text) = (start file).shift text := by
  obtain ⟨line, column⟩ := line_column_afterAll_start file (Glyph.decode text)
  have offset := offset_afterAll_decode (start file) text
  have same := file_afterAll (start file) (Glyph.decode text)
  rw [shift, ← same]
  exact congr (congr (congr (congrArg Position.mk line) column) offset) rfl

/-- Going on behind a character and shifting can be exchanged, as long as lines are
counted from one: no newline leads to the first line. -/
theorem shift_after {position : Position} (counted : 1 ≤ position.line) (text : Bytes)
    (glyph : Glyph) : (position.after glyph).shift text = (position.shift text).after glyph := by
  have below : position.line + 1 ≠ 1 := by omega
  by_cases newline : glyph.char = '\n'
  · simp only [after, shift, newline, ↓reduceIte, below, Position.mk.injEq, and_true, true_and]
    omega
  · by_cases first : position.line = 1
    · simp only [after, shift, newline, ↓reduceIte, first, Position.mk.injEq, and_true, true_and]
      omega
    · simp only [after, shift, newline, ↓reduceIte, first, Position.mk.injEq, and_true, true_and]
      omega

private theorem one_le_line_after {position : Position} (counted : 1 ≤ position.line) (glyph : Glyph) :
    1 ≤ (position.after glyph).line := by
  rw [after]
  split
  · exact Int.le_trans counted (Int.le_add_of_nonneg_right Int.one_nonneg)
  · exact counted

/-- It does not matter whether a position moves on or is shifted first. -/
theorem shift_afterAll {position : Position} (counted : 1 ≤ position.line) (text : Bytes)
    (glyphs : List Glyph) :
    (position.afterAll glyphs).shift text = (position.shift text).afterAll glyphs ∧
      1 ≤ (position.afterAll glyphs).line := by
  induction glyphs generalizing position with
  | nil => exact ⟨rfl, counted⟩
  | cons glyph glyphs ih =>
      rw [afterAll_cons, afterAll_cons, ← shift_after counted]
      exact ih (one_le_line_after counted glyph)

end Position

namespace Fragment

/-- Fragments that can be read at the end of a source can be read in front of a
text that breaks words. -/
theorem Readable.of_breaks {rest : List Glyph} {fragments : List Fragment}
    (readable : Readable [] fragments) (breaks : Breaks rest) : Readable rest fragments := by
  induction fragments with
  | nil => trivial
  | cons fragment others ih =>
      obtain ⟨valid, ends, behind⟩ := readable
      refine ⟨valid, ?_, ih behind⟩
      cases fragment with
      | blank glyph => trivial
      | word kind glyphs =>
          rw [List.append_nil] at ends
          cases ahead : text others with
          | nil => exact breaks.endsBefore kind
          | cons first more =>
              rw [Ends, ahead] at ends
              exact ends

end Fragment

/-- The failure with its position moved. -/
def LexFailure.relocate (move : Position → Position) : LexFailure → LexFailure
  | .lexical error => .lexical { error with position := move error.position }
  | .unreadable fault => .unreadable fault

namespace Lexer

private theorem judge_relocate (move : Position → Position) (fault : Option String) (first : Glyph)
    (piece : Piece) (span : Span) :
    judge fault first piece (span.relocate move) =
      ((judge fault first piece span).map (Token.relocate move)).mapError
        (LexFailure.relocate move) := by
  obtain ⟨form, body, rest⟩ := piece
  cases form with
  | closed kind => rfl
  | longest kind => cases rest <;> cases fault <;> rfl
  | unclosed => cases fault <;> rfl
  | stray => rfl

private theorem atEnd_relocate (move : Position → Position) (fault : Option String) (position : Position) :
    atEnd fault (move position) =
      ((atEnd fault position).map (Token.relocate move)).mapError (LexFailure.relocate move) := by
  cases fault <;> rfl

/-- The lexer behind a text. -/
def shift (text : Bytes) (lexer : Lexer) : Lexer :=
  { lexer with
    position := lexer.position.shift text
    peeked := lexer.peeked.map (Token.relocate (Position.shift text)) }

private theorem scan_shift {lexer : Lexer} (counted : 1 ≤ lexer.position.line) (text : Bytes) :
    (lexer.shift text).scan =
        ((lexer.scan.1.map (Token.relocate (Position.shift text))).mapError
          (LexFailure.relocate (Position.shift text)), lexer.scan.2.shift text) ∧
      1 ≤ lexer.scan.2.position.line := by
  obtain ⟨started, still⟩ := Position.shift_afterAll counted text
    (lexer.ahead.takeWhile fun glyph => isBlank glyph.char)
  unfold scan
  simp only [shift]
  rw [← started]
  cases lexer.ahead.dropWhile fun glyph => isBlank glyph.char with
  | nil =>
      simp only [atEnd_relocate (Position.shift text)]
      exact ⟨trivial, still⟩
  | cons first rest =>
      obtain ⟨finished, counts⟩ := Position.shift_afterAll still text
        (first :: (Piece.cut first rest).body)
      simp only [← finished, ← judge_relocate]
      exact ⟨rfl, counts⟩

/-- The step of `drain_shift`. -/
theorem next_shift {lexer : Lexer} (counted : 1 ≤ lexer.position.line) (text : Bytes) :
    (lexer.shift text).next =
        ((lexer.next.1.map (Token.relocate (Position.shift text))).mapError
          (LexFailure.relocate (Position.shift text)), lexer.next.2.shift text) ∧
      1 ≤ lexer.next.2.position.line := by
  obtain ⟨ahead, position, fault, peeked⟩ := lexer
  cases peeked with
  | some token => exact ⟨rfl, counted⟩
  | none => exact scan_shift counted text

/-- Behind a text, a lexer gives the same tokens and fails in the same way. Only the
positions are shifted. -/
theorem drain_shift {lexer : Lexer} (counted : 1 ≤ lexer.position.line) (text : Bytes)
    (limit : Nat) :
    (lexer.shift text).drain limit =
      ((lexer.drain limit).map (List.map (Token.relocate (Position.shift text)))).mapError
        (LexFailure.relocate (Position.shift text)) := by
  induction limit generalizing lexer with
  | zero => rfl
  | succ limit ih =>
      obtain ⟨moved, still⟩ := next_shift counted text
      have behind := ih still
      rw [drain, drain, moved]
      rcases taken : lexer.next with ⟨failure | token, next⟩
      · rfl
      · rw [taken] at behind
        change (if token.kind = .endOfInput then _ else _) = _
        by_cases finished : token.kind = .endOfInput
        · simp only [if_pos finished]
          rfl
        · simp only [if_neg finished, behind]
          cases drain limit next <;> rfl

end Lexer

/-- The tokens of a source end with the only end of the input. -/
theorem exists_eq_append_of_tokenize {input : Input} {file : String} {tokens : List Token}
    (split : tokenize input file = .ok tokens) :
    ∃ last, tokens = Token.beforeEnd tokens ++ [last] ∧ last.kind = .endOfInput := by
  obtain ⟨_, fragments, _, readable, rfl⟩ := tokenize_eq_ok_iff.mp split
  have going : ∀ token ∈ Fragment.tokensFrom (.start file) fragments,
      token.kind ≠ .endOfInput := by
    intro token member
    exact (Fragment.spelled_of_mem_tokensFrom readable _ token member).kind_ne_endOfInput
  refine ⟨⟨.endOfInput, "", .point ((Position.start file).afterAll (Fragment.text fragments))⟩,
    ?_, rfl⟩
  rw [Token.beforeEnd_append going (fun last first => by cases first; rfl)]

/-- A source that is accepted and a gap behind it consist of fragments that can be read
whatever follows: no character and no token goes on behind the gap. -/
theorem exists_fragments_of_gap {first : Bytes} {file : String} {gap : Gap}
    (nonempty : gap.text ≠ "") {left : List Token}
    (before : tokenize { bytes := first } file = .ok left) :
    ∃ fragments, Fragment.tokensFrom (.start file) fragments = Token.beforeEnd left ∧
      ∀ rest : Bytes, Fragment.Readable (Glyph.decode rest) fragments ∧
        Glyph.decode (first ++ (Bytes.ofString gap.text ++ rest)) =
          Fragment.text fragments ++ Glyph.decode rest := by
  obtain ⟨last, whole, _⟩ := exists_eq_append_of_tokenize before
  obtain ⟨_, fragments, text, readable, rfl⟩ := tokenize_eq_ok_iff.mp before
  refine ⟨fragments ++ gap.text.toList.map Fragment.skip, ?_, fun rest => ⟨?_, ?_⟩⟩
  · rw [← (List.append_inj' whole rfl).1, Fragment.tokensFrom_append,
      Fragment.tokensFrom_map_skip, List.append_nil]
  · have blanks := (@Gap.readable_append_iff gap (Glyph.decode rest) []).mpr trivial
    rw [List.append_nil] at blanks
    refine Fragment.readable_append_iff.mpr ⟨readable.of_breaks ?_, blanks⟩
    rw [Fragment.text_map_skip]
    exact Gap.breaks nonempty _
  · have something : gap.text.toList ≠ [] := fun nothing =>
      nonempty (String.toList_eq_nil_iff.mp nothing)
    rw [Bytes.ofString, Glyph.decode_append_ofChars_append first rest something,
      Fragment.text_append, Fragment.text_map_skip, ← text, List.append_assoc]

/-- **Joining sources.** With a gap between them, two sources are split as each by
itself, where the second one is shifted. -/
theorem tokenize_joined {first : Bytes} {file : String} {gap : Gap} (nonempty : gap.text ≠ "")
    {left : List Token} (before : tokenize { bytes := first } file = .ok left) (second : Bytes) :
    tokenize { bytes := first ++ (Bytes.ofString gap.text ++ second) } file =
      ((tokenize { bytes := second } file).map fun right => Token.beforeEnd left ++
        right.map (Token.relocate (Position.shift (first ++ Bytes.ofString gap.text)))).mapError
          (LexFailure.relocate (Position.shift (first ++ Bytes.ofString gap.text))) := by
  obtain ⟨fragments, words, spelled⟩ := exists_fragments_of_gap nonempty before
  obtain ⟨readable, decoded⟩ := spelled second
  have front : (Position.start file).afterAll (Fragment.text fragments) =
      (Position.start file).shift (first ++ Bytes.ofString gap.text) := by
    have alone := (spelled []).2
    rw [Glyph.decode_nil, List.append_nil, List.append_nil] at alone
    rw [← alone, Position.afterAll_start_eq_shift]
  have behind : Lexer.drain ((Glyph.decode second).length + 1) ⟨Glyph.decode second,
      (Position.start file).shift (first ++ Bytes.ofString gap.text), none, none⟩ =
        ((tokenize { bytes := second } file).map (List.map (Token.relocate
          (Position.shift (first ++ Bytes.ofString gap.text))))).mapError
            (LexFailure.relocate (Position.shift (first ++ Bytes.ofString gap.text))) :=
    @Lexer.drain_shift (.ofInput { bytes := second } file) (Int.le_refl 1) _ _
  rw [tokenize_of_decode_eq_append decoded readable (fun _ => rfl), front, words, behind]
  cases tokenize { bytes := second } file <;> rfl

/-- **Splitting across blanks.** A source that is accepted, blanks, and any other bytes:
what they give together are the tokens of the first part up to its end, and then the
tokens of the last part, or else the lexical error in it. Tokens and errors of the last
part stand behind what is in front of it, and differ in nothing else from those that
the part gives by itself. -/
theorem tokenize_across_gap {first : Bytes} {file : String} {left : List Token}
    (before : tokenize { bytes := first } file = .ok left) {gap : Gap} (nonempty : gap.text ≠ "")
    (second : Bytes) :
    let front := first ++ Bytes.ofString gap.text
    (∃ last, left = Token.beforeEnd left ++ [last] ∧ last.kind = .endOfInput) ∧
      ((∃ right, tokenize { bytes := second } file = .ok right ∧
          tokenize { bytes := front ++ second } file =
            .ok (Token.beforeEnd left ++ right.map (Token.relocate (Position.shift front)))) ∨
        ∃ error, tokenize { bytes := second } file = .error (.lexical error) ∧
          tokenize { bytes := front ++ second } file =
            .error (.lexical { error with position := error.position.shift front })) := by
  intro front
  refine ⟨exists_eq_append_of_tokenize before, ?_⟩
  have joined := tokenize_joined nonempty before second
  rw [← List.append_assoc] at joined
  cases behind : tokenize { bytes := second } file with
  | ok right =>
      rw [behind] at joined
      exact .inl ⟨right, rfl, joined⟩
  | error failure =>
      obtain ⟨error, rfl⟩ := Lexer.exists_lexical_of_drain rfl behind
      rw [behind] at joined
      exact .inr ⟨error, rfl, joined⟩

/-- A string that is not closed, on the first line of a source. -/
def openQuote : Bytes :=
  Bytes.ofString "print \"x;\n"

/-- A quote that opens in the second part and is not closed. -/
theorem openQuote_tokenize_across_gap :
    let first := Bytes.ofString "x = 7;"
    let gap := "\r\n\t"
    gap ≠ "" ∧ ∃ left, tokenize { bytes := first } "main.peri" = .ok left ∧
      tokenize { bytes := first ++ Bytes.ofString gap ++ openQuote } "main.peri" =
        .error (.lexical ⟨'"'.toNat, "unterminated string", ⟨2, 8, 15, "main.peri"⟩⟩) := by
  intro first gap
  have nonempty : gap ≠ "" := by decide
  have blank : ∀ char ∈ "\r\n\t".toList, isBlank char := List.all_eq_true.mp rfl
  have moved : Position.shift (first ++ Bytes.ofString gap) ⟨1, 7, 6, "main.peri"⟩ =
      ⟨2, 8, 15, "main.peri"⟩ := by decide +kernel
  have accepted : (tokenize { bytes := first } "main.peri").isOk := by decide +kernel
  have rejected : tokenize { bytes := openQuote } "main.peri" =
      .error (.lexical ⟨'"'.toNat, "unterminated string", ⟨1, 7, 6, "main.peri"⟩⟩) := by
    decide +kernel
  cases before : tokenize { bytes := first } "main.peri" with
  | error failure =>
      rw [before] at accepted
      cases accepted
  | ok left =>
      refine ⟨nonempty, left, rfl, ?_⟩
      rcases (@tokenize_across_gap _ _ _ before ⟨gap, blank⟩ nonempty openQuote).2 with
        ⟨right, given, _⟩ | ⟨error, failed, whole⟩
      · cases rejected.symm.trans given
      · cases rejected.symm.trans failed
        rw [← moved]
        exact whole

end Scriptlet
