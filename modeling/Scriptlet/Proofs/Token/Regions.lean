import Scriptlet.Proofs.Token.Location

/-! # Outside and inside of strings

Every double quote of a source leads from outside of strings to the inside of one, or
back (`Region.behind`). This scan knows nothing of tokens, and yet it tells whether a
source can be split into tokens: it can, if all characters met outside are admitted
there and the scan ends outside. If not, the scan also tells the error
(`tokenize_eq_of_regions`).
-/

namespace Scriptlet

namespace Lexical

inductive Region where
  | outside
  | inside
deriving DecidableEq, Repr

namespace Region

def opposite : Region → Region
  | .outside => .inside
  | .inside => .outside

/-- The region behind a character that is met in a region. -/
def pass (region : Region) (glyph : Glyph) : Region :=
  if glyph.char = '"' then region.opposite else region

/-- The region behind a text that starts outside. -/
def behind (text : List Glyph) : Region :=
  text.foldl pass .outside

end Region

open Region

/-- The characters that may be met outside of strings: blanks, punctuation, the double
quote, letters and digits. -/
def Admitted (char : Char) : Prop :=
  char ∈ [' ', '\t', '\n', '\r'] ∨
    char ∈ ['=', '+', '-', '*', '/', '(', ')', '{', '}', ';'] ∨ char = '"' ∨
    IsLetter char ∨ ('0' ≤ char ∧ char ≤ '9')

/-- All characters of a text that are met outside are admitted. -/
def AdmittedOutside (text : List Glyph) : Prop :=
  ∀ front glyph back, text = front ++ glyph :: back → behind front = .outside →
    Admitted glyph.char

/-- The first character of a text that is met outside and not admitted, and the
characters in front of it. -/
structure StrayAt (text front : List Glyph) (glyph : Glyph) : Prop where
  split : ∃ back, text = front ++ glyph :: back
  first : AdmittedOutside front
  outside : behind front = .outside
  refused : ¬ Admitted glyph.char

/-- The last quote of a text leads to the inside; the characters in front of it. -/
structure OpenAt (text front : List Glyph) : Prop where
  split : ∃ quote back, text = front ++ quote :: back ∧ quote.char = '"' ∧
    ∀ glyph ∈ back, glyph.char ≠ '"'
  outside : behind front = .outside

private theorem isBlank_iff {char : Char} : isBlank char ↔ char ∈ [' ', '\t', '\n', '\r'] := by
  simp [isBlank, or_assoc]

private theorem isSome_ofPunctuation?_iff {char : Char} :
    (TokenKind.ofPunctuation? char).isSome ↔
      char ∈ ['=', '+', '-', '*', '/', '(', ')', '{', '}', ';'] := by
  constructor
  · intro sign
    obtain ⟨kind, found⟩ := Option.isSome_iff_exists.mp sign
    exact mem_of_ofPunctuation? found
  · exact List.all_eq_true.mp (rfl : ['=', '+', '-', '*', '/', '(', ')', '{', '}', ';'].all
      (fun char => (TokenKind.ofPunctuation? char).isSome) = true) char

/-- The digits by their range. -/
theorem isDigit_iff {char : Char} : char.isDigit ↔ '0' ≤ char ∧ char ≤ '9' := by
  delta Char.isDigit
  simp only [Char.le_def, Char.reduceVal, ge_iff_le, Bool.and_eq_true, decide_eq_true_eq]

/-- The characters that can start something outside of strings. -/
theorem admitted_iff {char : Char} :
    Admitted char ↔ isBlank char ∨ (TokenKind.ofPunctuation? char).isSome ∨ char = '"' ∨
      startsWord char ∨ char.isDigit := by
  rw [isBlank_iff, isSome_ofPunctuation?_iff, startsWord_iff, isDigit_iff, Admitted]

namespace Region

/-- Where no string is open, what follows decides by itself. -/
theorem behind_append {front : List Glyph} (outside : behind front = .outside)
    (text : List Glyph) : behind (front ++ text) = behind text := by
  rw [behind, List.foldl_append, ← behind, outside, ← behind]

/-- Without quotes the region does not change. -/
theorem foldl_pass_of_unquoted {text : List Glyph} (unquoted : ∀ glyph ∈ text, glyph.char ≠ '"')
    (region : Region) : text.foldl pass region = region := by
  induction text with
  | nil => rfl
  | cons glyph others ih =>
      obtain ⟨here, behind⟩ := List.forall_mem_cons.mp unquoted
      rw [List.foldl_cons, pass, if_neg here]
      exact ih behind

/-- Behind a quote without another one, a string is open. -/
theorem behind_quote_cons {quote : Glyph} (opening : quote.char = '"') {text : List Glyph}
    (unquoted : ∀ glyph ∈ text, glyph.char ≠ '"') : behind (quote :: text) = .inside := by
  rw [behind, List.foldl_cons, pass, if_pos opening]
  exact foldl_pass_of_unquoted unquoted .inside

end Region

/-- The front of a source that is admitted is admitted. -/
theorem AdmittedOutside.of_append {front text : List Glyph}
    (admitted : AdmittedOutside (front ++ text)) : AdmittedOutside front := by
  rintro before glyph back rfl outside
  exact admitted before glyph (back ++ text) (by simp) outside

/-- Behind a text that leads outside, the scan starts again. -/
theorem admittedOutside_append_iff {front text : List Glyph} (outside : behind front = .outside) :
    AdmittedOutside (front ++ text) ↔ AdmittedOutside front ∧ AdmittedOutside text := by
  constructor
  · intro admitted
    refine ⟨admitted.of_append, ?_⟩
    rintro before glyph back rfl region
    apply admitted (front ++ before) glyph back (List.append_assoc _ _ _).symm
    rw [behind_append outside, region]
  · rintro ⟨first, second⟩ before glyph back split region
    rcases List.append_eq_append_iff.mp split with ⟨more, rfl, rest⟩ | ⟨more, rfl, rest⟩
    · rw [behind_append outside] at region
      exact second more glyph back rest region
    · cases more with
      | nil => exact second [] glyph back rest.symm rfl
      | cons other more =>
          obtain ⟨rfl, rfl⟩ := List.cons.inj rest
          exact first before glyph more rfl region

/-- A text that can stand in front of any other: the characters that it has outside are
admitted, and it leads outside again. -/
structure Clean (text : List Glyph) : Prop where
  admitted : AdmittedOutside text
  outside : behind text = .outside

/-- Clean text behind clean text is clean. -/
theorem Clean.append {front text : List Glyph} (first : Clean front) (second : Clean text) :
    Clean (front ++ text) where
  admitted := (admittedOutside_append_iff first.outside).mpr ⟨first.admitted, second.admitted⟩
  outside := (behind_append first.outside text).trans second.outside

/-- Admitted text without quotes is clean. -/
theorem Clean.of_unquoted {text : List Glyph} (admitted : ∀ glyph ∈ text, Admitted glyph.char)
    (unquoted : ∀ glyph ∈ text, glyph.char ≠ '"') : Clean text where
  admitted := by
    rintro front glyph back rfl _
    apply admitted
    simp
  outside := foldl_pass_of_unquoted unquoted .outside

/-- Blanks are clean. -/
theorem Clean.of_blank {text : List Glyph} (blank : ∀ glyph ∈ text, isBlank glyph.char) :
    Clean text := by
  apply Clean.of_unquoted
  · intro glyph member
    exact admitted_iff.mpr (.inl (blank glyph member))
  · intro glyph member quote
    have separates := blank glyph member
    rw [quote] at separates
    exact absurd separates (by decide)

/-- Inside of a string nothing is met outside but the opening quote. -/
theorem admittedOutside_quote_cons {quote : Glyph} (opening : quote.char = '"')
    {content : List Glyph} (unquoted : ∀ glyph ∈ content, glyph.char ≠ '"') :
    AdmittedOutside (quote :: content) := by
  intro front glyph back split outside
  cases front with
  | nil =>
      obtain ⟨rfl, _⟩ := List.cons.inj split
      exact .inr (.inr (.inl opening))
  | cons first front =>
      obtain ⟨rfl, rfl⟩ := List.cons.inj split
      have inner (other : Glyph) (member : other ∈ front) : other.char ≠ '"' :=
        unquoted other (List.mem_append_left _ member)
      rw [behind_quote_cons opening inner] at outside
      cases outside

/-- A string with both quotes is clean. -/
theorem Clean.of_string {opening closing : Glyph} (opens : opening.char = '"')
    (closes : closing.char = '"') {content : List Glyph}
    (unquoted : ∀ glyph ∈ content, glyph.char ≠ '"') :
    Clean (opening :: (content ++ [closing])) where
  admitted := by
    intro front glyph back split outside
    rcases List.eq_nil_or_concat back with rfl | ⟨more, last, rfl⟩
    · have split : (opening :: content) ++ [closing] = front ++ [glyph] := split
      obtain ⟨rfl, same⟩ := List.append_inj' split rfl
      rw [behind_quote_cons opens unquoted] at outside
      cases outside
    · have split : (opening :: content) ++ [closing] = (front ++ glyph :: more) ++ [last] := by
        rw [List.concat_eq_append] at split
        rw [List.append_assoc]
        exact split
      obtain ⟨shorter, _⟩ := List.append_inj' split rfl
      exact admittedOutside_quote_cons opens unquoted front glyph more shorter outside
  outside := by
    have inside := behind_quote_cons opens unquoted
    rw [behind] at inside ⊢
    rw [← List.cons_append, List.foldl_append, inside, List.foldl_cons, List.foldl_nil,
      Region.pass, if_pos closes, opposite]

/-- Tokens are clean, whatever their kind. -/
theorem Spells.clean {kind : TokenKind} {glyphs : List Glyph}
    (spelled : Spells kind (Glyph.chars glyphs)) : Clean glyphs := by
  generalize spelling : Glyph.chars glyphs = chars at spelled
  have plain (test : Char → Bool) (passing : ∀ char ∈ chars, test char)
      (admits : ∀ char, test char → Admitted char) (quote : test '"' = false) : Clean glyphs := by
    rw [← spelling] at passing
    apply Clean.of_unquoted
    · intro glyph member
      exact admits _ (passing _ (List.mem_map_of_mem member))
    · intro glyph member same
      have passed := passing _ (List.mem_map_of_mem member)
      rw [same, quote] at passed
      cases passed
  cases spelled with
  | punctuation sign =>
      apply plain (fun char => (TokenKind.ofPunctuation? char).isSome)
      · rw [List.forall_mem_singleton, sign]
        rfl
      · exact fun char sign => admitted_iff.mpr (.inr (.inl sign))
      · rfl
  | integer start digits =>
      apply plain Char.isDigit (List.forall_mem_cons.mpr ⟨start, digits⟩)
      · exact fun char digit => admitted_iff.mpr (.inr (.inr (.inr (.inr digit))))
      · rfl
  | string unquoted =>
      obtain ⟨opening, others, rfl, opens, rest⟩ := List.map_eq_cons_iff.mp spelling
      obtain ⟨content, last, rfl, rfl, ended⟩ := List.map_eq_append_iff.mp rest
      obtain ⟨closing, rfl, closes⟩ := List.map_eq_singleton_iff.mp ended
      apply Clean.of_string opens closes
      intro glyph member same
      exact unquoted (List.mem_map.mpr ⟨glyph, member, same⟩)
  | word start letters =>
      apply plain continuesWord
      · refine List.forall_mem_cons.mpr ⟨?_, letters⟩
        rw [continuesWord, start, Bool.true_or]
      · intro char letter
        rw [continuesWord, Bool.or_eq_true] at letter
        exact admitted_iff.mpr (.inr (.inr (.inr letter)))
      · rfl

/-- What a piece of text that is no token turns out to be. -/
theorem Piece.cut_of_kind?_eq_none {first : Glyph} {text : List Glyph}
    (kinds : (cut first text).form.kind? = none) :
    (first.char = '"' ∧ cut first text = ⟨.unclosed, text, []⟩ ∧
        ∀ glyph ∈ text, glyph.char ≠ '"') ∨
      (cut first text = ⟨.stray, [], text⟩ ∧ TokenKind.ofPunctuation? first.char = none ∧
        first.char ≠ '"' ∧ ¬ first.char.isDigit ∧ ¬ startsWord first.char) := by
  unfold cut at kinds ⊢
  cases sign : TokenKind.ofPunctuation? first.char with
  | some kind =>
      rw [sign] at kinds
      cases kinds
  | none =>
      rw [sign] at kinds
      simp only at kinds ⊢
      by_cases quote : first.char = '"'
      · left
        rw [if_pos quote] at kinds ⊢
        obtain ⟨split, unquoted, _⟩ :=
          (takeWhile_dropWhile_iff fun glyph : Glyph => glyph.char != '"').mp
            ⟨rfl, (rfl : text.dropWhile _ = _)⟩
        unfold string at kinds ⊢
        cases closed : text.dropWhile fun glyph => glyph.char != '"' with
        | cons closing rest =>
            rw [closed] at kinds
            cases kinds
        | nil =>
            rw [closed, List.append_nil] at split
            rw [← split] at unquoted ⊢
            exact ⟨quote, rfl, fun glyph member => bne_iff_ne.mp (unquoted glyph member)⟩
      · rw [if_neg quote] at kinds ⊢
        by_cases digit : first.char.isDigit
        · rw [if_pos digit] at kinds
          cases kinds
        · rw [if_neg digit] at kinds ⊢
          by_cases letter : startsWord first.char
          · rw [if_pos letter] at kinds
            cases kinds
          · rw [if_neg letter]
            exact .inr ⟨rfl, trivial, quote, digit, letter⟩

/-- What the scan of a text says about splitting it, if the text starts at a position
and a fault may wait behind it. A character that is not admitted comes first, then the
fault, then a string that is not closed. -/
inductive Verdict (fault : Option String) (position : Position) (text : List Glyph) :
    Except LexFailure Unit → Prop
  | accepted (readable : fault = none) (clean : Clean text) :
      Verdict fault position text (.ok ())
  | stray {front : List Glyph} {glyph : Glyph} (found : StrayAt text front glyph) :
      Verdict fault position text
        (.error (.lexical ⟨glyph.char.toNat, "", position.afterAll front⟩))
  | unreadable {cause : String} (broken : fault = some cause) (admitted : AdmittedOutside text) :
      Verdict fault position text (.error (.unreadable cause))
  | unclosed {front : List Glyph} (readable : fault = none) (admitted : AdmittedOutside text)
      (found : OpenAt text front) :
      Verdict fault position text
        (.error (.lexical ⟨'"'.toNat, "unterminated string", position.afterAll front⟩))

variable {fault : Option String} {position : Position} {text : List Glyph}

/-- A stray character stays one behind clean text. -/
theorem StrayAt.prepend {front before : List Glyph} {glyph : Glyph} (clean : Clean front)
    (found : StrayAt text before glyph) : StrayAt (front ++ text) (front ++ before) glyph := by
  obtain ⟨⟨back, rfl⟩, first, outside, refused⟩ := found
  have whole := clean.append ⟨first, outside⟩
  exact ⟨⟨back, (List.append_assoc _ _ _).symm⟩, whole.admitted, whole.outside, refused⟩

/-- An open string stays open behind clean text. -/
theorem OpenAt.prepend {front before : List Glyph} (clean : Clean front)
    (found : OpenAt text before) : OpenAt (front ++ text) (front ++ before) := by
  obtain ⟨⟨quote, back, rfl, opening, unquoted⟩, outside⟩ := found
  refine ⟨⟨quote, back, (List.append_assoc _ _ _).symm, opening, unquoted⟩, ?_⟩
  rw [behind_append clean.outside, outside]

/-- A source with a stray character is not admitted. -/
theorem StrayAt.not_admittedOutside {front : List Glyph} {glyph : Glyph}
    (found : StrayAt text front glyph) : ¬ AdmittedOutside text := by
  obtain ⟨back, split⟩ := found.split
  intro admitted
  exact found.refused (admitted front glyph back split found.outside)

/-- A source with an open string ends inside of it. -/
theorem OpenAt.behind_eq_inside {front : List Glyph} (found : OpenAt text front) :
    behind text = .inside := by
  obtain ⟨quote, back, rfl, opening, unquoted⟩ := found.split
  rw [behind_append found.outside]
  exact behind_quote_cons opening unquoted

/-- The step of `Lexer.drain_verdict`: clean text in front changes nothing. -/
theorem Verdict.prepend {front : List Glyph} {result : Except LexFailure Unit}
    (clean : Clean front) (verdict : Verdict fault (position.afterAll front) text result) :
    Verdict fault position (front ++ text) result := by
  cases verdict with
  | accepted readable rest => exact .accepted readable (clean.append rest)
  | stray found =>
      rw [← Position.afterAll_append]
      exact .stray (found.prepend clean)
  | unreadable broken admitted =>
      exact .unreadable broken
        ((admittedOutside_append_iff clean.outside).mpr ⟨clean.admitted, admitted⟩)
  | unclosed readable admitted found =>
      rw [← Position.afterAll_append]
      exact .unclosed readable
        ((admittedOutside_append_iff clean.outside).mpr ⟨clean.admitted, admitted⟩)
        (found.prepend clean)

/-- A piece of text at its start that gives no token decides about the whole text. -/
theorem verdict_of_judge {first : Glyph} {finish : Position} {failure : LexFailure}
    (inked : ¬ isBlank first.char)
    (judged : Lexer.judge fault first (Piece.cut first text) ⟨position, finish⟩ = .error failure) :
    Verdict fault position (first :: text) (.error failure) := by
  cases kinds : (Piece.cut first text).form.kind? with
  | none =>
      rcases Piece.cut_of_kind?_eq_none kinds with
        ⟨quote, cut, unquoted⟩ | ⟨cut, sign, quote, digit, letter⟩
      · rw [cut] at judged
        have admitted := admittedOutside_quote_cons quote unquoted
        cases fault with
        | some cause =>
            cases judged
            exact .unreadable rfl admitted
        | none =>
            cases judged
            have found : OpenAt (first :: text) [] := ⟨⟨first, text, rfl, quote, unquoted⟩, rfl⟩
            exact .unclosed rfl admitted found
      · rw [cut] at judged
        have refused : ¬ Admitted first.char := by
          simp [admitted_iff, inked, sign, quote, digit, letter]
        have nothing : AdmittedOutside [] := by simp [AdmittedOutside]
        cases judged
        exact .stray ⟨⟨text, rfl⟩, nothing, rfl, refused⟩
  | some kind =>
      -- A token is refused only if its end was not seen.
      cases cut : Piece.cut first text with
      | mk form body rest =>
          rw [cut] at kinds judged
          obtain ⟨rfl, spelled, _⟩ := Piece.cut_eq_iff.mp ⟨form, cut, kinds⟩
          cases form with
          | closed other => cases judged
          | longest other =>
              cases rest with
              | cons next rest => cases judged
              | nil =>
                  cases fault with
                  | none => cases judged
                  | some cause =>
                      cases judged
                      rw [List.append_nil]
                      exact .unreadable rfl spelled.clean.admitted
          | unclosed => cases kinds
          | stray => cases kinds

end Lexical

open Lexical

namespace Lexer

private theorem verdict_of_scan {lexer next : Lexer} {failure : LexFailure}
    (scanned : lexer.scan = (.error failure, next)) :
    Verdict lexer.fault lexer.position lexer.ahead (.error failure) := by
  obtain ⟨split, blank, stops⟩ :=
    (takeWhile_dropWhile_iff fun glyph : Glyph => isBlank glyph.char).mp
      ⟨rfl, (rfl : lexer.ahead.dropWhile _ = _)⟩
  have clean := Clean.of_blank blank
  unfold scan at scanned
  simp only at scanned
  cases found : lexer.ahead.dropWhile fun glyph => isBlank glyph.char with
  | nil =>
      rw [found] at scanned
      rw [found, List.append_nil] at split
      have ended := (Prod.mk.inj scanned).1
      cases broken : lexer.fault with
      | none =>
          rw [broken] at ended
          cases ended
      | some cause =>
          rw [broken] at ended
          cases ended
          rw [split]
          exact .unreadable rfl clean.admitted
  | cons first text =>
      rw [found] at scanned split stops
      have inked : ¬ isBlank first.char := by
        rw [stops first rfl]
        exact Bool.false_ne_true
      have verdict := (verdict_of_judge inked (Prod.mk.inj scanned).1).prepend clean
      rwa [← split] at verdict

/-- Splitting a text into tokens ends as the scan of the text says. The induction is on
the tokens that may be taken; each token that was taken is clean text. -/
theorem drain_verdict {limit : Nat} {lexer : Lexer} (enough : lexer.ahead.length < limit)
    (fresh : lexer.peeked = none) :
    Verdict lexer.fault lexer.position lexer.ahead ((drain limit lexer).map fun _ => ()) := by
  induction limit generalizing lexer with
  | zero => exact absurd enough (Nat.not_lt_zero _)
  | succ limit ih =>
      rcases scanned : lexer.scan with ⟨failure | token, next⟩
      · simp only [drain, Lexer.next, fresh, scanned]
        exact verdict_of_scan scanned
      · obtain ⟨blanks, blank, ⟨nothing, readable, rfl⟩ |
          ⟨kind, glyphs, rest, ahead, spelled, _, rfl, rfl⟩⟩ := scan_eq_ok scanned
        · simp only [drain, Lexer.next, fresh, scanned, ↓reduceIte]
          rw [nothing]
          exact .accepted readable (Clean.of_blank blank)
        · have clean := (Clean.of_blank blank).append spelled.clean
          have shorter : rest.length < limit := Nat.lt_of_lt_of_le
            (scan_shorter scanned spelled.kind_ne_endOfInput).1 (Nat.le_of_lt_succ enough)
          have following := @ih ⟨rest, lexer.position.afterAll (blanks ++ glyphs), lexer.fault,
            none⟩ shorter rfl
          have whole := following.prepend clean
          rw [List.append_assoc, ← ahead] at whole
          simp only [drain, Lexer.next, fresh, scanned, spelled.kind_ne_endOfInput, ↓reduceIte,
            ← Position.afterAll_append]
          generalize drain limit _ = drained at whole ⊢
          cases drained <;> exact whole

end Lexer

/-- **Verdicts.** Splitting a source into tokens comes to the verdict that its regions give. -/
theorem tokenize_verdict (input : Input) (file : String) :
    Verdict input.fault (.start file) (Glyph.decode input.bytes)
      ((tokenize input file).map fun _ => ()) :=
  @Lexer.drain_verdict _ (Lexer.ofInput input file) (Nat.lt_succ_self _) rfl

variable {input : Input} {file : String}

/-- A source has tokens if and only if it can be read, all of it is admitted and no string is open.
-/
theorem exists_tokenize_iff :
    (∃ tokens, tokenize input file = .ok tokens) ↔
      input.fault = none ∧ AdmittedOutside (Glyph.decode input.bytes) ∧
        Region.behind (Glyph.decode input.bytes) = .outside := by
  have verdict := tokenize_verdict input file
  cases split : tokenize input file with
  | ok tokens =>
      rw [split] at verdict
      cases verdict with
      | accepted readable clean =>
          exact ⟨fun _ => ⟨readable, clean.admitted, clean.outside⟩, fun _ => ⟨tokens, rfl⟩⟩
  | error failure =>
      rw [split] at verdict
      constructor
      · rintro ⟨tokens, ⟨⟩⟩
      · rintro ⟨readable, admitted, outside⟩
        cases verdict with
        | stray found => exact absurd admitted found.not_admittedOutside
        | unreadable broken _ => cases readable.symm.trans broken
        | unclosed _ _ found => cases outside.symm.trans found.behind_eq_inside

private theorem tokenize_of_not_admittedOutside
    (refused : ¬ AdmittedOutside (Glyph.decode input.bytes)) :
    ∃ front glyph position, StrayAt (Glyph.decode input.bytes) (Glyph.decode front) glyph ∧
      position.Marks file input.bytes front ∧
      tokenize input file = .error (.lexical ⟨glyph.char.toNat, "", position⟩) := by
  have verdict := tokenize_verdict input file
  cases split : tokenize input file with
  | ok tokens =>
      obtain ⟨_, admitted, _⟩ := exists_tokenize_iff.mp ⟨tokens, split⟩
      exact absurd admitted refused
  | error failure =>
      rw [split] at verdict
      cases verdict with
      | @stray front glyph found =>
          obtain ⟨back, decoded⟩ := found.split
          obtain ⟨bytes, rfl, marks⟩ := Position.exists_marks_afterAll decoded
          exact ⟨bytes, glyph, _, found, marks, rfl⟩
      | unreadable _ admitted => exact absurd admitted refused
      | unclosed _ admitted _ => exact absurd admitted refused

private theorem tokenize_of_fault (admitted : AdmittedOutside (Glyph.decode input.bytes))
    {fault : String} (broken : input.fault = some fault) :
    tokenize input file = .error (.unreadable fault) := by
  have verdict := tokenize_verdict input file
  cases split : tokenize input file with
  | ok tokens =>
      obtain ⟨readable, _, _⟩ := exists_tokenize_iff.mp ⟨tokens, split⟩
      cases readable.symm.trans broken
  | error failure =>
      rw [split] at verdict
      cases verdict with
      | stray found => exact absurd admitted found.not_admittedOutside
      | unreadable met _ =>
          cases met.symm.trans broken
          rfl
      | unclosed readable _ _ => cases readable.symm.trans broken

private theorem tokenize_of_inside (admitted : AdmittedOutside (Glyph.decode input.bytes))
    (readable : input.fault = none)
    (inside : Region.behind (Glyph.decode input.bytes) = .inside) :
    ∃ front position, OpenAt (Glyph.decode input.bytes) (Glyph.decode front) ∧
      position.Marks file input.bytes front ∧
      tokenize input file = .error (.lexical ⟨'"'.toNat, "unterminated string", position⟩) := by
  have verdict := tokenize_verdict input file
  cases split : tokenize input file with
  | ok tokens =>
      obtain ⟨_, _, outside⟩ := exists_tokenize_iff.mp ⟨tokens, split⟩
      cases inside.symm.trans outside
  | error failure =>
      rw [split] at verdict
      cases verdict with
      | stray found => exact absurd admitted found.not_admittedOutside
      | unreadable broken _ => cases readable.symm.trans broken
      | unclosed _ _ found =>
          obtain ⟨quote, back, decoded, _⟩ := found.split
          obtain ⟨bytes, rfl, marks⟩ := Position.exists_marks_afterAll decoded
          exact ⟨bytes, _, found, marks, rfl⟩

/-- **The lexical language by a scan in two states.** For every source: it is split into
tokens exactly if it can be read to its end, all characters that the scan meets outside
of strings are admitted there, and the scan ends outside. If a character met outside is
not admitted, the error is about the first one, at its place, also when reading would
fail later. If there is none, a fault of reading is reported; and without a fault, a
scan that ends inside gives the error about the last opening quote, at its place. -/
theorem tokenize_eq_of_regions (input : Input) (file : String) :
    ((∃ tokens, tokenize input file = .ok tokens) ↔
      input.fault = none ∧ AdmittedOutside (Glyph.decode input.bytes) ∧
        Region.behind (Glyph.decode input.bytes) = .outside) ∧
    (¬ AdmittedOutside (Glyph.decode input.bytes) →
      ∃ front glyph position, StrayAt (Glyph.decode input.bytes) (Glyph.decode front) glyph ∧
        position.Marks file input.bytes front ∧
        tokenize input file = .error (.lexical ⟨glyph.char.toNat, "", position⟩)) ∧
    (AdmittedOutside (Glyph.decode input.bytes) →
      (∀ fault, input.fault = some fault → tokenize input file = .error (.unreadable fault)) ∧
      (input.fault = none → Region.behind (Glyph.decode input.bytes) = .inside →
        ∃ front position, OpenAt (Glyph.decode input.bytes) (Glyph.decode front) ∧
          position.Marks file input.bytes front ∧
          tokenize input file =
            .error (.lexical ⟨'"'.toNat, "unterminated string", position⟩))) := by
  refine ⟨exists_tokenize_iff, tokenize_of_not_admittedOutside, ?_⟩
  intro admitted
  refine ⟨?_, tokenize_of_inside admitted⟩
  intro fault broken
  exact tokenize_of_fault admitted broken

/-- A sign inside of a string, the same sign outside, and a string that is not closed in
front of a fault. -/
def quotedSign : Input where
  bytes := Bytes.ofString "\"@\\\" @ \"x"
  fault := some "closed"

/-- A sign that strings may hold and that is stray outside of them. -/
theorem quotedSign_tokenize_eq_of_regions :
    ¬ AdmittedOutside (Glyph.decode quotedSign.bytes) ∧
      ∃ front glyph position,
        StrayAt (Glyph.decode quotedSign.bytes) (Glyph.decode front) glyph ∧
        position.Marks "main.peri" quotedSign.bytes front ∧
        tokenize quotedSign "main.peri" =
          .error (.lexical ⟨glyph.char.toNat, "", position⟩) := by
  have refused : ¬ AdmittedOutside (Glyph.decode quotedSign.bytes) := by
    intro admitted
    have met := admitted ("\"@\\\" ".toList.map Glyph.ofChar) (Glyph.ofChar '@')
      (" \"x".toList.map Glyph.ofChar) (by decide +kernel) (by decide)
    rw [admitted_iff] at met
    exact absurd met (by decide)
  exact ⟨refused, (tokenize_eq_of_regions quotedSign "main.peri").2.1 refused⟩

end Scriptlet
