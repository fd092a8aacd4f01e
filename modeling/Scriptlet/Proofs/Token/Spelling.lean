import Mathlib.Data.List.TakeWhile
import Scriptlet.Proofs.Text.Encoding
import Scriptlet.Token.Lexer

/-! # Spellings of tokens

Each kind of token has its spellings, and a token ends where the next character
cannot belong to it. Cutting a piece off the front of a text gives a token
exactly when the piece is spelled as its kind demands and ends there
(`Lexical.Piece.cut_eq_iff`).
-/

namespace Scriptlet

/-- Cutting a list in front of its first member that fails a test is cutting it
so that all members before the cut pass and the one behind it fails. -/
theorem takeWhile_dropWhile_iff {α : Type} (test : α → Bool) {text body rest : List α} :
    text.takeWhile test = body ∧ text.dropWhile test = rest ↔
      text = body ++ rest ∧ (∀ member ∈ body, test member) ∧
        ∀ member ∈ rest.head?, test member = false := by
  constructor
  · rintro ⟨rfl, rfl⟩
    refine ⟨List.takeWhile_append_dropWhile.symm, ?_, ?_⟩
    · intro member inside
      exact List.mem_takeWhile_imp inside
    · intro member first
      have stops := List.head?_dropWhile_not test text
      rw [Option.mem_def.mp first] at stops
      exact stops
  · rintro ⟨rfl, passing, failing⟩
    rw [List.takeWhile_append_of_pos passing, List.dropWhile_append_of_pos passing]
    cases rest with
    | nil => simp
    | cons first others =>
        have stops : ¬ test first = true := by simp [failing first rfl]
        rw [List.takeWhile_cons_of_neg stops, List.dropWhile_cons_of_neg stops]
        simp

namespace Lexical

/-- The spellings of each kind of token. -/
inductive Spells : TokenKind → List Char → Prop
  | punctuation {char : Char} {kind : TokenKind}
      (sign : TokenKind.ofPunctuation? char = some kind) : Spells kind [char]
  | integer {first : Char} {others : List Char} (start : first.isDigit)
      (digits : ∀ char ∈ others, char.isDigit) : Spells .integer (first :: others)
  | string {content : List Char} (unquoted : '"' ∉ content) :
      Spells .string ('"' :: (content ++ ['"']))
  | word {first : Char} {others : List Char} (start : startsWord first)
      (letters : ∀ char ∈ others, continuesWord char) :
      Spells (.ofWord (String.ofList (first :: others))) (first :: others)

/-- Whether a character right behind a token would belong to it. -/
def goesOnWith : TokenKind → Char → Bool
  | .integer, char => char.isDigit
  | .identifier, char => continuesWord char
  | .ifWord, char => continuesWord char
  | .elseWord, char => continuesWord char
  | .whileWord, char => continuesWord char
  | .printWord, char => continuesWord char
  | _, _ => false

/-- A token ends where the text behind it cannot continue it. -/
def EndsBefore (kind : TokenKind) (rest : List Glyph) : Prop :=
  ∀ glyph ∈ rest.head?, goesOnWith kind glyph.char = false

/-- The characters that are tokens by themselves. -/
theorem mem_of_ofPunctuation? {char : Char} {kind : TokenKind}
    (sign : TokenKind.ofPunctuation? char = some kind) :
    char ∈ ['=', '+', '-', '*', '/', '(', ')', '{', '}', ';'] := by
  unfold TokenKind.ofPunctuation? at sign
  split at sign <;> first | decide | cases sign

/-- No other character is a token by itself. -/
theorem ofPunctuation?_eq_none {char : Char}
    (other : char ∉ ['=', '+', '-', '*', '/', '(', ')', '{', '}', ';']) :
    TokenKind.ofPunctuation? char = none := by
  cases sign : TokenKind.ofPunctuation? char with
  | none => rfl
  | some kind => exact absurd (mem_of_ofPunctuation? sign) other

/-- A token of one character does not go on. -/
theorem goesOnWith_of_ofPunctuation? {char : Char} {kind : TokenKind}
    (sign : TokenKind.ofPunctuation? char = some kind) (next : Char) :
    goesOnWith kind next = false := by
  unfold TokenKind.ofPunctuation? at sign
  split at sign <;> cases sign <;> rfl

/-- A word is one of the keywords or a name. -/
theorem ofWord_cases (word : String) :
    TokenKind.ofWord word = .ifWord ∨ TokenKind.ofWord word = .elseWord ∨
      TokenKind.ofWord word = .whileWord ∨ TokenKind.ofWord word = .printWord ∨
        TokenKind.ofWord word = .identifier := by
  unfold TokenKind.ofWord
  split <;> simp

/-- A word is continued by the characters of words, also when it is a keyword. -/
theorem goesOnWith_ofWord (word : String) (next : Char) :
    goesOnWith (.ofWord word) next = continuesWord next := by
  rcases ofWord_cases word with kind | kind | kind | kind | kind <;> rw [kind] <;> rfl

/-- The end of the input is not spelled. -/
theorem Spells.kind_ne_endOfInput {kind : TokenKind} {chars : List Char}
    (spelled : Spells kind chars) : kind ≠ .endOfInput := by
  cases spelled with
  | punctuation sign =>
      intro ended
      rw [ended] at sign
      unfold TokenKind.ofPunctuation? at sign
      split at sign <;> cases sign
  | integer start digits => decide
  | string unquoted => decide
  | word start letters =>
      rename_i first others
      rcases ofWord_cases (String.ofList (first :: others)) with
        named | named | named | named | named <;> rw [named] <;> decide

/-- The kind of token that a piece of text turned out to be. -/
def Form.kind? : Form → Option TokenKind
  | .closed kind => some kind
  | .longest kind => some kind
  | .unclosed => none
  | .stray => none

/-- A piece is as long as a test allows if its body passes and what follows does
not. -/
theorem Piece.longest_eq_iff {kind : List Glyph → TokenKind} {test : Char → Bool}
    {text body rest : List Glyph} {form : Form} :
    Piece.longest kind test text = ⟨form, body, rest⟩ ↔
      form = .longest (kind body) ∧ text = body ++ rest ∧
        (∀ glyph ∈ body, test glyph.char) ∧ ∀ glyph ∈ rest.head?, test glyph.char = false := by
  rw [← takeWhile_dropWhile_iff fun glyph : Glyph => test glyph.char]
  simp only [Piece.longest, Piece.mk.injEq]
  constructor
  · rintro ⟨rfl, rfl, rfl⟩
    exact ⟨rfl, rfl, rfl⟩
  · rintro ⟨rfl, rfl, rfl⟩
    exact ⟨rfl, rfl, rfl⟩

/-- A string ends with the first quote behind the one that opens it. -/
theorem Piece.string_eq_closed_iff {text body rest : List Glyph} {kind : TokenKind} :
    (∃ form, Piece.string text = ⟨form, body, rest⟩ ∧ form.kind? = some kind) ↔
      kind = .string ∧ ∃ content quote, body = content ++ [quote] ∧ quote.char = '"' ∧
        text = content ++ quote :: rest ∧ ∀ glyph ∈ content, glyph.char ≠ '"' := by
  constructor
  · rintro ⟨form, cut, kinds⟩
    unfold Piece.string at cut
    obtain ⟨split, unquoted, stops⟩ :=
      (takeWhile_dropWhile_iff fun glyph : Glyph => glyph.char != '"').mp ⟨rfl, rfl⟩
    split at cut
    · cases cut
      exact nomatch kinds
    · rename_i quote others closed
      cases cut
      refine ⟨(Option.some.inj kinds).symm, _, quote, rfl, ?_, ?_, ?_⟩
      · have closing := stops quote (by rw [closed]; rfl)
        simpa using closing
      · rwa [closed] at split
      · intro glyph inside
        simpa using unquoted glyph inside
  · rintro ⟨rfl, content, quote, rfl, closing, rfl, unquoted⟩
    have inner : ∀ glyph ∈ content, (glyph.char != '"') = true := by
      intro glyph inside
      simpa using unquoted glyph inside
    have outer : ∀ glyph ∈ (quote :: rest).head?, (glyph.char != '"') = false := by
      intro glyph first
      cases Option.some.inj first
      simpa using closing
    obtain ⟨before, behind⟩ :=
      (takeWhile_dropWhile_iff fun glyph : Glyph => glyph.char != '"').mpr ⟨rfl, inner, outer⟩
    refine ⟨.closed .string, ?_, rfl⟩
    simp only [Piece.string, before, behind]

/-- A digit is no token of one character and no quote. -/
theorem ofPunctuation?_of_isDigit {char : Char} (digit : char.isDigit) :
    TokenKind.ofPunctuation? char = none ∧ char ≠ '"' := by
  constructor
  · apply ofPunctuation?_eq_none
    intro sign
    have none : ['=', '+', '-', '*', '/', '(', ')', '{', '}', ';'].all
        (fun char => !char.isDigit) = true := by decide
    have other := List.all_eq_true.mp none char sign
    rw [digit] at other
    exact nomatch other
  · rintro rfl
    exact absurd digit (by decide)

/-- A character that starts a word starts nothing else. -/
theorem ofPunctuation?_of_startsWord {char : Char} (start : startsWord char) :
    TokenKind.ofPunctuation? char = none ∧ char ≠ '"' ∧ ¬ char.isDigit := by
  refine ⟨?_, ?_, ?_⟩
  · apply ofPunctuation?_eq_none
    intro sign
    have none : ['=', '+', '-', '*', '/', '(', ')', '{', '}', ';'].all
        (fun char => !startsWord char) = true := by decide
    have other := List.all_eq_true.mp none char sign
    rw [start] at other
    exact nomatch other
  · rintro rfl
    exact absurd start (by decide)
  · intro digit
    delta startsWord Char.isAlpha Char.isUpper Char.isLower at start
    delta Char.isDigit at digit
    simp only [Bool.or_eq_true, Bool.and_eq_true, decide_eq_true_eq, ge_iff_le,
      UInt32.le_iff_toNat_le] at start digit
    rcases start with rfl | upper | lower
    · exact absurd digit (by decide)
    · have order : '9'.val.toNat < 'A'.val.toNat := by decide
      omega
    · have order : '9'.val.toNat < 'a'.val.toNat := by decide
      omega

/-- The characters that names start with. -/
def IsLetter (char : Char) : Prop :=
  char = '_' ∨ ('A' ≤ char ∧ char ≤ 'Z') ∨ ('a' ≤ char ∧ char ≤ 'z')

/-- Words start with a letter. -/
theorem startsWord_iff {char : Char} : startsWord char ↔ IsLetter char := by
  delta startsWord Char.isAlpha Char.isUpper Char.isLower
  simp only [IsLetter, Char.le_def, Char.reduceVal, ge_iff_le, Bool.decide_and, Bool.or_eq_true,
    Bool.and_eq_true, decide_eq_true_eq]

/-- Words go on with letters and digits. -/
theorem continuesWord_iff {char : Char} :
    continuesWord char ↔ IsLetter char ∨ ('0' ≤ char ∧ char ≤ '9') := by
  rw [continuesWord, Bool.or_eq_true, startsWord_iff]
  delta Char.isDigit
  simp only [Char.le_def, Char.reduceVal, ge_iff_le, Bool.and_eq_true, decide_eq_true_eq]

/-- No word and no number goes on into a text. -/
def Breaks (rest : List Glyph) : Prop :=
  ∀ glyph ∈ rest.head?, continuesWord glyph.char = false

/-- A character that does not go on with a word ends it. -/
theorem breaks_cons {char : Char} (outside : continuesWord char = false) (rest : List Glyph) :
    Breaks (Glyph.ofChar char :: rest) := by
  intro glyph first
  cases Option.some.inj first
  exact outside

/-- Every token ends in front of a text that breaks words. -/
theorem Breaks.endsBefore {rest : List Glyph} (breaks : Breaks rest) (kind : TokenKind) :
    EndsBefore kind rest := by
  intro glyph first
  have outside := breaks glyph first
  cases kind with
  | integer => exact (Bool.or_eq_false_iff.mp outside).2
  | identifier => exact outside
  | ifWord => exact outside
  | elseWord => exact outside
  | whileWord => exact outside
  | printWord => exact outside
  | _ => rfl

/-- A piece of text that is a token is cut off where its kind says, and only
there. -/
theorem Piece.cut_eq_iff {first : Glyph} {text body rest : List Glyph} {kind : TokenKind} :
    (∃ form, Piece.cut first text = ⟨form, body, rest⟩ ∧ form.kind? = some kind) ↔
      text = body ++ rest ∧ Spells kind (Glyph.chars (first :: body)) ∧
        EndsBefore kind rest := by
  constructor
  · rintro ⟨form, cut, kinds⟩
    unfold Piece.cut at cut
    split at cut
    · rename_i sign punctuation
      cases cut
      cases Option.some.inj kinds
      refine ⟨rfl, .punctuation punctuation, ?_⟩
      intro glyph _
      exact goesOnWith_of_ofPunctuation? punctuation glyph.char
    · split at cut
      · rename_i quoted
        obtain ⟨rfl, content, quote, rfl, closing, rfl, unquoted⟩ :=
          Piece.string_eq_closed_iff.mp ⟨form, cut, kinds⟩
        refine ⟨by simp, ?_, fun glyph _ => rfl⟩
        simp only [Glyph.chars_cons, Glyph.chars_append, Glyph.chars_nil, quoted, closing]
        apply Spells.string
        intro inside
        obtain ⟨glyph, member, same⟩ := List.mem_map.mp inside
        exact unquoted glyph member same
      · split at cut
        · rename_i digit
          obtain ⟨rfl, rfl, digits, stops⟩ := Piece.longest_eq_iff.mp cut
          cases Option.some.inj kinds
          refine ⟨rfl, .integer digit ?_, stops⟩
          intro char inside
          obtain ⟨glyph, member, rfl⟩ := List.mem_map.mp inside
          exact digits glyph member
        · split at cut
          · rename_i letter
            obtain ⟨rfl, rfl, letters, stops⟩ := Piece.longest_eq_iff.mp cut
            cases Option.some.inj kinds
            refine ⟨rfl, .word letter ?_, ?_⟩
            · intro char inside
              obtain ⟨glyph, member, rfl⟩ := List.mem_map.mp inside
              exact letters glyph member
            · intro glyph head
              rw [goesOnWith_ofWord]
              exact stops glyph head
          · cases cut
            exact nomatch kinds
  · rintro ⟨rfl, spelled, ends⟩
    generalize spelling : Glyph.chars (first :: body) = chars at spelled
    cases spelled with
    | punctuation sign =>
        obtain ⟨rfl, nothing⟩ := List.cons.inj spelling
        obtain rfl : body = [] := List.map_eq_nil_iff.mp nothing
        refine ⟨.closed kind, ?_, rfl⟩
        simp only [Piece.cut, sign, List.nil_append]
    | integer start digits =>
        obtain ⟨rfl, rfl⟩ := List.cons.inj spelling
        obtain ⟨sign, quote⟩ := ofPunctuation?_of_isDigit start
        refine ⟨.longest .integer, ?_, rfl⟩
        simp only [Piece.cut, sign, quote, start, ↓reduceIte]
        refine Piece.longest_eq_iff.mpr ⟨rfl, rfl, ?_, ends⟩
        intro glyph member
        exact digits glyph.char (List.mem_map_of_mem member)
    | string unquoted =>
        have quoted : first.char = '"' := (List.cons.inj spelling).1
        obtain ⟨front, last, rfl, rfl, ended⟩ :=
          List.map_eq_append_iff.mp (List.cons.inj spelling).2
        obtain ⟨quote, rfl, closing⟩ := List.map_eq_singleton_iff.mp ended
        have sign : TokenKind.ofPunctuation? '"' = none := rfl
        simp only [Piece.cut, quoted, sign, ↓reduceIte]
        refine Piece.string_eq_closed_iff.mpr
          ⟨rfl, front, quote, rfl, closing, by simp, ?_⟩
        intro glyph member same
        exact unquoted (List.mem_map.mpr ⟨glyph, member, same⟩)
    | word start letters =>
        obtain ⟨rfl, rfl⟩ := List.cons.inj spelling
        obtain ⟨sign, quote, digit⟩ := ofPunctuation?_of_startsWord start
        refine ⟨.longest (.ofWord (Glyph.spelling (first :: body))), ?_, rfl⟩
        simp only [Piece.cut, sign, quote, digit, start, Bool.false_eq_true, ↓reduceIte]
        refine Piece.longest_eq_iff.mpr ⟨rfl, rfl, ?_, ?_⟩
        · intro glyph member
          exact letters glyph.char (List.mem_map_of_mem member)
        · intro glyph head
          have stops := ends glyph head
          rwa [goesOnWith_ofWord] at stops

end Lexical

end Scriptlet
