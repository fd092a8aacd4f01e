import Mathlib.Data.List.Chain
import Scriptlet.Proofs.Syntax.Tree
import Scriptlet.Proofs.Token.Fragment

/-! # Tokens written out

Lexemes are written one behind the other with blanks between them, and the text
is split again. The same tokens come back exactly if a gap is left between every
two neighbours of which the first would otherwise run on into the second
(`tokenize_writeOut_iff`). These are a word in front of a word or a number, and a
number in front of a number.
-/

namespace Scriptlet

open Lexical

namespace TokenKind

/-- The texts that are tokens of a kind. -/
def Admits : TokenKind → String → Prop
  | .endOfInput, _ => False
  | .leftParen, text => text = "("
  | .rightParen, text => text = ")"
  | .leftBrace, text => text = braceOpen
  | .rightBrace, text => text = braceClose
  | .equals, text => text = "="
  | .plus, text => text = "+"
  | .minus, text => text = "-"
  | .star, text => text = "*"
  | .slash, text => text = "/"
  | .semicolon, text => text = ";"
  | .integer, text => text ≠ "" ∧ ∀ char ∈ text.toList, char.isDigit
  | .identifier, text => IsName text
  | .string, text => ∃ content, text = String.ofList ('"' :: (content ++ ['"'])) ∧ '"' ∉ content
  | .ifWord, text => text = "if"
  | .elseWord, text => text = "else"
  | .whileWord, text => text = "while"
  | .printWord, text => text = "print"
  | .unknown _, _ => False

/-- The kinds of words: keywords and identifiers. -/
def words : List TokenKind :=
  [.identifier, .ifWord, .elseWord, .whileWord, .printWord]

/-- A token runs on into one right behind it, if nothing stands between them. -/
def RunsInto (left right : TokenKind) : Prop :=
  (left ∈ words ∧ (right ∈ words ∨ right = .integer)) ∨ (left = .integer ∧ right = .integer)

private theorem admits_keyword_iff {word text : String} (keyword : word ∈ keywords) :
    (ofWord word).Admits text ↔ text = word := by
  simp only [keywords, List.mem_cons, List.not_mem_nil, or_false] at keyword
  rcases keyword with rfl | rfl | rfl | rfl <;> rfl

private theorem admits_of_ofPunctuation? {char : Char} {kind : TokenKind}
    (sign : ofPunctuation? char = some kind) : kind.Admits (String.ofList [char]) := by
  unfold ofPunctuation? at sign
  split at sign <;> cases sign <;> rfl

/-- A text is a token of a kind exactly if it is one of its spellings. -/
theorem admits_iff_spells {kind : TokenKind} {text : String} :
    kind.Admits text ↔ Spells kind text.toList := by
  constructor
  · intro admitted
    cases kind with
    | integer =>
        obtain ⟨nonempty, digits⟩ := admitted
        cases spelling : text.toList with
        | nil => exact absurd (String.toList_eq_nil_iff.mp spelling) nonempty
        | cons first others =>
            rw [spelling, List.forall_mem_cons] at digits
            exact .integer digits.1 digits.2
    | identifier =>
        obtain ⟨free, first, others, spelling, start, letters⟩ := admitted
        have spelled := Spells.word start letters
        rwa [← spelling, String.ofList_toList, ofWord_eq_identifier_iff.mpr free] at spelled
    | string =>
        obtain ⟨content, rfl, unquoted⟩ := admitted
        rw [String.toList_ofList]
        exact .string unquoted
    | ifWord =>
        cases admitted
        exact @Spells.word 'i' ['f'] rfl (List.all_eq_true.mp rfl)
    | elseWord =>
        cases admitted
        exact @Spells.word 'e' ['l', 's', 'e'] rfl (List.all_eq_true.mp rfl)
    | whileWord =>
        cases admitted
        exact @Spells.word 'w' ['h', 'i', 'l', 'e'] rfl (List.all_eq_true.mp rfl)
    | printWord =>
        cases admitted
        exact @Spells.word 'p' ['r', 'i', 'n', 't'] rfl (List.all_eq_true.mp rfl)
    | endOfInput => exact admitted.elim
    | unknown code => exact admitted.elim
    | _ =>
        cases admitted
        exact .punctuation rfl
  · intro spelled
    generalize spelling : text.toList = chars at spelled
    obtain rfl : text = String.ofList chars := by rw [← spelling, String.ofList_toList]
    cases spelled with
    | punctuation sign => exact admits_of_ofPunctuation? sign
    | integer start digits =>
        refine ⟨by simp, ?_⟩
        rw [String.toList_ofList]
        exact List.forall_mem_cons.mpr ⟨start, digits⟩
    | string unquoted => exact ⟨_, rfl, unquoted⟩
    | @word first others start letters =>
        by_cases keyword : String.ofList (first :: others) ∈ keywords
        · exact (admits_keyword_iff keyword).mpr rfl
        · rw [ofWord_eq_identifier_iff.mpr keyword]
          exact ⟨keyword, first, others, String.toList_ofList, start, letters⟩

end TokenKind

namespace Lexical

private theorem ofWord_mem_words (word : String) : TokenKind.ofWord word ∈ TokenKind.words := by
  rcases ofWord_cases word with kind | kind | kind | kind | kind <;> rw [kind] <;> decide

private theorem ofPunctuation?_not_mem_words {char : Char} {kind : TokenKind}
    (sign : TokenKind.ofPunctuation? char = some kind) :
    kind ∉ TokenKind.words ∧ kind ≠ .integer := by
  unfold TokenKind.ofPunctuation? at sign
  split at sign <;> cases sign <;> decide

/-- Every token that is spelled has a text. -/
theorem Spells.ne_nil {kind : TokenKind} {chars : List Char} (spelled : Spells kind chars) :
    chars ≠ [] := by
  cases spelled <;> exact List.cons_ne_nil _ _

/-- The first character of a token tells whether it is a number or a word. -/
theorem Spells.head_iff {kind : TokenKind} {first : Char} {others : List Char}
    (spelled : Spells kind (first :: others)) :
    (first.isDigit ↔ kind = .integer) ∧ (startsWord first ↔ kind ∈ TokenKind.words) := by
  generalize spelling : first :: others = chars at spelled
  cases spelled with
  | punctuation sign =>
      obtain ⟨rfl, _⟩ := List.cons.inj spelling
      obtain ⟨noWord, noNumber⟩ := ofPunctuation?_not_mem_words sign
      constructor
      · refine iff_of_false (fun digit => ?_) noNumber
        exact nomatch (ofPunctuation?_of_isDigit digit).1.symm.trans sign
      · refine iff_of_false (fun letter => ?_) noWord
        exact nomatch (ofPunctuation?_of_startsWord letter).1.symm.trans sign
  | integer start digits =>
      obtain ⟨rfl, _⟩ := List.cons.inj spelling
      refine ⟨iff_of_true start rfl, iff_of_false (fun letter => ?_) (by decide)⟩
      exact (ofPunctuation?_of_startsWord letter).2.2 start
  | string unquoted =>
      obtain ⟨rfl, _⟩ := List.cons.inj spelling
      exact ⟨iff_of_false (by decide) (by decide), iff_of_false (by decide) (by decide)⟩
  | @word letter letters start _ =>
      obtain ⟨rfl, _⟩ := List.cons.inj spelling
      have word := ofWord_mem_words (String.ofList (first :: letters))
      refine ⟨iff_of_false (ofPunctuation?_of_startsWord start).2.2 (fun number => ?_),
        iff_of_true start word⟩
      rw [number] at word
      exact absurd word (by decide)

/-- A token goes on with the first character of another exactly if it runs on into
it. -/
theorem goesOnWith_iff_runsInto {left right : TokenKind} {first : Char} {others : List Char}
    (spelled : Spells right (first :: others)) :
    goesOnWith left first = true ↔ left.RunsInto right := by
  obtain ⟨digit, letter⟩ := spelled.head_iff
  have inWord : continuesWord first = true ↔ right ∈ TokenKind.words ∨ right = .integer := by
    rw [continuesWord, Bool.or_eq_true, letter, digit]
  unfold TokenKind.RunsInto
  cases left with
  | integer => simp [goesOnWith, digit, TokenKind.words]
  | identifier => simp [goesOnWith, inWord, TokenKind.words]
  | ifWord => simp [goesOnWith, inWord, TokenKind.words]
  | elseWord => simp [goesOnWith, inWord, TokenKind.words]
  | whileWord => simp [goesOnWith, inWord, TokenKind.words]
  | printWord => simp [goesOnWith, inWord, TokenKind.words]
  | _ => simp [goesOnWith, TokenKind.words]

end Lexical

/-! ## Fragments that come back -/

/-- A token without its place. -/
def Token.word (token : Token) : TokenKind × String :=
  (token.kind, token.lexeme)

namespace Fragment

/-- What a fragment spells, if it is a word. -/
def word? : Fragment → Option (TokenKind × String)
  | .blank _ => none
  | .word kind glyphs => some (kind, Glyph.spelling glyphs)

/-- The words of the tokens are those of the parts of the source. -/
theorem map_word_tokensFrom (position : Position) (fragments : List Fragment) :
    (tokensFrom position fragments).map Token.word = fragments.filterMap word? := by
  induction fragments generalizing position with
  | nil => rfl
  | cons fragment others ih =>
      rw [tokensFrom, List.map_append, ih]
      cases fragment <;> rfl

/-- A blank and the first character of a word are not the same. -/
theorem glyphs_blank_ne_word {blank : Glyph} (separates : isBlank blank.char) {kind : TokenKind}
    {glyphs : List Glyph} (spelled : Spells kind (Glyph.chars glyphs)) (left right : List Glyph) :
    blank :: left ≠ glyphs ++ right := by
  intro same
  cases glyphs with
  | nil => exact nomatch spelled
  | cons first others =>
      obtain ⟨rfl, _⟩ := List.cons.inj same
      have inked := Lexer.isBlank_head_of_spells spelled
      exact nomatch inked.symm.trans separates

/-- Valid fragments are told by their characters and by what their words spell. -/
theorem eq_of_text_eq {left right : List Fragment} (valid : ∀ fragment ∈ left, fragment.Valid)
    (validRight : ∀ fragment ∈ right, fragment.Valid) (sameText : text left = text right)
    (sameWords : left.filterMap word? = right.filterMap word?) : left = right := by
  induction left generalizing right with
  | nil =>
      cases right with
      | nil => rfl
      | cons fragment others =>
          have nonempty := (validRight fragment List.mem_cons_self).glyphs_ne_nil
          rw [text_nil, text_cons] at sameText
          exact absurd (List.append_eq_nil_iff.mp sameText.symm).1 nonempty
  | cons first others ih =>
      rw [List.forall_mem_cons] at valid
      cases right with
      | nil =>
          rw [text_nil, text_cons] at sameText
          exact absurd (List.append_eq_nil_iff.mp sameText).1 valid.1.glyphs_ne_nil
      | cons second rest =>
          rw [List.forall_mem_cons] at validRight
          rw [text_cons, text_cons] at sameText
          cases first with
          | blank glyph =>
              cases second with
              | blank other =>
                  obtain ⟨rfl, behind⟩ := List.cons.inj sameText
                  rw [ih valid.2 validRight.2 behind sameWords]
              | word kind glyphs =>
                  exact absurd sameText (glyphs_blank_ne_word valid.1 validRight.1 _ _)
          | word kind glyphs =>
              cases second with
              | blank other =>
                  exact absurd sameText.symm (glyphs_blank_ne_word validRight.1 valid.1 _ _)
              | word other characters =>
                  obtain ⟨same, words⟩ := List.cons.inj sameWords
                  obtain ⟨rfl, spelling⟩ := Prod.mk.inj same
                  -- Equal spellings are equally long, so both cut the text at the same place.
                  have lengths : glyphs.length = characters.length := by
                    have chars := congrArg (fun spelled => spelled.toList.length) spelling
                    simpa [Glyph.spelling, Glyph.chars] using chars
                  obtain ⟨characterwise, behind⟩ := List.append_inj sameText lengths
                  change glyphs = characters at characterwise
                  rw [characterwise, ih valid.2 validRight.2 behind words]

/-- What can be read is valid. -/
theorem Readable.valid {rest : List Glyph} {fragments : List Fragment}
    (readable : Readable rest fragments) : ∀ fragment ∈ fragments, fragment.Valid := by
  induction fragments with
  | nil => exact List.forall_mem_nil _
  | cons fragment others ih => exact List.forall_mem_cons.mpr ⟨readable.1, ih readable.2.2⟩

/-- Splitting a text gives back the words of valid fragments exactly if the
fragments are readable. -/
theorem tokenize_words_iff {bytes : Bytes} {fragments : List Fragment}
    (decoded : Glyph.decode bytes = text fragments)
    (valid : ∀ fragment ∈ fragments, fragment.Valid) (file : String) :
    (∃ tokens, tokenize { bytes := bytes } file = .ok tokens ∧
      tokens.map Token.word = fragments.filterMap word? ++ [(.endOfInput, "")]) ↔
        Readable [] fragments := by
  constructor
  · rintro ⟨tokens, split, words⟩
    obtain ⟨_, found, sameText, readable, rfl⟩ := tokenize_eq_ok_iff.mp split
    rw [List.map_append, map_word_tokensFrom] at words
    have sameWords := List.append_cancel_right words
    rwa [← eq_of_text_eq readable.valid valid (sameText.symm.trans decoded) sameWords]
  · intro readable
    refine ⟨_, tokenize_eq_ok_iff.mpr ⟨rfl, fragments, decoded, readable, rfl⟩, ?_⟩
    rw [List.map_append, map_word_tokensFrom]
    rfl

end Fragment

/-! ## Lexemes -/

/-- A token to be written: a kind and one of its texts. -/
structure Lexeme where
  kind : TokenKind
  text : String
  admitted : kind.Admits text

/-- Lexemes are written one behind the other, each behind its gap, with another gap
at the end. -/
def writeOut (trail : Gap) : List (Gap × Lexeme) → String
  | [] => trail.text
  | (gap, lexeme) :: others => gap.text ++ lexeme.text ++ writeOut trail others

/-- A gap is left wherever a lexeme would run on into the next one. -/
def Separated (lexemes : List (Gap × Lexeme)) : Prop :=
  lexemes.IsChain fun left right => left.2.kind.RunsInto right.2.kind → right.1.text ≠ ""

namespace Lexeme

/-- The fragments of written lexemes. -/
def fragments (trail : Gap) : List (Gap × Lexeme) → List Fragment
  | [] => trail.text.toList.map Fragment.skip
  | (gap, lexeme) :: others =>
    gap.text.toList.map Fragment.skip ++ .mark lexeme.kind lexeme.text :: fragments trail others

private theorem text_fragments (trail : Gap) (lexemes : List (Gap × Lexeme)) :
    Fragment.text (fragments trail lexemes) = (writeOut trail lexemes).toList.map Glyph.ofChar := by
  induction lexemes with
  | nil => exact Fragment.text_map_skip trail.text.toList
  | cons first others ih =>
      rw [fragments, Fragment.text_append, Fragment.text_cons, ih, Fragment.text_map_skip, writeOut,
        String.toList_append, String.toList_append, List.map_append, List.map_append,
        List.append_assoc]
      rfl

/-- Characters that are skipped have no words. -/
theorem filterMap_word?_skip (chars : List Char) :
    (chars.map Fragment.skip).filterMap Fragment.word? = [] := by
  rw [List.filterMap_map, List.filterMap_eq_nil_iff]
  intro char _
  rfl

private theorem filterMap_word?_fragments (trail : Gap) (lexemes : List (Gap × Lexeme)) :
    (fragments trail lexemes).filterMap Fragment.word? =
      lexemes.map fun written => (written.2.kind, written.2.text) := by
  induction lexemes with
  | nil => exact filterMap_word?_skip trail.text.toList
  | cons first others ih =>
      have spelled : Glyph.spelling (first.2.text.toList.map Glyph.ofChar) = first.2.text := by
        rw [Glyph.spelling, Glyph.chars_map_ofChar, String.ofList_toList]
      have own : Fragment.word? (.mark first.2.kind first.2.text) =
          some (first.2.kind, first.2.text) := by
        simp only [Fragment.mark, Fragment.word?, spelled]
      rw [fragments, List.filterMap_append, filterMap_word?_skip, List.nil_append,
        List.filterMap_cons_some own, ih, List.map_cons]

/-- A lexeme is a valid part of a source. -/
theorem valid_mark (lexeme : Lexeme) : (Fragment.mark lexeme.kind lexeme.text).Valid := by
  rw [Fragment.mark, Fragment.Valid, Glyph.chars_map_ofChar]
  exact TokenKind.admits_iff_spells.mp lexeme.admitted

/-- A token ends in front of written lexemes exactly if a gap is left where it
would run on into the first of them. -/
theorem endsBefore_text_iff {kind : TokenKind} {trail : Gap} {lexemes : List (Gap × Lexeme)} :
    EndsBefore kind (Fragment.text (fragments trail lexemes)) ↔
      ∀ next ∈ lexemes.head?, kind.RunsInto next.2.kind → next.1.text ≠ "" := by
  cases lexemes with
  | nil =>
      refine iff_of_true ?_ (by simp)
      by_cases nothing : trail.text = ""
      · simp [fragments, nothing, EndsBefore]
      · have breaks := Gap.breaks nothing []
        rw [List.append_nil] at breaks
        rw [fragments, Fragment.text_map_skip]
        exact breaks.endsBefore kind
  | cons next others =>
      obtain ⟨gap, lexeme⟩ := next
      rw [fragments, Fragment.text_append, Fragment.text_map_skip]
      simp only [List.head?_cons, Option.mem_def, Option.some.injEq, forall_eq']
      by_cases nothing : gap.text = ""
      · have spelled := TokenKind.admits_iff_spells.mp lexeme.admitted
        obtain ⟨first, letters, spelling⟩ := List.exists_cons_of_ne_nil spelled.ne_nil
        rw [spelling] at spelled
        have merges := @goesOnWith_iff_runsInto kind _ first letters spelled
        simp only [nothing, EndsBefore, Fragment.text_cons, Fragment.glyphs_mark, spelling,
          ← merges]
        simp [Glyph.ofChar]
      · exact iff_of_true ((Gap.breaks nothing _).endsBefore kind) (fun _ => nothing)

/-- **Written lexemes are readable where they are separated.** The induction
follows the lexemes; whether one ends shows in the next one. -/
theorem readable_fragments_iff {trail : Gap} {lexemes : List (Gap × Lexeme)} :
    Fragment.Readable [] (fragments trail lexemes) ↔ Separated lexemes := by
  induction lexemes with
  | nil =>
      have readable := (@Gap.readable_append_iff trail [] []).mpr trivial
      rw [List.append_nil] at readable
      exact iff_of_true readable List.isChain_nil
  | cons first others ih =>
      have ends := @endsBefore_text_iff first.2.kind trail others
      rw [fragments, Gap.readable_append_iff, Fragment.Readable, List.append_nil, ih]
      constructor
      · rintro ⟨_, ended, separated⟩
        exact List.isChain_cons.mpr ⟨ends.mp ended, separated⟩
      · intro chain
        obtain ⟨gaps, separated⟩ := List.isChain_cons.mp chain
        exact ⟨first.2.valid_mark, ends.mpr gaps, separated⟩

private theorem valid_fragments (trail : Gap) (lexemes : List (Gap × Lexeme)) :
    ∀ fragment ∈ fragments trail lexemes, fragment.Valid := by
  have skipped (gap : Gap) : ∀ fragment ∈ gap.text.toList.map Fragment.skip, fragment.Valid := by
    intro fragment member
    obtain ⟨char, inside, rfl⟩ := List.mem_map.mp member
    exact gap.blank char inside
  induction lexemes with
  | nil => exact skipped trail
  | cons first others ih =>
      rw [fragments, List.forall_mem_append, List.forall_mem_cons]
      exact ⟨skipped first.1, first.2.valid_mark, ih⟩

end Lexeme

/-- **Splitting undoes writing.** Whatever lexemes are written, behind whatever
gaps, the text is split into exactly these lexemes and the end of the input if and
only if a gap is left wherever one would run on into the next. -/
theorem tokenize_writeOut_iff (trail : Gap) (lexemes : List (Gap × Lexeme)) (file : String) :
    (∃ tokens, tokenize (.ofString (writeOut trail lexemes)) file = .ok tokens ∧
      tokens.map Token.word =
        lexemes.map (fun written => (written.2.kind, written.2.text)) ++ [(.endOfInput, "")]) ↔
      Separated lexemes := by
  have decoded : Glyph.decode (Bytes.ofString (writeOut trail lexemes)) =
      Fragment.text (Lexeme.fragments trail lexemes) := by
    rw [Bytes.ofString, Glyph.decode_ofChars, Lexeme.text_fragments]
  rw [← @Lexeme.readable_fragments_iff trail, ← Lexeme.filterMap_word?_fragments trail]
  exact Fragment.tokenize_words_iff decoded (Lexeme.valid_fragments trail lexemes) file

example : (tokenize (.ofString "12ab") "").map (·.map Token.word) =
    .ok [(.integer, "12"), (.identifier, "ab"), (.endOfInput, "")] := by
  decide +kernel

end Scriptlet
