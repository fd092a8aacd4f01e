import Scriptlet.Proofs.Text.Decoding
import Scriptlet.Proofs.Token.Fragment

/-! # Tokens tile their source

The bytes of a source that can be split are blanks and the spellings of its
tokens, one behind the other without a gap (`Laid`). From this follows what the
spans say about the source: they are in order, they leave out blanks only, and
the bytes under each of them spell the token.
-/

namespace Scriptlet

open Lexical

/-- The bytes that only separate tokens. -/
def Bytes.blanks : Bytes :=
  Bytes.ofString " \t\n\r"

namespace Span

/-- The bytes of a source under a span. -/
def bytes (span : Span) (source : Bytes) : Bytes :=
  (source.take span.finish.offset.toNat).drop span.start.offset.toNat

/-- The byte at an offset lies under a span. -/
def Covers (span : Span) (offset : Nat) : Prop :=
  span.start.offset ≤ offset ∧ offset < span.finish.offset

private theorem bytes_append {span : Span} {front word back : Bytes}
    (start : span.start.offset = front.length)
    (finish : span.finish.offset = front.length + word.length) :
    span.bytes (front ++ (word ++ back)) = word := by
  have first : span.start.offset.toNat = front.length := by omega
  have last : span.finish.offset.toNat = (front ++ word).length := by
    rw [List.length_append]
    omega
  rw [bytes, first, last, ← List.append_assoc, List.take_left, List.drop_left]

end Span

/-- Tokens laid out over some bytes, the first of which is at an offset: blanks
stand between them, and the bytes of each are decoded as its lexeme. In strings
alone may decoding replace a byte. -/
inductive Laid : Nat → Bytes → List Token → Prop
  | nil {offset : Nat} : Laid offset [] []
  | blank {offset : Nat} {byte : UInt8} {bytes : Bytes} {tokens : List Token}
      (separates : byte ∈ Bytes.blanks) (behind : Laid (offset + 1) bytes tokens) :
      Laid offset (byte :: bytes) tokens
  | token {offset : Nat} {word bytes : Bytes} {token : Token} {tokens : List Token}
      (nonempty : word ≠ []) (start : token.span.start.offset = offset)
      (finish : token.span.finish.offset = offset + word.length)
      (lexeme : token.lexeme = Glyph.spelling (Glyph.decode word))
      (faithful : token.kind ≠ .string → word = Bytes.ofString token.lexeme)
      (behind : Laid (offset + word.length) bytes tokens) :
      Laid offset (word ++ bytes) (token :: tokens)

namespace Laid

variable {offset : Nat} {bytes : Bytes} {tokens : List Token}

/-- Tokens lie within the bytes that they were laid on. -/
theorem within (laid : Laid offset bytes tokens) :
    ∀ token ∈ tokens, offset ≤ token.span.start.offset ∧
      token.span.start.offset < token.span.finish.offset ∧
      token.span.finish.offset ≤ offset + bytes.length := by
  induction laid with
  | nil => simp
  | blank separates behind ih =>
      intro token member
      have inside := ih token member
      rw [List.length_cons]
      omega
  | @token offset word bytes token tokens nonempty start finish _ _ behind ih =>
      have positive := List.length_pos_iff.mpr nonempty
      intro other member
      rw [List.length_append]
      rcases List.mem_cons.mp member with rfl | later
      · omega
      · have inside := ih other later
        omega

/-- Each token ends before the next ones start. -/
theorem ordered (laid : Laid offset bytes tokens) :
    tokens.Pairwise fun token later => token.span.finish.offset ≤ later.span.start.offset := by
  induction laid with
  | nil => exact List.Pairwise.nil
  | blank separates behind ih => exact ih
  | token nonempty start finish lexeme faithful behind ih =>
      refine List.pairwise_cons.mpr ⟨?_, ih⟩
      intro later member
      have inside := behind.within later member
      omega

/-- A byte that no token covers is a blank. -/
theorem mem_blanks_of_uncovered (laid : Laid offset bytes tokens) {index : Nat} {byte : UInt8}
    (found : bytes[index]? = some byte)
    (uncovered : ∀ token ∈ tokens, ¬ token.span.Covers (offset + index)) :
    byte ∈ Bytes.blanks := by
  induction laid generalizing index with
  | nil => simp at found
  | @blank offset first bytes tokens separates behind ih =>
      cases index with
      | zero =>
          rw [List.getElem?_cons_zero] at found
          cases found
          exact separates
      | succ index =>
          rw [List.getElem?_cons_succ] at found
          refine ih found ?_
          rw [Nat.add_assoc, Nat.add_comm 1 index]
          exact uncovered
  | @token offset word bytes token tokens nonempty start finish _ _ behind ih =>
      by_cases inside : index < word.length
      · have covered : token.span.Covers (offset + index) := by
          constructor <;> omega
        exact absurd covered (uncovered token List.mem_cons_self)
      · have beyond := Nat.le_of_not_lt inside
        rw [List.getElem?_append_right beyond] at found
        refine ih found ?_
        intro later member
        have position : offset + word.length + (index - word.length) = offset + index := by omega
        rw [position]
        exact uncovered later (List.mem_cons_of_mem _ member)

/-- The bytes under a token's span are decoded as its lexeme, and spell it exactly
unless it is a string. -/
theorem spelled (laid : Laid offset bytes tokens) {front : Bytes} (here : front.length = offset) :
    ∀ token ∈ tokens,
      token.lexeme = Glyph.spelling (Glyph.decode (token.span.bytes (front ++ bytes))) ∧
      (token.kind ≠ .string → token.span.bytes (front ++ bytes) = Bytes.ofString token.lexeme) := by
  induction laid generalizing front with
  | nil => simp
  | @blank offset byte bytes tokens separates behind ih =>
      have moved : (front ++ [byte]).length = offset + 1 := by simp [here]
      have later := ih moved
      rwa [List.append_assoc, List.singleton_append] at later
  | @token offset word bytes token tokens nonempty start finish lexeme faithful behind ih =>
      have moved : (front ++ word).length = offset + word.length := by simp [here]
      have later := ih moved
      rw [List.append_assoc] at later
      have own : token.span.bytes (front ++ (word ++ bytes)) = word :=
        Span.bytes_append (by rw [start, here]) (by rw [finish, here])
      intro other member
      rcases List.mem_cons.mp member with rfl | behind
      · rw [own]
        exact ⟨lexeme, faithful⟩
      · exact later other behind

end Laid

namespace Lexical

private theorem exists_byte_of_isBlank {char : Char} (blank : isBlank char) :
    ∃ byte, String.utf8EncodeChar char = [byte] ∧ byte ∈ Bytes.blanks := by
  simp only [isBlank, Bool.or_eq_true, decide_eq_true_eq] at blank
  rcases blank with ((rfl | rfl) | rfl) | rfl
  · exact ⟨32, by decide, by decide⟩
  · exact ⟨9, by decide, by decide⟩
  · exact ⟨10, by decide, by decide⟩
  · exact ⟨13, by decide, by decide⟩

/-- A token other than a string is spelled with characters that are no
replacement. -/
theorem Spells.replacement_not_mem {kind : TokenKind} {chars : List Char}
    (spelled : Spells kind chars) (other : kind ≠ .string) : Glyph.replacement ∉ chars := by
  cases spelled with
  | punctuation sign =>
      intro member
      rw [← List.mem_singleton.mp member] at sign
      exact absurd (mem_of_ofPunctuation? sign) (by decide)
  | integer start digits =>
      intro member
      rcases List.mem_cons.mp member with same | inside
      · rw [← same] at start
        exact absurd start (by decide)
      · exact absurd (digits _ inside) (by decide)
  | string unquoted => exact absurd rfl other
  | word start letters =>
      intro member
      rcases List.mem_cons.mp member with same | inside
      · rw [← same] at start
        exact absurd start (by decide)
      · exact absurd (letters _ inside) (by decide)

end Lexical

/-- The tokens of readable fragments are laid out over the bytes of the
fragments. The induction follows the fragments; the bytes are cut where a fragment
ends. -/
theorem Fragment.laid {rest : List Glyph} {fragments : List Fragment}
    (readable : Readable rest fragments) {bytes : Bytes}
    (decoded : Glyph.decode bytes = text fragments) {position : Position} {offset : Nat}
    (here : position.offset = offset) : Laid offset bytes (tokensFrom position fragments) := by
  induction fragments generalizing bytes position offset with
  | nil =>
      obtain rfl : bytes = [] := by
        have behind := position.offset_afterAll_decode bytes
        rw [decoded, text_nil, Position.afterAll_nil] at behind
        exact List.length_eq_zero_iff.mp (by omega)
      exact .nil
  | cons fragment others ih =>
      obtain ⟨valid, _, readable⟩ := readable
      obtain ⟨word, behind, rfl, own, following⟩ :=
        Glyph.exists_bytes_of_decode_eq_append decoded
      have finish := position.offset_afterAll_decode word
      rw [own, here] at finish
      have tail : Laid (offset + word.length) behind
          (tokensFrom (position.afterAll fragment.glyphs) others) :=
        ih readable following (by omega)
      have sound (whole : Glyph.replacement ∉ Glyph.chars fragment.glyphs) :
          Bytes.ofChars (Glyph.chars fragment.glyphs) = word := by
        rw [← own] at whole ⊢
        exact Glyph.ofChars_chars_decode whole
      cases fragment with
      | blank glyph =>
          obtain ⟨byte, encoded, separates⟩ := exists_byte_of_isBlank valid
          have ascii : Glyph.replacement ∉ Glyph.chars (Fragment.blank glyph).glyphs := by
            intro member
            have blank : isBlank Glyph.replacement := by
              rw [List.mem_singleton.mp member]
              exact valid
            exact absurd blank (by decide)
          obtain rfl : [byte] = word := by
            rw [← sound ascii, ← encoded]
            exact (List.append_nil _).symm
          exact .blank separates tail
      | word kind glyphs =>
          have nonempty : word ≠ [] := by
            rintro rfl
            exact valid.glyphs_ne_nil own.symm
          refine .token nonempty here finish (by rw [own]; rfl) ?_ tail
          intro other
          rw [Bytes.ofString, Glyph.spelling, String.toList_ofList]
          exact (sound (Spells.replacement_not_mem valid other)).symm

/-- Tokens tile a source: their spans are in order, do not overlap and lie inside;
they leave out blanks only; the bytes under each span are decoded as the lexeme,
and in strings alone may decoding replace a byte; and behind tokens with nonempty
spans the list ends with the one end of the input, at the end of the source. -/
structure Tiles (source : Bytes) (tokens : List Token) : Prop where
  ordered : tokens.Pairwise fun token later =>
    token.span.finish.offset ≤ later.span.start.offset
  within : ∀ token ∈ tokens, 0 ≤ token.span.start.offset ∧
    token.span.start.offset ≤ token.span.finish.offset ∧
    token.span.finish.offset ≤ source.length
  between : ∀ offset byte, source[offset]? = some byte →
    (∀ token ∈ tokens, ¬ token.span.Covers offset) → byte ∈ Bytes.blanks
  lexemes : ∀ token ∈ tokens,
    token.lexeme = Glyph.spelling (Glyph.decode (token.span.bytes source))
  faithful : ∀ token ∈ tokens, token.kind ≠ .string →
    token.span.bytes source = Bytes.ofString token.lexeme
  ended : ∃ (front : List Token) (last : Token), tokens = front ++ [last] ∧
    (∀ token ∈ front, token.kind ≠ .endOfInput ∧
      token.span.start.offset < token.span.finish.offset) ∧
    last.kind = .endOfInput ∧ last.span.start = last.span.finish ∧
    last.span.start.offset = source.length

/-- Laid out tokens tile the source together with the end of the input behind
them. -/
theorem Laid.tiles {source : Bytes} {tokens : List Token} (laid : Laid 0 source tokens)
    (going : ∀ token ∈ tokens, token.kind ≠ .endOfInput) {finish : Position}
    (ended : finish.offset = source.length) :
    Tiles source (tokens ++ [⟨.endOfInput, "", .point finish⟩]) := by
  have bounds := laid.within
  have spelled := @Laid.spelled 0 source tokens laid [] rfl
  have nothing : (Span.point finish).bytes source = [] := by
    rw [Span.bytes, Span.point, ended, List.drop_eq_nil_of_le]
    simp
  refine ⟨?_, ?_, ?_, ?_, ?_, tokens, _, rfl, ?_, rfl, rfl, ended⟩
  · refine List.pairwise_append.mpr ⟨laid.ordered, List.pairwise_singleton _ _, ?_⟩
    intro token member last same
    have inside := bounds token member
    rw [List.mem_singleton.mp same]
    simp only [Span.point]
    omega
  · rw [List.forall_mem_append, List.forall_mem_singleton]
    constructor
    · intro token member
      have inside := bounds token member
      omega
    · simp only [Span.point]
      omega
  · intro offset byte found uncovered
    refine laid.mem_blanks_of_uncovered found ?_
    intro token member
    rw [Nat.zero_add]
    exact uncovered token (List.mem_append_left _ member)
  · rw [List.forall_mem_append, List.forall_mem_singleton]
    refine ⟨fun token member => (spelled token member).1, ?_⟩
    rw [nothing]
    rfl
  · rw [List.forall_mem_append, List.forall_mem_singleton]
    exact ⟨fun token member => (spelled token member).2, fun _ => nothing⟩
  · intro token member
    exact ⟨going token member, (bounds token member).2.1⟩

/-- **Tokens tile the source.** Whatever bytes a source that can be split consists
of, its tokens tile it: nothing is lost, repeated or moved. -/
theorem tokenize_tiles {input : Input} {file : String} {tokens : List Token}
    (split : tokenize input file = .ok tokens) : Tiles input.bytes tokens := by
  obtain ⟨_, fragments, decoded, readable, rfl⟩ := tokenize_eq_ok_iff.mp split
  have laid : Laid 0 input.bytes (Fragment.tokensFrom (.start file) fragments) :=
    Fragment.laid readable decoded rfl
  have spelled := Fragment.spelled_of_mem_tokensFrom readable (.start file)
  refine laid.tiles (fun token member => (spelled token member).kind_ne_endOfInput) ?_
  rw [← decoded, Position.offset_afterAll_decode]
  exact Int.zero_add _

/-- A source with a string that holds an encoded character and two bytes of a
character that is cut off. -/
def raggedSource : Input where
  bytes := Bytes.ofString "x =\t\"é" ++ 226 :: 130 :: Bytes.ofString "\"\r\n;"

/-- The tokens of the ragged source. -/
def raggedTokens : List Token :=
  [⟨.identifier, "x", ⟨⟨1, 1, 0, "a"⟩, ⟨1, 2, 1, "a"⟩⟩⟩,
    ⟨.equals, "=", ⟨⟨1, 3, 2, "a"⟩, ⟨1, 4, 3, "a"⟩⟩⟩,
    ⟨.string, "\"é\ufffd\ufffd\"", ⟨⟨1, 5, 4, "a"⟩, ⟨1, 10, 10, "a"⟩⟩⟩,
    ⟨.semicolon, ";", ⟨⟨2, 1, 12, "a"⟩, ⟨2, 2, 13, "a"⟩⟩⟩,
    ⟨.endOfInput, "", ⟨⟨2, 2, 13, "a"⟩, ⟨2, 2, 13, "a"⟩⟩⟩]

/-- The ragged source and its tokens. -/
theorem raggedSource_tokenize_tiles :
    tokenize raggedSource "a" = .ok raggedTokens ∧ Tiles raggedSource.bytes raggedTokens := by
  have split : tokenize raggedSource "a" = .ok raggedTokens := by decide +kernel
  exact ⟨split, tokenize_tiles split⟩

end Scriptlet
