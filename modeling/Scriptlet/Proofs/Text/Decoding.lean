import Scriptlet.Proofs.Text.Encoding
import Scriptlet.Source.Position

/-! # Decoding the parts of a text

A byte text can be cut between any two of its decoded characters, and each part
is decoded as it was inside the whole (`Glyph.exists_bytes_of_decode_eq_append`).
Two texts can be put together where the second starts with the first byte of a
character, because no character goes on across such a byte
(`Glyph.decode_append_of_isUTF8FirstByte`).
-/

namespace Scriptlet

namespace Glyph

/-- What stands for a byte outside every well-formed sequence. -/
def stray : Glyph where
  char := replacement
  size := 1

/-- No character is encoded at the front of the bytes. -/
def Broken (bytes : Bytes) : Prop :=
  ∀ char, ¬ String.utf8EncodeChar char <+: bytes

private theorem front?_eq_some_iff {bytes : Bytes} {char : Char} :
    front? bytes = some char ↔ String.utf8EncodeChar char <+: bytes := by
  constructor
  · intro front
    obtain ⟨rest, window⟩ := ByteArray.exists_of_utf8DecodeChar?_eq_some front
    have same := congrArg (fun array => array.data.toList) window
    simp only [ByteArray.data_append, List.data_toByteArray, Array.toList_append] at same
    have inWindow : String.utf8EncodeChar char <+: bytes.take 4 := ⟨rest.data.toList, same.symm⟩
    exact inWindow.trans (List.take_prefix 4 bytes)
  · rintro ⟨rest, rfl⟩
    exact front?_encode_append char rest

/-- A byte that starts no character is decoded by itself. -/
theorem decode_cons_of_broken {byte : UInt8} {rest : Bytes} (broken : Broken (byte :: rest)) :
    decode (byte :: rest) = stray :: decode rest := by
  have nothing : front? (byte :: rest) = none := by
    cases front : front? (byte :: rest) with
    | none => rfl
    | some char => exact absurd (front?_eq_some_iff.mp front) (broken char)
  rw [decode, decodeAfter, nothing]
  rfl

/-- What is broken with more bytes behind it is broken. -/
theorem Broken.of_append {front back : Bytes} (broken : Broken (front ++ back)) :
    Broken front := by
  intro char encoded
  exact broken char (List.prefix_append_of_prefix encoded)

/-- A text is empty, or starts with an encoded character, or starts with a byte
outside every character. -/
@[elab_as_elim]
theorem decode_induction {motive : Bytes → Prop} (nil : motive [])
    (encoded : ∀ char rest, motive rest → motive (String.utf8EncodeChar char ++ rest))
    (broken : ∀ byte rest, Broken (byte :: rest) → motive rest → motive (byte :: rest))
    (bytes : Bytes) : motive bytes := by
  induction length : bytes.length using Nat.strongRecOn generalizing bytes with
  | ind total ih =>
      cases bytes with
      | nil => exact nil
      | cons byte rest =>
          by_cases start : ∃ char, String.utf8EncodeChar char <+: byte :: rest
          · obtain ⟨char, tail, split⟩ := start
            have positive : 0 < (String.utf8EncodeChar char).length :=
              List.length_pos_iff.mpr String.utf8EncodeChar_ne_nil
            rw [← split, List.length_append] at length
            rw [← split]
            exact encoded char tail (ih tail.length (by omega) tail rfl)
          · rw [List.length_cons] at length
            exact broken byte rest (fun char found => start ⟨char, found⟩)
              (ih rest.length (by omega) rest rfl)

/-- **Cutting a text.** Where the decoded characters are cut in two, the bytes can
be cut so that each part is decoded by itself. The induction goes along the
text; a byte outside every character stays outside when bytes behind it are cut
off. -/
theorem exists_bytes_of_decode_eq_append {bytes : Bytes} {left right : List Glyph}
    (decoded : decode bytes = left ++ right) :
    ∃ front back, bytes = front ++ back ∧ decode front = left ∧ decode back = right := by
  induction bytes using decode_induction generalizing left with
  | nil =>
      obtain ⟨rfl, rfl⟩ := List.append_eq_nil_iff.mp decoded.symm
      exact ⟨[], [], rfl, rfl, rfl⟩
  | encoded char rest ih =>
      rw [decode_encode_append] at decoded
      cases left with
      | nil =>
          refine ⟨[], String.utf8EncodeChar char ++ rest, rfl, rfl, ?_⟩
          rw [decode_encode_append]
          exact decoded
      | cons first left =>
          obtain ⟨rfl, behind⟩ := List.cons.inj decoded
          obtain ⟨front, back, rfl, before, after⟩ := ih behind
          refine ⟨String.utf8EncodeChar char ++ front, back, ?_, ?_, after⟩
          · rw [List.append_assoc]
          · rw [decode_encode_append, before]
  | broken byte rest broken ih =>
      rw [decode_cons_of_broken broken] at decoded
      cases left with
      | nil =>
          refine ⟨[], byte :: rest, rfl, rfl, ?_⟩
          rw [decode_cons_of_broken broken]
          exact decoded
      | cons first left =>
          obtain ⟨rfl, behind⟩ := List.cons.inj decoded
          obtain ⟨front, back, rfl, before, after⟩ := ih behind
          refine ⟨byte :: front, back, rfl, ?_, after⟩
          have still : Broken (byte :: front) := @Broken.of_append (byte :: front) back broken
          rw [decode_cons_of_broken still, before]

/-- What is broken stays broken if a new character starts behind it. -/
theorem Broken.append {front back : Bytes} {byte : UInt8} (broken : Broken front)
    (nonempty : front ≠ []) (starts : byte.IsUTF8FirstByte) : Broken (front ++ byte :: back) := by
  intro char encoded
  by_cases short : (String.utf8EncodeChar char).length ≤ front.length
  · exact broken char
      (List.prefix_of_prefix_length_le encoded (List.prefix_append front _) short)
  · -- The character would go on across the byte, but only its own first byte is a first byte.
    have inside : front.length < (String.utf8EncodeChar char).length := Nat.lt_of_not_le short
    have same := encoded.getElem inside
    rw [List.getElem_append_right (Nat.le_refl _)] at same
    simp only [Nat.sub_self, List.getElem_cons_zero] at same
    rw [← same] at starts
    have atStart := UInt8.isUTF8FirstByte_getElem_utf8EncodeChar.mp starts
    exact nonempty (List.length_eq_zero_iff.mp atStart)

/-- **Joining texts.** A text that starts with the first byte of a character is
decoded by itself, whatever bytes stand in front of it. -/
theorem decode_append_of_isUTF8FirstByte (left : Bytes) {byte : UInt8} (rest : Bytes)
    (starts : byte.IsUTF8FirstByte) :
    decode (left ++ byte :: rest) = decode left ++ decode (byte :: rest) := by
  induction left using decode_induction with
  | nil => rfl
  | encoded char left ih =>
      rw [List.append_assoc, decode_encode_append, decode_encode_append, ih]
      rfl
  | broken first left broken ih =>
      have still : Broken (first :: (left ++ byte :: rest)) :=
        broken.append (List.cons_ne_nil _ _) starts
      rw [List.cons_append, decode_cons_of_broken still, decode_cons_of_broken broken, ih]
      rfl

/-- Encoded characters in the middle of a text are read back one by one. -/
theorem decode_append_ofChars_append (left right : Bytes) {text : List Char}
    (nonempty : text ≠ []) :
    decode (left ++ (Bytes.ofChars text ++ right)) =
      decode left ++ (text.map ofChar ++ decode right) := by
  obtain ⟨char, others, rfl⟩ := List.exists_cons_of_ne_nil nonempty
  obtain ⟨byte, tail, encoded⟩ :=
    List.exists_cons_of_ne_nil (String.utf8EncodeChar_ne_nil (c := char))
  have starts : byte.IsUTF8FirstByte := by
    have first := UInt8.isUTF8FirstByte_getElem_zero_utf8EncodeChar (c := char)
    simpa only [encoded, List.getElem_cons_zero] using first
  have joined := decode_append_of_isUTF8FirstByte left
    (tail ++ (Bytes.ofChars others ++ right)) starts
  rw [← List.cons_append, ← encoded, ← List.append_assoc (String.utf8EncodeChar char),
    ← Bytes.ofChars_cons] at joined
  rw [joined, decode_ofChars_append]

/-- A text without replacement characters encodes the characters read from it. -/
theorem ofChars_chars_decode {bytes : Bytes} (sound : replacement ∉ chars (decode bytes)) :
    Bytes.ofChars (chars (decode bytes)) = bytes := by
  induction bytes using decode_induction with
  | nil => rfl
  | encoded char rest ih =>
      rw [decode_encode_append, chars_cons] at sound ⊢
      rw [Bytes.ofChars_cons, ih (fun member => sound (List.mem_cons_of_mem _ member))]
      rfl
  | broken byte rest broken ih =>
      rw [decode_cons_of_broken broken, chars_cons] at sound
      exact absurd List.mem_cons_self sound

end Glyph

namespace Position

@[simp]
theorem offset_after (position : Position) (glyph : Glyph) :
    (position.after glyph).offset = position.offset + glyph.size := by
  unfold after
  split <;> rfl

/-- Behind a text the offset has grown by the number of its bytes. -/
theorem offset_afterAll_decode (position : Position) (bytes : Bytes) :
    (position.afterAll (Glyph.decode bytes)).offset = position.offset + bytes.length := by
  induction bytes using Glyph.decode_induction generalizing position with
  | nil => simp
  | encoded char rest ih =>
      have size : (Glyph.ofChar char).size = (String.utf8EncodeChar char).length :=
        (String.length_utf8EncodeChar char).symm
      rw [Glyph.decode_encode_append, afterAll_cons, ih, offset_after, size, List.length_append]
      omega
  | broken byte rest broken ih =>
      have size : Glyph.stray.size = 1 := rfl
      rw [Glyph.decode_cons_of_broken broken, afterAll_cons, ih, offset_after, size,
        List.length_cons]
      omega

end Position

end Scriptlet
