import Scriptlet.Text.Glyph

/-! # Decoding encoded characters

The bytes that encode some characters are read back as these characters, each
with its encoded size, whatever bytes follow (`Glyph.decode_ofChars_append`).
-/

namespace Scriptlet

namespace Glyph

/-- A character as it is read from its own encoding. -/
def ofChar (char : Char) : Glyph where
  char := char
  size := char.utf8Size

@[simp]
theorem chars_map_ofChar (text : List Char) : chars (text.map ofChar) = text := by
  simp only [chars, List.map_map]
  exact List.map_id text

@[simp]
theorem chars_nil : chars [] = [] :=
  rfl

@[simp]
theorem chars_cons (glyph : Glyph) (glyphs : List Glyph) :
    chars (glyph :: glyphs) = glyph.char :: chars glyphs :=
  rfl

@[simp]
theorem chars_append (left right : List Glyph) :
    chars (left ++ right) = chars left ++ chars right :=
  List.map_append

/-- The front of a text that starts with an encoded character is that
character. Only four bytes are looked at, and no encoding is longer. -/
theorem front?_encode_append (char : Char) (rest : Bytes) :
    front? (String.utf8EncodeChar char ++ rest) = some char := by
  have short : (String.utf8EncodeChar char).length ≤ 4 := by
    rw [String.length_utf8EncodeChar]
    exact char.utf8Size_le_four
  have window : (String.utf8EncodeChar char ++ rest).take 4 =
      String.utf8EncodeChar char ++ rest.take (4 - (String.utf8EncodeChar char).length) := by
    rw [List.take_append, List.take_of_length_le short]
  rw [front?, window, List.toByteArray_append]
  exact ByteArray.utf8DecodeChar?_utf8EncodeChar_append

private theorem decodeAfter_length_append (skipped rest : Bytes) :
    decodeAfter skipped.length (skipped ++ rest) = decode rest := by
  induction skipped with
  | nil =>
      cases rest with
      | nil => rfl
      | cons byte rest => rfl
  | cons byte skipped ih => exact ih

/-- A character is decoded from its encoding, whatever is behind it. -/
theorem decode_encode_append (char : Char) (rest : Bytes) :
    decode (String.utf8EncodeChar char ++ rest) = ofChar char :: decode rest := by
  have front := front?_encode_append char rest
  have size : (String.utf8EncodeChar char).length = char.utf8Size :=
    String.length_utf8EncodeChar char
  cases bytes : String.utf8EncodeChar char with
  | nil =>
      have positive := char.utf8Size_pos
      rw [← size, bytes] at positive
      exact absurd positive (Nat.lt_irrefl 0)
  | cons byte others =>
      rw [bytes] at front size
      have behind : char.utf8Size - 1 = others.length := by
        rw [← size, List.length_cons, Nat.add_sub_cancel]
      rw [decode, List.cons_append, decodeAfter, ← List.cons_append, front]
      simp only [behind, decodeAfter_length_append]
      rfl

/-- Encoded characters in front of a text are read back one by one. -/
theorem decode_ofChars_append (text : List Char) (rest : Bytes) :
    decode (Bytes.ofChars text ++ rest) = text.map ofChar ++ decode rest := by
  induction text with
  | nil => rfl
  | cons char text ih =>
      rw [Bytes.ofChars_cons, List.append_assoc, decode_encode_append, ih]
      rfl

/-- Characters are decoded from their encoding. -/
theorem decode_ofChars (text : List Char) : decode (Bytes.ofChars text) = text.map ofChar := by
  have read := decode_ofChars_append text []
  rwa [List.append_nil, decode_nil, List.append_nil] at read

end Glyph

/-- Only one string has a given encoding. -/
theorem Bytes.ofString_injective {left right : String}
    (same : Bytes.ofString left = Bytes.ofString right) : left = right := by
  have read := congrArg (fun bytes => Glyph.chars (Glyph.decode bytes)) same
  simp only [Bytes.ofString, Glyph.decode_ofChars, Glyph.chars_map_ofChar] at read
  exact String.toList_inj.mp read

end Scriptlet
