import Scriptlet.Text.Bytes

/-!
# Decoded characters

A byte text is read character by character. A well-formed UTF-8 sequence is one
character of its encoded size; any other byte counts as one replacement
character of size one. So decoding never fails and the sizes add up to the
length of the text.
-/

namespace Scriptlet

/-- A decoded character together with the number of bytes it was read from. -/
structure Glyph where
  char : Char
  size : Nat
deriving DecidableEq, Repr

namespace Glyph

/-- The character that stands for a byte outside every well-formed sequence. -/
def replacement : Char := '\ufffd'

/-- The character at the front of the bytes, if they start with a well-formed
sequence. No sequence is longer than four bytes. -/
def front? (bytes : Bytes) : Option Char :=
  (bytes.take 4).toByteArray.utf8DecodeChar? 0

/-- Decodes the bytes that follow the next `skip` bytes, which belong to a
character that has been read already. -/
def decodeAfter : Nat → Bytes → List Glyph
  | _, [] => []
  | skip + 1, _ :: rest => decodeAfter skip rest
  | 0, byte :: rest =>
    match front? (byte :: rest) with
    | some char => ⟨char, char.utf8Size⟩ :: decodeAfter (char.utf8Size - 1) rest
    | none => ⟨replacement, 1⟩ :: decodeAfter 0 rest

/-- The characters of a byte text, in order. -/
def decode (bytes : Bytes) : List Glyph :=
  decodeAfter 0 bytes

/-- The characters of some glyphs. -/
def chars (glyphs : List Glyph) : List Char :=
  glyphs.map (·.char)

/-- The string that some glyphs spell. -/
def spelling (glyphs : List Glyph) : String :=
  String.ofList (chars glyphs)

@[simp]
theorem decode_nil : decode [] = [] :=
  rfl

end Glyph

end Scriptlet
