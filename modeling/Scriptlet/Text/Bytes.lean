/-!
# Byte texts

Program text, string values and output are sequences of bytes. Most of them are
UTF-8 encodings of characters, but a byte text may be cut anywhere, so the bytes
are what is kept. Reading them from a file or a stream ends with them or with a fault.
-/

namespace Scriptlet

/-- A text as the bytes that encode it. The bytes need not be valid UTF-8. -/
abbrev Bytes := List UInt8

namespace Bytes

/-- The UTF-8 encoding of some characters. -/
def ofChars (chars : List Char) : Bytes :=
  chars.flatMap String.utf8EncodeChar

/-- The UTF-8 encoding of a string. -/
def ofString (text : String) : Bytes :=
  ofChars text.toList

/-- The string that the bytes encode, if they are valid UTF-8. -/
def toString? (bytes : Bytes) : Option String :=
  String.fromUTF8? bytes.toByteArray

@[simp]
theorem ofChars_nil : ofChars [] = [] :=
  rfl

@[simp]
theorem ofChars_cons (char : Char) (chars : List Char) :
    ofChars (char :: chars) = String.utf8EncodeChar char ++ ofChars chars :=
  rfl

@[simp]
theorem ofChars_append (left right : List Char) :
    ofChars (left ++ right) = ofChars left ++ ofChars right := by
  simp [ofChars]

end Bytes

/-- Bytes to be read, and the fault that reading meets behind them, if any. -/
structure Input where
  bytes : Bytes
  fault : Option String := none
deriving DecidableEq, Repr

namespace Input

/-- A text that can be read to its end. -/
def ofString (text : String) : Input where
  bytes := Bytes.ofString text

/-- Reads everything, which fails if a fault is met. -/
def readAll (input : Input) : Except String Bytes :=
  match input.fault with
  | none => .ok input.bytes
  | some fault => .error fault

end Input

end Scriptlet
