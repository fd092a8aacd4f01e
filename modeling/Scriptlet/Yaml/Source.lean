import Scriptlet.Text.Glyph
import Scriptlet.Yaml.Fault
import Scriptlet.Yaml.Mark

/-!
# The text of a document

A document is stored as UTF-8, possibly behind a byte order mark, and holds no
control characters but tabs and those that end lines. All of the latter count as
one, except that the line separator and the paragraph separator stay what they
are.
-/

namespace Scriptlet

namespace Yaml

/-- Whether a character can stand in a document. -/
def isAllowed (char : Char) : Bool :=
  let code := char.toNat
  code = 0x09 || code = 0x0a || code = 0x0d || decide (0x20 ≤ code ∧ code ≤ 0x7e) ||
    code = 0x85 || decide (0xa0 ≤ code ∧ code ≤ 0xfffd) || decide (0x10000 ≤ code)

/-- The length of the sequence that a byte starts, if it can start one. -/
def sequenceLength? (byte : UInt8) : Option Nat :=
  if byte < 0x80 then
    some 1
  else if byte < 0xc0 then
    none
  else if byte < 0xe0 then
    some 2
  else if byte < 0xf0 then
    some 3
  else if byte < 0xf8 then
    some 4
  else
    none

/-- The number that the bytes of a sequence of some length denote. -/
def sequenceCode (length : Nat) : Bytes → Nat
  | [] => 0
  | lead :: trail =>
    trail.foldl (fun code byte => 64 * code + byte.toNat % 64) (lead.toNat % Nat.pow 2 (7 - length))

/-- Why bytes do not start with a well-formed sequence. -/
def sequenceProblem : Bytes → EncodingProblem
  | [] => .cutOff
  | byte :: rest =>
    match sequenceLength? byte with
    | none => .badLead
    | some length =>
      let trail := rest.take (length - 1)
      if trail.length < length - 1 then
        .cutOff
      else if trail.any fun byte => byte < 0x80 || 0xbf < byte then
        .badTrail
      else
        let code := sequenceCode length (byte :: trail)
        if code < 0x80 ∨ length = 3 ∧ code < 0x800 ∨ length = 4 ∧ code < 0x10000 then
          .badLength
        else
          .badCharacter

/-- Reads the characters behind the next `skip` bytes, which belong to a character
that has been read already. -/
def readCharsAfter : Nat → Bytes → Except Fault (List Char)
  | _, [] => .ok []
  | skip + 1, _ :: rest => readCharsAfter skip rest
  | 0, byte :: rest =>
    match Glyph.front? (byte :: rest) with
    | none => .error (.encoding (sequenceProblem (byte :: rest)))
    | some char =>
      if isAllowed char then
        (readCharsAfter (char.utf8Size - 1) rest).map (char :: ·)
      else
        .error (.encoding .controlCharacter)

/-- A text in which line feeds end the lines that other control characters ended.
A line feed behind a carriage return ends no line of its own. -/
def unifyBreaks (returned : Bool) : List Char → List Char
  | [] => []
  | char :: rest =>
    if char = '\n' then
      if returned then unifyBreaks false rest else '\n' :: unifyBreaks false rest
    else if char = '\r' then
      '\n' :: unifyBreaks true rest
    else if char = '\u0085' then
      '\n' :: unifyBreaks false rest
    else
      char :: unifyBreaks false rest

/-- A text without a byte order mark in front. -/
def dropOrderMark : List Char → List Char
  | [] => []
  | char :: rest => if char = byteOrderMark then rest else char :: rest

/-- The text of a document. -/
def readText (bytes : Bytes) : Except Fault (List Char) :=
  (readCharsAfter 0 bytes).map fun chars => unifyBreaks false (dropOrderMark chars)

end Yaml

end Scriptlet
