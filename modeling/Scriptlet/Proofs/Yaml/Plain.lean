import Scriptlet.Proofs.Text.Encoding
import Scriptlet.Yaml.Source
import Scriptlet.Yaml.Style

/-! # Texts of plain characters

Written scalars consist of characters that stand for themselves in a document. Such a text
is read back as it is: nothing in it is refused, no character of it ends a line but those
that are kept, and no byte order mark is dropped (`readText_of_plain`).
-/

namespace Scriptlet

namespace Yaml

namespace Style

private theorem isAllowed_of_isPlain {char : Char} (plain : isPlain char) : isAllowed char := by
  simp only [isPlain, Bool.or_eq_true, Bool.and_eq_true, decide_eq_true_eq] at plain
  simp only [isAllowed, Bool.or_eq_true, decide_eq_true_eq]
  omega

/-- A plain character is none that is not plain. -/
theorem ne_of_isPlain {char other : Char} (plain : isPlain char) (special : isPlain other = false) :
    char ≠ other := by
  rintro rfl
  rw [special] at plain
  cases plain

end Style

open Style

/-! ## Plain texts -/

/-- Whether all characters of a text stand for themselves. -/
def PlainText (text : List Char) : Prop :=
  ∀ char ∈ text, isPlain char

namespace PlainText

theorem nil : PlainText [] :=
  List.forall_mem_nil _

theorem cons {char : Char} {text : List Char} (first : isPlain char) (others : PlainText text) :
    PlainText (char :: text) :=
  List.forall_mem_cons.mpr ⟨first, others⟩

theorem append {text other : List Char} (front : PlainText text) (back : PlainText other) :
    PlainText (text ++ other) :=
  List.forall_mem_append.mpr ⟨front, back⟩

theorem head {char : Char} {text : List Char} (plain : PlainText (char :: text)) : isPlain char :=
  (List.forall_mem_cons.mp plain).1

theorem tail {char : Char} {text : List Char} (plain : PlainText (char :: text)) :
    PlainText text :=
  (List.forall_mem_cons.mp plain).2

/-- A margin is plain. -/
theorem margin : PlainText margin :=
  List.forall_mem_replicate.mpr (.inr (by decide))

/-- A line break at which a line is continued, with the margin of the next. -/
theorem fold {text : List Char} (back : PlainText text) :
    PlainText ('\n' :: Style.margin ++ text) :=
  .append (.cons (by decide) .margin) back

theorem blank {text : List Char} (back : PlainText text) : PlainText (' ' :: text) :=
  .cons (by decide) back

/-- The margin of a line, where there is one. -/
theorem front (broken : Bool) : PlainText (if broken then Style.margin else []) := by
  cases broken with
  | false => exact .nil
  | true => exact .margin

variable {chars : List Char}

/-- A plain text is plain when it is written bare. -/
theorem bare (plain : PlainText chars) (column : Nat) (blankBefore : Bool) :
    PlainText (Style.bare column blankBefore chars) := by
  fun_induction Style.bare column blankBefore chars with
  | case1 => exact .nil
  | case2 _ _ _ _ ih => exact .fold (ih plain.tail)
  | case3 _ _ _ _ ih => exact .blank (ih plain.tail)
  | case4 _ _ _ _ _ ih => exact .cons plain.head (ih plain.tail)

/-- A plain text is plain between single quotes. -/
theorem single (plain : PlainText chars) (column : Nat) (blankBefore broken : Bool) :
    PlainText (Style.single column blankBefore broken chars) := by
  fun_induction Style.single column blankBefore broken chars with
  | case1 => exact .nil
  | case2 _ _ _ _ _ ih => exact .fold (ih plain.tail)
  | case3 _ _ _ _ _ ih => exact .blank (ih plain.tail)
  | case4 _ _ _ _ _ _ _ ih => exact .cons plain.head (ih plain.tail)
  | case5 _ _ broken _ _ _ _ _ ih =>
      exact .append (.append (.front broken) (.cons plain.head (.cons plain.head .nil)))
        (ih plain.tail)
  | case6 _ _ broken _ _ _ _ _ _ _ ih =>
      exact .append (.front broken) (.cons plain.head (ih plain.tail))

/-- The lines of a plain text are plain. -/
theorem blockLines (plain : PlainText chars) (broken : Bool) :
    PlainText (Style.blockLines broken chars) := by
  fun_induction Style.blockLines broken chars with
  | case1 => exact .nil
  | case2 _ _ _ _ ih => exact .cons plain.head (ih plain.tail)
  | case3 broken _ _ _ ih => exact .append (.front broken) (.cons plain.head (ih plain.tail))

end PlainText

/-! ## Reading them -/

private theorem readCharsAfter_length_append (skipped rest : Bytes) :
    readCharsAfter skipped.length (skipped ++ rest) = readCharsAfter 0 rest := by
  induction skipped with
  | nil => rfl
  | cons byte skipped ih => exact ih

/-- An allowed character in front of a text is read by itself. -/
theorem readCharsAfter_encode_append {char : Char} (allowed : isAllowed char) (rest : Bytes) :
    readCharsAfter 0 (String.utf8EncodeChar char ++ rest) =
      (readCharsAfter 0 rest).map (char :: ·) := by
  have front := Glyph.front?_encode_append char rest
  have size : (String.utf8EncodeChar char).length = char.utf8Size :=
    String.length_utf8EncodeChar char
  cases bytes : String.utf8EncodeChar char with
  | nil =>
      have positive := char.utf8Size_pos
      rw [← size, bytes] at positive
      exact absurd positive (Nat.lt_irrefl 0)
  | cons byte others =>
      rw [bytes] at front size
      have behind : char.utf8Size - 1 = others.length := by
        rw [← size, List.length_cons, Nat.add_sub_cancel]
      rw [List.cons_append, readCharsAfter, ← List.cons_append, front]
      simp only [allowed, if_true, behind, readCharsAfter_length_append]

private theorem readCharsAfter_ofChars {text : List Char} (allowed : ∀ char ∈ text, isAllowed char) :
    readCharsAfter 0 (Bytes.ofChars text) = .ok text := by
  induction text with
  | nil => rfl
  | cons char text ih =>
      obtain ⟨first, others⟩ := List.forall_mem_cons.mp allowed
      rw [Bytes.ofChars_cons, readCharsAfter_encode_append first, ih others]
      rfl

private theorem unifyBreaks_eq_self {text : List Char} (plain : PlainText text) :
    unifyBreaks false text = text := by
  induction text with
  | nil => rfl
  | cons char text ih =>
      have noReturn : char ≠ '\r' := ne_of_isPlain plain.head (by decide)
      have noNextLine : char ≠ '\u0085' := ne_of_isPlain plain.head (by decide)
      rw [unifyBreaks, ih plain.tail]
      by_cases feed : char = '\n' <;> simp [feed, noReturn, noNextLine]

private theorem dropOrderMark_eq_self {text : List Char} (plain : PlainText text) :
    dropOrderMark text = text := by
  cases text with
  | nil => rfl
  | cons char text =>
      rw [dropOrderMark, if_neg (ne_of_isPlain plain.head (by decide))]

/-- **Plain texts are read as they are.** -/
theorem readText_of_plain {text : List Char} (plain : PlainText text) :
    readText (Bytes.ofChars text) = .ok text := by
  have allowed : ∀ char ∈ text, isAllowed char :=
    fun char member => isAllowed_of_isPlain (plain char member)
  rw [readText, readCharsAfter_ofChars allowed, Except.map, dropOrderMark_eq_self plain,
    unifyBreaks_eq_self plain]

end Yaml

end Scriptlet
