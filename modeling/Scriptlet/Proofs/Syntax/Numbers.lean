import Mathlib.Data.Nat.Digits.Defs
import Scriptlet.Proofs.Syntax.Completeness
import Scriptlet.Proofs.Text.Encoding
import Scriptlet.Run.Value
import Scriptlet.Syntax.Printer

/-! # The texts of numbers

A number literal is spelled with ASCII digits behind at most one sign, and denotes what its
digits denote by their places (`Decimal.Denotes`). The rule for factors reads exactly these
spellings as far as the number fits in 64 bits. What is printed and formatted for a number
is the shortest of its spellings, and there is no other one of that length
(`Decimal.Literal.eq_or_longer`).
-/

namespace Scriptlet

namespace Decimal

/-! ## Spellings in bytes -/

/-- Bytes that are ASCII digits, at least one. -/
structure IsDigits (bytes : Bytes) : Prop where
  nonempty : bytes ≠ []
  decimal : ∀ byte ∈ bytes, 0x30 ≤ byte ∧ byte ≤ 0x39

/-- The number that digits denote by their places. -/
def placeValue (bytes : Bytes) : Nat :=
  Nat.ofDigits 10 (bytes.reverse.map fun byte => byte.toNat - 0x30)

/-- The number that bytes denote: digits, behind a plus or a minus sign or none. -/
inductive Denotes : Bytes → Int → Prop
  | unsigned {digits : Bytes} (decimal : IsDigits digits) : Denotes digits (placeValue digits)
  | plus {digits : Bytes} (decimal : IsDigits digits) :
      Denotes (0x2b :: digits) (placeValue digits)
  | minus {digits : Bytes} (decimal : IsDigits digits) :
      Denotes (0x2d :: digits) (-placeValue digits)

private theorem placeValue_append_singleton (bytes : Bytes) (byte : UInt8) :
    placeValue (bytes ++ [byte]) = 10 * placeValue bytes + (byte.toNat - 0x30) := by
  simp only [placeValue, List.reverse_append, List.reverse_cons, List.reverse_nil,
    List.nil_append, List.cons_append, List.map_cons, Nat.ofDigits_cons]
  exact Nat.add_comm _ _

/-- A digit is encoded by one byte. -/
theorem encode_of_isDigit {char : Char} (digit : char.isDigit) :
    String.utf8EncodeChar char = [char.val.toUInt8] := by
  obtain ⟨_, high⟩ := Char.isDigit_iff_toNat.mp digit
  exact String.utf8EncodeChar_eq_singleton (Char.utf8Size_eq_one_iff.mpr (by
    rw [UInt32.le_iff_toNat_le]
    exact high.trans (by decide)))

private theorem ofChars_of_isDigit {chars : List Char} (digits : ∀ char ∈ chars, char.isDigit) :
    Bytes.ofChars chars = chars.map (·.val.toUInt8) := by
  induction chars with
  | nil => rfl
  | cons char rest ih =>
      obtain ⟨first, others⟩ := List.forall_mem_cons.mp digits
      rw [Bytes.ofChars_cons, encode_of_isDigit first, ih others]
      rfl

/-- The byte of a digit is its number. -/
theorem toNat_toUInt8_of_isDigit {char : Char} (digit : char.isDigit) :
    char.val.toUInt8.toNat = char.toNat := by
  obtain ⟨_, high⟩ := Char.isDigit_iff_toNat.mp digit
  rw [UInt32.toNat_toUInt8]
  exact Nat.mod_eq_of_lt (Nat.lt_of_le_of_lt high (by decide))

/-- A numeral is encoded in digits, one for each character, with the same value. -/
theorem Numeral.encoded {chars : List Char} {number : Nat} (numeral : Numeral chars number) :
    IsDigits (Bytes.ofChars chars) ∧ placeValue (Bytes.ofChars chars) = number ∧
      (Bytes.ofChars chars).length = chars.length := by
  obtain ⟨nonempty, digits, rfl⟩ := numeral_iff.mp numeral
  have bytes := ofChars_of_isDigit digits
  refine ⟨⟨?_, ?_⟩, ?_, ?_⟩
  · rw [bytes]
    exact mt List.map_eq_nil_iff.mp nonempty
  · rw [bytes, List.forall_mem_map]
    intro char member
    obtain ⟨low, high⟩ := Char.isDigit_iff_toNat.mp (digits char member)
    rw [UInt8.le_iff_toNat_le, UInt8.le_iff_toNat_le, toNat_toUInt8_of_isDigit (digits char member)]
    exact ⟨low, high⟩
  · rw [bytes]
    clear nonempty numeral bytes
    induction chars using List.reverseRecOn with
    | nil => rfl
    | append_singleton front last ih =>
        have final : last.isDigit := digits last (by simp)
        rw [List.map_append, List.map_singleton, placeValue_append_singleton,
          natOfDigits_append_singleton, toNat_toUInt8_of_isDigit final,
          ih fun char member => digits char (List.mem_append_left _ member)]
        rfl
  · rw [bytes, List.length_map]

private theorem exists_char_of_digit {byte : UInt8} (low : 0x30 ≤ byte) (high : byte ≤ 0x39) :
    ∃ char : Char, char.isDigit ∧ char.val.toUInt8 = byte := by
  have code : (Char.ofUInt8 byte).toNat = byte.toNat := UInt8.toNat_toUInt32 byte
  have digit : (Char.ofUInt8 byte).isDigit := by
    rw [Char.isDigit_iff_toNat, code]
    exact ⟨low, high⟩
  exact ⟨Char.ofUInt8 byte, digit, UInt8.toNat_inj.mp ((toNat_toUInt8_of_isDigit digit).trans code)⟩

/-- Digits are the encoding of a numeral. -/
theorem IsDigits.exists_numeral {bytes : Bytes} (decimal : IsDigits bytes) :
    ∃ chars, Bytes.ofChars chars = bytes ∧ Numeral chars (placeValue bytes) := by
  have spelled (bytes : Bytes) (digits : ∀ byte ∈ bytes, 0x30 ≤ byte ∧ byte ≤ 0x39) :
      ∃ chars : List Char, (∀ char ∈ chars, char.isDigit) ∧ Bytes.ofChars chars = bytes := by
    induction bytes with
    | nil => exact ⟨[], fun char => nofun, rfl⟩
    | cons byte rest ih =>
        obtain ⟨⟨low, high⟩, others⟩ := List.forall_mem_cons.mp digits
        obtain ⟨char, digit, rfl⟩ := exists_char_of_digit low high
        obtain ⟨chars, more, rfl⟩ := ih others
        refine ⟨char :: chars, List.forall_mem_cons.mpr ⟨digit, more⟩, ?_⟩
        rw [Bytes.ofChars_cons, encode_of_isDigit digit]
        rfl
  obtain ⟨chars, digits, rfl⟩ := spelled bytes decimal.decimal
  have nonempty : chars ≠ [] := by
    rintro rfl
    exact decimal.nonempty rfl
  have numeral := numeral_iff.mpr ⟨nonempty, digits, rfl⟩
  rw [numeral.encoded.2.1]
  exact ⟨chars, rfl, numeral⟩

/-- The bytes of a literal denote its number, one for each character. -/
theorem Literal.encoded {chars : List Char} {number : Int} (literal : Literal chars number) :
    Denotes (Bytes.ofChars chars) number ∧ (Bytes.ofChars chars).length = chars.length := by
  cases literal with
  | unsigned numeral =>
      obtain ⟨decimal, value, size⟩ := numeral.encoded
      exact ⟨value ▸ .unsigned decimal, size⟩
  | plus numeral =>
      obtain ⟨decimal, value, size⟩ := numeral.encoded
      exact ⟨value ▸ .plus decimal, congrArg (· + 1) size⟩
  | minus numeral =>
      obtain ⟨decimal, value, size⟩ := numeral.encoded
      exact ⟨value ▸ .minus decimal, congrArg (· + 1) size⟩

/-- Bytes that denote a number encode a literal for it. -/
theorem Denotes.exists_literal {bytes : Bytes} {number : Int} (denoted : Denotes bytes number) :
    ∃ chars, Bytes.ofChars chars = bytes ∧ Literal chars number := by
  cases denoted with
  | unsigned decimal =>
      obtain ⟨chars, rfl, numeral⟩ := decimal.exists_numeral
      exact ⟨chars, rfl, .unsigned numeral⟩
  | plus decimal =>
      obtain ⟨chars, rfl, numeral⟩ := decimal.exists_numeral
      exact ⟨'+' :: chars, rfl, .plus numeral⟩
  | minus decimal =>
      obtain ⟨chars, rfl, numeral⟩ := decimal.exists_numeral
      exact ⟨'-' :: chars, rfl, .minus numeral⟩

/-- What the bytes of a lexeme denote is what its characters spell. -/
theorem denotes_ofString_iff {lexeme : String} {number : Int} :
    Denotes (Bytes.ofString lexeme) number ↔ Literal lexeme.toList number := by
  constructor
  · intro denoted
    obtain ⟨chars, same, literal⟩ := denoted.exists_literal
    have equal : Bytes.ofString (String.ofList chars) = Bytes.ofString lexeme := by
      rw [Bytes.ofString, String.toList_ofList]
      exact same
    rwa [← Bytes.ofString_injective equal, String.toList_ofList]
  · intro literal
    exact literal.encoded.1

/-! ## The shortest spelling -/

/-- A digit is written as itself. -/
theorem digits_of_isDigit {digit : Char} (decimal : digit.isDigit) :
    digits (digit.toNat - '0'.toNat) = [digit] := by
  obtain ⟨low, high⟩ := Char.isDigit_iff_toNat.mp decimal
  have zero : '0'.toNat = 48 := rfl
  have nine : '9'.toNat = 57 := rfl
  rw [digits, Nat.toDigits_of_lt_base (by omega), List.cons.injEq]
  refine ⟨Char.toNat_inj.mp ?_, rfl⟩
  rw [Nat.toNat_digitChar_of_lt_ten (by omega)]
  omega

/-- A numeral of more than zero that does not start with a zero is what is written. -/
theorem Numeral.eq_digits {chars : List Char} {number : Nat} (numeral : Numeral chars number)
    (lead : chars.head? ≠ some '0') : 0 < number ∧ digits number = chars := by
  induction numeral with
  | @digit digit decimal =>
      obtain ⟨low, high⟩ := Char.isDigit_iff_toNat.mp decimal
      have other : digit ≠ '0' := fun same => lead (same ▸ rfl)
      have zero : '0'.toNat = 48 := rfl
      have positive : digit.toNat ≠ 48 := fun same => other (Char.toNat_inj.mp same)
      exact ⟨by omega, digits_of_isDigit decimal⟩
  | @more front number digit numeral decimal ih =>
      obtain ⟨nonempty, _⟩ := numeral_iff.mp numeral
      have lead : front.head? ≠ some '0' := by
        obtain ⟨first, others, rfl⟩ := List.exists_cons_of_ne_nil nonempty
        exact lead
      obtain ⟨positive, same⟩ := ih lead
      obtain ⟨low, high⟩ := Char.isDigit_iff_toNat.mp decimal
      have zero : '0'.toNat = 48 := rfl
      have nine : '9'.toNat = 57 := rfl
      refine ⟨by omega, ?_⟩
      have joined := Nat.toDigits_append_toDigits (b := 10) (n := number)
        (d := digit.toNat - '0'.toNat) (by decide) positive (by omega)
      rw [digits, ← joined]
      change digits number ++ digits (digit.toNat - '0'.toNat) = front ++ [digit]
      rw [same, digits_of_isDigit decimal]

/-- A numeral is what is written for its number, or it is longer. A zero in front of other
digits can be left out. -/
theorem Numeral.eq_or_longer {chars : List Char} {number : Nat}
    (numeral : Numeral chars number) :
    digits number = chars ∨ (digits number).length < chars.length := by
  induction chars with
  | nil => exact absurd rfl (numeral_iff.mp numeral).1
  | cons first rest ih =>
      by_cases lead : first = '0'
      · subst lead
        cases rest with
        | nil =>
            obtain ⟨_, _, rfl⟩ := numeral_iff.mp numeral
            exact .inl rfl
        | cons next others =>
            obtain ⟨_, decimals, rfl⟩ := numeral_iff.mp numeral
            have tail : Numeral (next :: others) (natOfDigits ('0' :: next :: others)) :=
              numeral_iff.mpr ⟨List.cons_ne_nil _ _,
                fun digit member => decimals digit (List.mem_cons_of_mem _ member), rfl⟩
            rcases ih tail with same | longer
            · rw [same]
              exact .inr (Nat.lt_add_one _)
            · exact .inr (longer.trans (Nat.lt_add_one _))
      · exact .inl (numeral.eq_digits fun same => lead (Option.some.inj same)).2

/-- A spelling of an integer is what is written for it, or it is longer. -/
theorem Literal.eq_or_longer {text : List Char} {number : Int} (literal : Literal text number) :
    chars number = text ∨ (chars number).length < text.length := by
  cases literal with
  | unsigned numeral => exact numeral.eq_or_longer
  | @plus digits natural numeral =>
      refine .inr ?_
      change (Decimal.digits natural).length < digits.length + 1
      rcases numeral.eq_or_longer with same | longer
      · rw [same]
        exact Nat.lt_add_one _
      · omega
  | @minus digits natural numeral =>
      cases natural with
      | zero =>
          refine .inr ?_
          change (Decimal.digits 0).length < digits.length + 1
          rcases numeral.eq_or_longer with same | longer
          · rw [same]
            exact Nat.lt_add_one _
          · omega
      | succ natural =>
          change '-' :: Decimal.digits (natural + 1) = _ ∨ (Decimal.digits (natural + 1)).length + 1 < _
          rcases numeral.eq_or_longer with same | longer
          · exact .inl (congrArg ('-' :: ·) same)
          · exact .inr (Nat.succ_lt_succ longer)

/-- Bytes that denote a number are its usual text, or longer. -/
theorem Denotes.eq_or_longer {bytes : Bytes} {number : Int} (denoted : Denotes bytes number) :
    Bytes.ofChars (chars number) = bytes ∨
      (Bytes.ofChars (chars number)).length < bytes.length := by
  obtain ⟨text, rfl, literal⟩ := denoted.exists_literal
  rw [(literal_chars number).encoded.2, literal.encoded.2]
  exact literal.eq_or_longer.imp_left fun same => congrArg Bytes.ofChars same

/-- A plus sign can be dropped. -/
theorem Denotes.drop_plus {bytes : Bytes} {number : Int} (denoted : Denotes (0x2b :: bytes) number) :
    Denotes bytes number := by
  cases denoted with
  | unsigned decimal => exact absurd (decimal.decimal 0x2b List.mem_cons_self).1 (by decide)
  | plus decimal => exact .unsigned decimal

/-- A leading zero can be dropped. -/
theorem IsDigits.drop_zero {byte : UInt8} {bytes : Bytes}
    (decimal : IsDigits (0x30 :: byte :: bytes)) :
    IsDigits (byte :: bytes) ∧ placeValue (0x30 :: byte :: bytes) = placeValue (byte :: bytes) := by
  refine ⟨⟨List.cons_ne_nil _ _, fun other member =>
    decimal.decimal other (List.mem_cons_of_mem _ member)⟩, ?_⟩
  rw [placeValue, placeValue, List.reverse_cons, List.map_append, Nat.ofDigits_append]
  simp

/-- The range of 64-bit integers. -/
def InRange (number : Int) : Prop :=
  -9223372036854775808 ≤ number ∧ number ≤ 9223372036854775807

/-- A number of 64 bits is in its range. -/
theorem inRange_toInt (value : Int64) : InRange value.toInt :=
  ⟨value.minValue_le_toInt, value.toInt_le⟩

/-- A number in the range of 64 bits is one of 64 bits. -/
theorem InRange.exists_toInt {number : Int} (inside : InRange number) :
    ∃ value : Int64, value.toInt = number :=
  ⟨.ofInt number, Int64.toInt_ofInt_of_le inside.1 (Int.lt_add_one_of_le inside.2)⟩

end Decimal

namespace Grammar

open Decimal

variable {lexeme : String} {span : Span} {inner : Rule Expr} {ahead : List Token} {last : Token}
  {value : Int64}

/-- What the rule for factors makes of a number with some lexeme in front of other tokens. -/
abbrev readNumber (lexeme : String) (span : Span) (inner : Rule Expr) (ahead : List Token)
    (last : Token) : Except ParseFailure Expr × TokenStream :=
  factor inner ⟨⟨.integer, lexeme, span⟩ :: ahead, last⟩

private theorem readNumber_of_some (read : readInt64? lexeme.toList = some value) :
    readNumber lexeme span inner ahead last = (.ok (.number value span), ⟨ahead, last⟩) := by
  change number ⟨.integer, lexeme, span⟩ ⟨ahead, last⟩ = _
  simp only [number, read, Rule.pure_apply]

/-- A literal that is out of range is rejected. -/
theorem readNumber_of_none (unread : readInt64? lexeme.toList = none) :
    readNumber lexeme span inner ahead last =
      (.error (.rejected ⟨[], ⟨.integer, lexeme, span⟩, "expression",
        "integer literal out of range"⟩), ⟨ahead, last⟩) := by
  change number ⟨.integer, lexeme, span⟩ ⟨ahead, last⟩ = _
  simp only [number, unread, Rule.fail_apply]

/-- A number is read exactly from the lexemes that denote it. -/
theorem readNumber_eq_ok_iff :
    readNumber lexeme span inner ahead last = (.ok (.number value span), ⟨ahead, last⟩) ↔
      Denotes (Bytes.ofString lexeme) value.toInt := by
  rw [denotes_ofString_iff, ← readInt64?_eq_some_iff]
  cases read : readInt64? lexeme.toList with
  | some found => simp [readNumber_of_some read]
  | none => simp [readNumber_of_none read]

private theorem readNumber_eq_error
    (outside : ∀ number, Denotes (Bytes.ofString lexeme) number → ¬ InRange number) :
    readNumber lexeme span inner ahead last =
      (.error (.rejected ⟨[], ⟨.integer, lexeme, span⟩, "expression",
        "integer literal out of range"⟩), ⟨ahead, last⟩) := by
  cases read : readInt64? lexeme.toList with
  | some found =>
      have denoted := denotes_ofString_iff.mpr (readInt64?_eq_some_iff.mp read)
      exact absurd (inRange_toInt found) (outside _ denoted)
  | none => exact readNumber_of_none read

/-- The text that stands for a value wherever it is written. -/
structure WrittenAs (value : Int64) (text : String) : Prop where
  formatted : ∀ span, (Expr.number value span).format = .ok (Bytes.ofString text)
  printed : (Value.integer value).display = Bytes.ofString text
  /-- As the lexeme of a number, the text is read as the value. -/
  read : ∀ span inner ahead last,
    readNumber text span inner ahead last = (.ok (.number value span), ⟨ahead, last⟩)
  /-- Every other lexeme that is read as the value is longer. -/
  shortest : ∀ lexeme span inner ahead last,
    readNumber lexeme span inner ahead last = (.ok (.number value span), ⟨ahead, last⟩) →
      lexeme = text ∨ (Bytes.ofString text).length < (Bytes.ofString lexeme).length
  /-- There is no plus sign in front. -/
  unsigned : ∀ rest, Bytes.ofString text ≠ 0x2b :: rest
  /-- There is no zero in front of the other digits, with or without a minus sign. -/
  plain : ∀ digit rest, Bytes.ofString text ≠ 0x30 :: digit :: rest ∧
    Bytes.ofString text ≠ 0x2d :: 0x30 :: digit :: rest

private theorem writtenAs_text (value : Int64) : WrittenAs value (Decimal.text value.toInt) := by
  have bytes : Bytes.ofString (Decimal.text value.toInt) =
      Bytes.ofChars (chars value.toInt) := by
    rw [Bytes.ofString, Decimal.text, String.toList_ofList]
  have denoted : Denotes (Bytes.ofString (Decimal.text value.toInt)) value.toInt := by
    rw [bytes]
    exact (literal_chars value.toInt).encoded.1
  -- Whatever could be left out would leave a shorter spelling of the same number.
  have least (other : Bytes) (also : Denotes other value.toInt) :
      ¬ other.length < (Bytes.ofString (Decimal.text value.toInt)).length := by
    rw [bytes]
    rcases also.eq_or_longer with same | longer
    · rw [same]
      exact Nat.lt_irrefl _
    · omega
  refine ⟨fun span => ?_, bytes.symm, fun _ _ _ _ => readNumber_eq_ok_iff.mpr denoted, ?_, ?_, ?_⟩
  · rw [bytes]
    rfl
  · intro lexeme span inner ahead last read
    rw [bytes]
    refine (readNumber_eq_ok_iff.mp read).eq_or_longer.imp_left fun same => ?_
    exact Bytes.ofString_injective (same.symm.trans bytes.symm)
  · intro rest plus
    rw [plus] at denoted
    exact least rest denoted.drop_plus (by simp [plus])
  · intro digit rest
    constructor
    · intro zero
      rw [zero] at denoted
      generalize number : value.toInt = number at denoted
      cases denoted with
      | unsigned decimal =>
          obtain ⟨fewer, same⟩ := decimal.drop_zero
          refine least (digit :: rest) ?_ (by simp [zero])
          rw [number, same]
          exact .unsigned fewer
    · intro zero
      rw [zero] at denoted
      generalize number : value.toInt = number at denoted
      cases denoted with
      | unsigned decimal => exact absurd (decimal.decimal 0x2d List.mem_cons_self).1 (by decide)
      | minus decimal =>
          obtain ⟨fewer, same⟩ := decimal.drop_zero
          refine least (0x2d :: digit :: rest) ?_ (by simp [zero])
          rw [number, same]
          exact .minus fewer

/-- **Numbers are read as they are written.** The lexeme of a number is read as an integer
exactly if its bytes denote the integer and 64 bits hold it; every other lexeme is refused
as out of range. Every value has one text, which is formatted and printed for it, is read
back as the value, and is shorter than all other lexemes that are. -/
theorem numbers_read_as_written (lexeme : String) (span : Span) (inner : Rule Expr)
    (ahead : List Token) (last : Token) :
    (∀ number : Int, (∃ value : Int64, value.toInt = number ∧
        readNumber lexeme span inner ahead last = (.ok (.number value span), ⟨ahead, last⟩)) ↔
      Denotes (Bytes.ofString lexeme) number ∧ InRange number) ∧
    ((∀ number, Denotes (Bytes.ofString lexeme) number → ¬ InRange number) →
      readNumber lexeme span inner ahead last =
        (.error (.rejected ⟨[], ⟨.integer, lexeme, span⟩, "expression",
          "integer literal out of range"⟩), ⟨ahead, last⟩)) ∧
    ∀ value : Int64, ∃ text, WrittenAs value text := by
  refine ⟨fun number => ⟨?_, ?_⟩, readNumber_eq_error, fun value => ⟨_, writtenAs_text value⟩⟩
  · rintro ⟨value, rfl, read⟩
    exact ⟨readNumber_eq_ok_iff.mp read, inRange_toInt value⟩
  · rintro ⟨denoted, inside⟩
    obtain ⟨value, rfl⟩ := inside.exists_toInt
    exact ⟨value, rfl, readNumber_eq_ok_iff.mpr denoted⟩

/-- The first number behind the range is refused, and a zero with signs and zeros in front
is read. -/
theorem numbers_read_as_written_limits :
    readNumber "9223372036854775808" {} (.fail .tooDeep) [] default =
      (.error (.rejected ⟨[], ⟨.integer, "9223372036854775808", {}⟩, "expression",
        "integer literal out of range"⟩), ⟨[], default⟩) ∧
    ∃ value : Int64, value.toInt = 0 ∧
      readNumber "-000" {} (.fail .tooDeep) [] default = (.ok (.number value {}), ⟨[], default⟩) := by
  have zero : Literal "-000".toList 0 := readInt?_eq_some_iff.mp (by decide)
  have huge : readInt? "9223372036854775808".toList = some 9223372036854775808 := by decide
  refine ⟨(numbers_read_as_written _ _ _ _ _).2.1 fun number denoted inside => ?_,
    ((numbers_read_as_written _ _ _ _ _).1 0).mpr
      ⟨denotes_ofString_iff.mpr zero, by decide, by decide⟩⟩
  have read := readInt?_eq_some_iff.mpr (denotes_ofString_iff.mp denoted)
  have same : 9223372036854775808 = number := Option.some.inj (huge.symm.trans read)
  exact absurd inside.2 (by omega)

end Grammar

end Scriptlet
