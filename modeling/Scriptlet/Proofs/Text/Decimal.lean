import Mathlib.Data.List.Induction
import Scriptlet.Text.Decimal

/-! # Decimal numerals and the integers they denote

The spellings of integers are given as a relation: one or more digits, behind at
most one sign. Reading accepts exactly these spellings as far as the number fits
in 64 bits (`Decimal.readInt64?_eq_some_iff`), and what is written for an integer
is one of them (`Decimal.literal_chars`).
-/

namespace Scriptlet

namespace Decimal

/-- The digits of a decimal numeral, the most significant first, and the number
that they denote. -/
inductive Numeral : List Char → Nat → Prop
  | digit {digit : Char} (decimal : digit.isDigit) :
      Numeral [digit] (digit.toNat - '0'.toNat)
  | more {digits : List Char} {number : Nat} {digit : Char}
      (front : Numeral digits number) (decimal : digit.isDigit) :
      Numeral (digits ++ [digit]) (10 * number + (digit.toNat - '0'.toNat))

/-- A decimal integer: a numeral behind at most one sign. -/
inductive Literal : List Char → Int → Prop
  | unsigned {digits : List Char} {number : Nat} (numeral : Numeral digits number) :
      Literal digits number
  | plus {digits : List Char} {number : Nat} (numeral : Numeral digits number) :
      Literal ('+' :: digits) number
  | minus {digits : List Char} {number : Nat} (numeral : Numeral digits number) :
      Literal ('-' :: digits) (-number)

/-- One more digit makes ten times as much, and the digit. -/
theorem natOfDigits_append_singleton (digits : List Char) (digit : Char) :
    natOfDigits (digits ++ [digit]) =
      10 * natOfDigits digits + (digit.toNat - '0'.toNat) := by
  simp only [natOfDigits, List.foldl_append, List.foldl_cons, List.foldl_nil]

/-- A numeral is a nonempty list of digits, and denotes what is computed from
it. -/
theorem numeral_iff {digits : List Char} {number : Nat} :
    Numeral digits number ↔
      digits ≠ [] ∧ (∀ digit ∈ digits, digit.isDigit) ∧ natOfDigits digits = number := by
  constructor
  · intro numeral
    induction numeral with
    | digit decimal =>
        refine ⟨List.cons_ne_nil _ _, ?_, by simp [natOfDigits]⟩
        intro other member
        rwa [List.mem_singleton.mp member]
    | more front decimal ih =>
        obtain ⟨_, decimals, value⟩ := ih
        refine ⟨by simp, ?_, by rw [natOfDigits_append_singleton, value]⟩
        intro other member
        rcases List.mem_append.mp member with before | last
        · exact decimals other before
        · rwa [List.mem_singleton.mp last]
  · rintro ⟨nonempty, decimals, rfl⟩
    -- The relation grows at the end of the list, so the induction follows the end.
    induction digits using List.reverseRecOn with
    | nil => exact absurd rfl nonempty
    | append_singleton front last ih =>
        have decimal : last.isDigit := decimals last (by simp)
        rw [natOfDigits_append_singleton]
        cases front with
        | nil => simpa [natOfDigits] using Numeral.digit decimal
        | cons first others =>
            refine Numeral.more (ih (List.cons_ne_nil _ _) ?_) decimal
            intro digit member
            exact decimals digit (List.mem_append_left _ member)

/-- A number is read from the digits that write it, and from nothing else. -/
theorem readNat?_eq_some_iff {digits : List Char} {number : Nat} :
    readNat? digits = some number ↔ Numeral digits number := by
  rw [numeral_iff, readNat?]
  by_cases decimal : digits ≠ [] ∧ digits.all Char.isDigit
  · rw [if_pos decimal, Option.some.injEq]
    simp only [List.all_eq_true] at decimal
    exact ⟨fun value => ⟨decimal.1, decimal.2, value⟩, fun numeral => numeral.2.2⟩
  · rw [if_neg decimal]
    simp only [List.all_eq_true] at decimal
    constructor
    · intro read
      exact nomatch read
    · rintro ⟨nonempty, decimals, _⟩
      exact absurd ⟨nonempty, decimals⟩ decimal

/-- A number without a sign starts with a digit. -/
theorem Numeral.isDigit_head {first : Char} {others : List Char} {number : Nat}
    (numeral : Numeral (first :: others) number) : first.isDigit :=
  (numeral_iff.mp numeral).2.1 first List.mem_cons_self

/-- A number is read from a literal for it, and from nothing else. -/
theorem readInt?_eq_some_iff {chars : List Char} {number : Int} :
    readInt? chars = some number ↔ Literal chars number := by
  constructor
  · intro read
    unfold readInt? at read
    split at read <;> obtain ⟨value, digits, rfl⟩ := Option.map_eq_some_iff.mp read
    · exact .plus (readNat?_eq_some_iff.mp digits)
    · exact .minus (readNat?_eq_some_iff.mp digits)
    · exact .unsigned (readNat?_eq_some_iff.mp digits)
  · intro literal
    cases literal with
    | plus numeral => simp [readInt?, readNat?_eq_some_iff.mpr numeral]
    | minus numeral => simp [readInt?, readNat?_eq_some_iff.mpr numeral]
    | unsigned numeral =>
        unfold readInt?
        split
        · exact absurd numeral.isDigit_head (by decide)
        · exact absurd numeral.isDigit_head (by decide)
        · rw [readNat?_eq_some_iff.mpr numeral]
          rfl

/-- Reading a 64-bit value accepts exactly the decimal integers in its range. -/
theorem readInt64?_eq_some_iff {chars : List Char} {value : Int64} :
    readInt64? chars = some value ↔ Literal chars value.toInt := by
  rw [← readInt?_eq_some_iff, readInt64?]
  constructor
  · intro read
    obtain ⟨number, spelled, fitting⟩ := Option.bind_eq_some_iff.mp read
    by_cases inside : fits number
    · rw [if_pos inside, Option.some.injEq] at fitting
      obtain ⟨low, high⟩ := of_decide_eq_true inside
      rw [Int64.toInt_minValue] at low
      rw [Int64.toInt_maxValue] at high
      rw [spelled, ← fitting, Int64.toInt_ofInt_of_le low (by omega)]
    · rw [if_neg inside] at fitting
      exact nomatch fitting
  · intro spelled
    have inside : fits value.toInt := decide_eq_true ⟨value.minValue_le_toInt, value.toInt_le⟩
    rw [spelled, Option.bind_some, if_pos inside, Int64.ofInt_toInt]

/-- The digits of a number write it. -/
theorem numeral_digits (number : Nat) : Numeral (digits number) number := by
  refine numeral_iff.mpr ⟨Nat.toDigits_ne_nil, ?_, Nat.ofDigitChars_ten_toDigits⟩
  intro digit member
  exact Nat.isDigit_of_mem_toDigits (by decide) (by decide) member

/-- The written form of an integer is a spelling of it. -/
theorem literal_chars (number : Int) : Literal (chars number) number := by
  cases number with
  | ofNat number => exact .unsigned (numeral_digits number)
  | negSucc number => exact .minus (numeral_digits (number + 1))

/-- A literal of digits alone is not negative. -/
theorem Literal.nonneg_of_isDigit {chars : List Char} {number : Int}
    (literal : Literal chars number) (unsigned : ∀ char ∈ chars, char.isDigit) :
    0 ≤ number := by
  cases literal with
  | unsigned numeral => exact Int.natCast_nonneg _
  | plus numeral => exact Int.natCast_nonneg _
  | minus numeral => exact absurd (unsigned '-' List.mem_cons_self) (by decide)

/-- A literal of digits alone is a numeral. -/
theorem Literal.exists_numeral {chars : List Char} {number : Int}
    (literal : Literal chars number) (unsigned : ∀ char ∈ chars, char.isDigit) :
    ∃ count : Nat, Numeral chars count ∧ number = count := by
  cases literal with
  | unsigned numeral => exact ⟨_, numeral, rfl⟩
  | plus numeral => exact absurd (unsigned '+' List.mem_cons_self) (by decide)
  | minus numeral => exact absurd (unsigned '-' List.mem_cons_self) (by decide)

/-- A number that is not negative is written with digits, at least one. -/
theorem chars_eq_cons {number : Int} (nonneg : 0 ≤ number) :
    ∃ first others, chars number = first :: others ∧ first.isDigit ∧
      ∀ char ∈ others, char.isDigit := by
  obtain ⟨natural, rfl⟩ := Int.eq_ofNat_of_zero_le nonneg
  obtain ⟨nonempty, decimal, _⟩ := numeral_iff.mp (numeral_digits natural)
  obtain ⟨first, others, written⟩ := List.exists_cons_of_ne_nil nonempty
  rw [written, List.forall_mem_cons] at decimal
  exact ⟨first, others, written, decimal⟩

end Decimal

end Scriptlet
