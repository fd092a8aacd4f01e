import Mathlib.Data.Int.ModEq
import Scriptlet.Proofs.Run.BigStep
import Scriptlet.Proofs.Syntax.Nodes

/-! # Arithmetic in 64 bits

Integers of any size have one number in the range of 64 bits that is congruent to them
(`Wraps`). Sums, differences and products respect congruence, so an expression without
divisions evaluates to what 64 bits hold of its value over all integers, however often
parts of it wrap around. Quotients do not respect congruence; each one is that of the
operands as they have been computed.
-/

namespace Scriptlet

/-- A number is what 64 bits hold of an integer: it is in their range and congruent to
the integer. -/
structure Wraps (exact number : Int) : Prop where
  lower : -9223372036854775808 ≤ number
  upper : number ≤ 9223372036854775807
  congruent : number ≡ exact [ZMOD 18446744073709551616]

/-- A number of 64 bits wraps the exact number that it is made from. -/
theorem wraps_ofInt (exact : Int) : Wraps exact (Int64.ofInt exact).toInt where
  lower := Int64.le_toInt _
  upper := Int.le_of_lt_add_one (Int64.toInt_lt _)
  congruent := by
    rw [Int64.toInt_ofInt]
    exact Int.bmod_emod

/-- A number of 64 bits wraps itself. -/
theorem wraps_toInt (number : Int64) : Wraps number.toInt number.toInt := by
  have wraps := wraps_ofInt number.toInt
  rwa [Int64.ofInt_toInt] at wraps

/-- Only one number in the range is congruent to an integer. -/
theorem Wraps.unique {exact first second : Int} (one : Wraps exact first)
    (other : Wraps exact second) : first = second := by
  obtain ⟨firstLower, firstUpper, congruent⟩ := one
  obtain ⟨secondLower, secondUpper, same⟩ := other
  have multiple := (congruent.trans same.symm).dvd
  omega

/-- What wraps a number wraps every number that is equal to it modulo 2 to the power of 64. -/
theorem Wraps.of_modEq {exact other number : Int} (wraps : Wraps exact number)
    (same : exact ≡ other [ZMOD 18446744073709551616]) : Wraps other number :=
  ⟨wraps.lower, wraps.upper, wraps.congruent.trans same⟩

/-- Operators other than division give congruent results on congruent integers. -/
theorem Operator.exact?_congr {operator : Operator} {exact : Int → Int → Int}
    (known : operator.exact? = some exact) (other : operator ≠ .div) {modulus a b x y : Int}
    (first : a ≡ x [ZMOD modulus]) (second : b ≡ y [ZMOD modulus]) :
    exact a b ≡ exact x y [ZMOD modulus] := by
  cases operator with
  | add =>
      cases known
      exact first.add second
  | sub =>
      cases known
      exact first.sub second
  | mul =>
      cases known
      exact first.mul second
  | div => exact absurd rfl other
  | unknown code => cases known

namespace Expr

variable {env : Environment}

/-- A node of an expression of integers: a number, a variable that holds an integer, or
an operator of the language. -/
def Integral (env : Environment) : Expr → Prop
  | .number _ _ => True
  | .string _ _ => False
  | .variableRef name _ => ∃ number, env.get? name = some (.integer number)
  | .binary _ operator _ _ => operator ∈ [Operator.add, .sub, .mul, .div]
  | .gap => False

/-- Numbers, variables that hold integers, and the four operators make up the whole
expression. -/
def Arithmetic (env : Environment) (expr : Expr) : Prop :=
  expr.Every (Integral env)

def DivisionFree (expr : Expr) : Prop :=
  ∀ left right span, .binary left .div right span ∉ expr.nodes

/-- The value of an expression over integers of any size. Where there is no integer, it
counts as zero. -/
def exactValue (env : Environment) : Expr → Int
  | .number value _ => value.toInt
  | .string _ _ => 0
  | .variableRef name _ =>
    match env.get? name with
    | some (.integer held) => held.toInt
    | _ => 0
  | .binary left operator right _ =>
    match operator.exact? with
    | some meaning => meaning (left.exactValue env) (right.exactValue env)
    | none => 0
  | .gap => 0

/-- Neither operand of an operation without divisions has one. -/
theorem DivisionFree.operands {left right : Expr} {operator : Operator} {span : Span}
    (free : (binary left operator right span).DivisionFree) :
    operator ≠ .div ∧ left.DivisionFree ∧ right.DivisionFree := by
  refine ⟨?_, ?_, ?_⟩
  · rintro rfl
    exact free left right span (mem_nodes_self _)
  · intro first second place member
    exact free first second place (List.mem_cons_of_mem _ (List.mem_append_left _ member))
  · intro first second place member
    exact free first second place (List.mem_cons_of_mem _ (List.mem_append_right _ member))

/-- Every operator of the language has an exact meaning. -/
theorem exists_exact?_of_known {operator : Operator}
    (known : operator ∈ [Operator.add, .sub, .mul, .div]) :
    ∃ meaning, operator.exact? = some meaning := by
  cases operator with
  | unknown code => simp at known
  | _ => exact ⟨_, rfl⟩

/-- What an operator of the language gives on operands that are integers: what 64 bits
hold of the exact result. -/
theorem eval_binary {left right : Expr} {operator : Operator} {a b : Int64}
    {meaning : Int → Int → Int} (first : left.eval env = .ok (.integer a))
    (second : right.eval env = .ok (.integer b)) (known : operator.exact? = some meaning)
    (defined : ¬ (operator = .div ∧ b = 0)) (span : Span) :
    ∃ number, (binary left operator right span).eval env = .ok (.integer number) ∧
      Wraps (meaning a.toInt b.toInt) number.toInt := by
  refine ⟨Int64.ofInt (meaning a.toInt b.toInt), ?_, wraps_ofInt _⟩
  rw [eval, first, second]
  exact Operator.apply_of_exact? known defined span

/-- Division by zero is an error. -/
theorem eval_div_zero {left right : Expr} {a b : Int64}
    (first : left.eval env = .ok (.integer a)) (second : right.eval env = .ok (.integer b))
    (zero : b = 0) (span : Span) :
    (binary left .div right span).eval env = .error (.runtime ⟨.divisionByZero, "", span⟩) := by
  rw [eval, first, second, zero]
  rfl

/-- An expression of integers has an integer value, or divides by zero somewhere. -/
theorem Arithmetic.eval_cases {expr : Expr} (arithmetic : expr.Arithmetic env) :
    (∃ number, expr.eval env = .ok (.integer number)) ∨
      ∃ span, expr.eval env = .error (.runtime ⟨.divisionByZero, "", span⟩) := by
  induction expr with
  | number value span => exact .inl ⟨value, rfl⟩
  | string value span => exact arithmetic.elim
  | variableRef name span =>
      obtain ⟨number, bound⟩ := arithmetic
      refine .inl ⟨number, ?_⟩
      rw [eval, bound]
  | binary left operator right span ihLeft ihRight =>
      obtain ⟨listed, first, second⟩ := arithmetic
      obtain ⟨meaning, known⟩ := exists_exact?_of_known listed
      rcases ihLeft first with ⟨a, evaluatedLeft⟩ | ⟨place, failed⟩
      · rcases ihRight second with ⟨b, evaluatedRight⟩ | ⟨place, failed⟩
        · by_cases undefined : operator = .div ∧ b = 0
          · obtain ⟨rfl, zero⟩ := undefined
            exact .inr ⟨span, eval_div_zero evaluatedLeft evaluatedRight zero span⟩
          · obtain ⟨number, computed, _⟩ :=
              eval_binary evaluatedLeft evaluatedRight known undefined span
            exact .inl ⟨number, computed⟩
        · refine .inr ⟨place, ?_⟩
          rw [eval, evaluatedLeft, failed]
          rfl
      · refine .inr ⟨place, ?_⟩
        rw [eval, failed]
        rfl
  | gap => exact arithmetic.elim

/-- The induction of `eval_exact_modulo`: the operands are congruent to their exact
values, and the operator respects that. -/
theorem Arithmetic.eval_wraps {expr : Expr} (arithmetic : expr.Arithmetic env)
    (free : expr.DivisionFree) :
    ∃ number, expr.eval env = .ok (.integer number) ∧ Wraps (expr.exactValue env) number.toInt := by
  induction expr with
  | number value span => exact ⟨value, rfl, wraps_toInt value⟩
  | string value span => exact arithmetic.elim
  | variableRef name span =>
      obtain ⟨number, bound⟩ := arithmetic
      refine ⟨number, ?_, ?_⟩
      · rw [eval, bound]
      · rw [exactValue, bound]
        exact wraps_toInt number
  | binary left operator right span ihLeft ihRight =>
      obtain ⟨listed, first, second⟩ := arithmetic
      obtain ⟨meaning, known⟩ := exists_exact?_of_known listed
      obtain ⟨other, freeLeft, freeRight⟩ := free.operands
      obtain ⟨a, evaluatedLeft, wrapsLeft⟩ := ihLeft first freeLeft
      obtain ⟨b, evaluatedRight, wrapsRight⟩ := ihRight second freeRight
      obtain ⟨number, computed, wraps⟩ := eval_binary evaluatedLeft evaluatedRight known
        (fun undefined => other undefined.1) span
      refine ⟨number, computed, ?_⟩
      rw [exactValue, known]
      exact wraps.of_modEq
        (Operator.exact?_congr known other wrapsLeft.congruent wrapsRight.congruent)
  | gap => exact arithmetic.elim

/-- **Arithmetic is exact modulo 2^64.** For every expression of numbers, variables that
hold integers and the four operators: it fails only by dividing by zero, and what it
evaluates to is in the range of 64 bits. Without a division it evaluates to what 64 bits
hold of its exact value. And a division of operands that have been computed, wherever it
stands, fails exactly if the divisor is zero, and otherwise gives what 64 bits hold of
the quotient rounded toward zero; the one quotient that is out of range wraps around to
the dividend. -/
theorem eval_exact_modulo {expr : Expr} (arithmetic : expr.Arithmetic env) :
    (∀ failure, expr.eval env = .error failure →
      ∃ span, failure = .runtime ⟨.divisionByZero, "", span⟩) ∧
    (∀ value, expr.eval env = .ok value → ∃ number : Int64, value = .integer number ∧
      -9223372036854775808 ≤ number.toInt ∧ number.toInt ≤ 9223372036854775807) ∧
    (expr.DivisionFree →
      ∃ number, expr.eval env = .ok (.integer number) ∧ Wraps (expr.exactValue env) number.toInt) ∧
    ∀ left right span (a b : Int64),
      left.eval env = .ok (.integer a) → right.eval env = .ok (.integer b) →
        (b.toInt = 0 → (binary left .div right span).eval env =
          .error (.runtime ⟨.divisionByZero, "", span⟩)) ∧
        (b.toInt ≠ 0 → ∃ quotient, (binary left .div right span).eval env =
          .ok (.integer quotient) ∧ Wraps (a.toInt.tdiv b.toInt) quotient.toInt) ∧
        (a.toInt = -9223372036854775808 → b.toInt = -1 →
          (binary left .div right span).eval env = .ok (.integer a)) := by
  refine ⟨?_, ?_, arithmetic.eval_wraps, ?_⟩
  · intro failure failed
    rcases arithmetic.eval_cases with ⟨number, computed⟩ | ⟨span, divided⟩
    · cases failed.symm.trans computed
    · exact ⟨span, Except.error.inj (failed.symm.trans divided)⟩
  · intro value evaluated
    rcases arithmetic.eval_cases with ⟨number, computed⟩ | ⟨span, divided⟩
    · exact ⟨number, Except.ok.inj (evaluated.symm.trans computed), Int64.le_toInt _,
        Int.le_of_lt_add_one (Int64.toInt_lt _)⟩
    · cases evaluated.symm.trans divided
  · intro left right span a b first second
    have divides (nonzero : b.toInt ≠ 0) := eval_binary first second
      (rfl : Operator.div.exact? = some Int.tdiv) (fun zero => nonzero (by rw [zero.2]; rfl)) span
    refine ⟨?_, divides, ?_⟩
    · intro zero
      exact eval_div_zero first second (Int64.toInt_inj.mp zero) span
    · intro least minusOne
      obtain ⟨quotient, computed, wraps⟩ := divides (by omega)
      have around : Wraps (a.toInt.tdiv b.toInt) a.toInt := by
        rw [least, minusOne]
        exact ⟨by decide, by decide, by decide⟩
      rw [computed, Int64.toInt_inj.mp (wraps.unique around)]

/-- The least number that 64 bits hold. -/
def leastNumber : Environment :=
  Environment.empty.set "least" (.integer Int64.minValue)

/-- The least number, which has no counterpart above zero. -/
theorem leastNumber_eval_exact_modulo :
    let least : Expr := .variableRef "least" {}
    let minusOne : Expr := .binary (.number 0 {}) .sub (.number 1 {}) {}
    let product : Expr := .binary least .mul (.binary least .add minusOne {}) {}
    let quotient : Expr := .binary least .div minusOne {}
    product.Arithmetic leastNumber ∧ product.DivisionFree ∧
      (∃ number, product.eval leastNumber = .ok (.integer number) ∧
        Wraps (product.exactValue leastNumber) number.toInt) ∧
      quotient.Arithmetic leastNumber ∧
      quotient.eval leastNumber = .ok (.integer Int64.minValue) := by
  intro least minusOne product quotient
  have held : ∃ number, leastNumber.get? "least" = some (.integer number) := ⟨_, rfl⟩
  have minus : minusOne.Arithmetic leastNumber := by simp [minusOne, Arithmetic, Every, Integral]
  have multiplied : product.Arithmetic leastNumber :=
    ⟨by simp [Integral], held, by simp [Integral], held, minus⟩
  have divided : quotient.Arithmetic leastNumber := ⟨by simp [Integral], held, minus⟩
  have free : product.DivisionFree := by
    intro left right span member
    simp [product, least, minusOne, nodes] at member
  refine ⟨multiplied, free, (eval_exact_modulo multiplied).2.2.1 free, divided, ?_⟩
  obtain ⟨_, _, _, division⟩ := eval_exact_modulo divided
  exact (division least minusOne {} Int64.minValue (-1) rfl rfl).2.2 rfl rfl

end Expr

end Scriptlet
