import Scriptlet.Proofs.Syntax.Tree
import Scriptlet.Run.Execution

/-! # The evaluation rules

What expressions evaluate to and what statements do, as relations without steps.
Arithmetic is that of the integers, wrapped to 64 bits. A statement is executed in
an environment, with some number of lines that may still be written, and has an
outcome: what it prints, the environment and the number of lines it leaves, and the
failure it stops with, if any.

On expressions without gaps the rules say what evaluation computes
(`Expr.evaluates_iff`, `Expr.tests_iff`).
-/

namespace Scriptlet

/-- What an operator means on integers of any size, if it is one of the
language. Division rounds toward zero. -/
def Operator.exact? : Operator → Option (Int → Int → Int)
  | .add => some (· + ·)
  | .sub => some (· - ·)
  | .mul => some (· * ·)
  | .div => some Int.tdiv
  | .unknown _ => none

/-- The values that expressions evaluate to in an environment, or the failures
that stop them. Operands are evaluated from left to right, then their types are
checked, then the operator is applied. -/
inductive Evaluates (env : Environment) : Expr → Except RunFailure Value → Prop
  | number {value : Int64} {span : Span} :
      Evaluates env (.number value span) (.ok (.integer value))
  | string {value : Bytes} {span : Span} : Evaluates env (.string value span) (.ok (.text value))
  | bound {name : String} {span : Span} {value : Value} (found : env.get? name = some value) :
      Evaluates env (.variableRef name span) (.ok value)
  | unbound {name : String} {span : Span} (missing : env.get? name = none) :
      Evaluates env (.variableRef name span)
        (.error (.runtime ⟨.undefinedVariable, name, span⟩))
  | leftFails {left right : Expr} {operator : Operator} {span : Span} {failure : RunFailure}
      (first : Evaluates env left (.error failure)) :
      Evaluates env (.binary left operator right span) (.error failure)
  | rightFails {left right : Expr} {operator : Operator} {span : Span} {value : Value}
      {failure : RunFailure} (first : Evaluates env left (.ok value))
      (second : Evaluates env right (.error failure)) :
      Evaluates env (.binary left operator right span) (.error failure)
  | mismatch {left right : Expr} {operator : Operator} {span : Span} {value other : Value}
      (first : Evaluates env left (.ok value)) (second : Evaluates env right (.ok other))
      (mixed : ¬ ∃ a b, value = .integer a ∧ other = .integer b) :
      Evaluates env (.binary left operator right span)
        (.error (.runtime ⟨.typeMismatch,
          "cannot apply " ++ operator.sign ++ " to " ++ value.typeName ++ " and " ++
            other.typeName, span⟩))
  | computed {left right : Expr} {operator : Operator} {span : Span} {a b : Int64}
      {exact : Int → Int → Int} (first : Evaluates env left (.ok (.integer a)))
      (second : Evaluates env right (.ok (.integer b))) (known : operator.exact? = some exact)
      (defined : ¬ (operator = .div ∧ b = 0)) :
      Evaluates env (.binary left operator right span)
        (.ok (.integer (Int64.ofInt (exact a.toInt b.toInt))))
  | dividedByZero {left right : Expr} {span : Span} {a : Int64}
      (first : Evaluates env left (.ok (.integer a)))
      (second : Evaluates env right (.ok (.integer 0))) :
      Evaluates env (.binary left .div right span)
        (.error (.runtime ⟨.divisionByZero, "", span⟩))
  | unknownOperator {left right : Expr} {operator : Operator} {span : Span} {a b : Int64}
      (first : Evaluates env left (.ok (.integer a)))
      (second : Evaluates env right (.ok (.integer b))) (unknown : operator.exact? = none) :
      Evaluates env (.binary left operator right span) (.error (.unknownOperator operator))

/-- Whether conditions hold in an environment: integers other than zero do, and
what is no integer is no condition. -/
inductive Tests (env : Environment) : Expr → Except RunFailure Bool → Prop
  | yes {condition : Expr} {number : Int64}
      (evaluated : Evaluates env condition (.ok (.integer number))) (nonzero : number ≠ 0) :
      Tests env condition (.ok true)
  | no {condition : Expr} (evaluated : Evaluates env condition (.ok (.integer 0))) :
      Tests env condition (.ok false)
  | fails {condition : Expr} {failure : RunFailure}
      (evaluated : Evaluates env condition (.error failure)) :
      Tests env condition (.error failure)
  | mismatch {condition : Expr} {value : Value} (evaluated : Evaluates env condition (.ok value))
      (other : ¬ ∃ number, value = .integer number) :
      Tests env condition
        (.error (.runtime ⟨.typeMismatch,
          "condition must be an integer, got " ++ value.typeName, condition.span⟩))

/-- What statements lead to: the printed text, the environment and the number of
lines that are left, if that is limited, and the failure that stopped them. -/
structure RunOutcome where
  output : Bytes
  env : Environment
  room : Option Nat
  failure : Option RunFailure
deriving DecidableEq, Repr

namespace RunOutcome

/-- What nothing leads to. -/
def idle (env : Environment) (room : Option Nat) : RunOutcome :=
  ⟨[], env, room, none⟩

/-- What a failure leads to that changes nothing. -/
def stopped (env : Environment) (room : Option Nat) (failure : RunFailure) : RunOutcome :=
  ⟨[], env, room, some failure⟩

/-- The outcome behind some earlier output. -/
def behind (outcome : RunOutcome) (output : Bytes) : RunOutcome :=
  { outcome with output := output ++ outcome.output }

@[simp]
theorem behind_behind (outcome : RunOutcome) (first second : Bytes) :
    (outcome.behind second).behind first = outcome.behind (first ++ second) := by
  simp only [behind, List.append_assoc]

end RunOutcome

/-- Writing a line uses one of the lines that may be written, if they are
limited. -/
inductive Writes : Option Nat → Option Nat → Prop
  | unlimited : Writes none none
  | limited {room : Nat} : Writes (some (room + 1)) (some room)

mutual

/-- What a statement leads to in an environment, with some number of lines that
may still be written. -/
inductive Executes : Environment → Option Nat → Stmt → RunOutcome → Prop
  | assign {env : Environment} {room : Option Nat} {name : String} {value : Expr} {span : Span}
      {result : Value} (evaluated : Evaluates env value (.ok result)) :
      Executes env room (.assign name value span) (.idle (env.set name result) room)
  | assignFails {env : Environment} {room : Option Nat} {name : String} {value : Expr}
      {span : Span} {failure : RunFailure} (evaluated : Evaluates env value (.error failure)) :
      Executes env room (.assign name value span) (.stopped env room failure)
  | print {env : Environment} {room next : Option Nat} {value : Expr} {span : Span}
      {result : Value} (evaluated : Evaluates env value (.ok result))
      (written : Writes room next) :
      Executes env room (.print value span)
        ((RunOutcome.idle env next).behind (result.display ++ Bytes.ofString "\n"))
  | printFails {env : Environment} {room : Option Nat} {value : Expr} {span : Span}
      {failure : RunFailure} (evaluated : Evaluates env value (.error failure)) :
      Executes env room (.print value span) (.stopped env room failure)
  | printClosed {env : Environment} {value : Expr} {span : Span} {result : Value}
      (evaluated : Evaluates env value (.ok result)) :
      Executes env (some 0) (.print value span) (.stopped env (some 0) .outputClosed)
  | ifThen {env : Environment} {room : Option Nat} {condition : Expr} {body : List Stmt}
      {span : Span} {outcome : RunOutcome} (tested : Tests env condition (.ok true))
      (executed : ExecutesAll env room body outcome) :
      Executes env room (.ifThen condition body span) outcome
  | ifThenSkipped {env : Environment} {room : Option Nat} {condition : Expr} {body : List Stmt}
      {span : Span} (tested : Tests env condition (.ok false)) :
      Executes env room (.ifThen condition body span) (.idle env room)
  | ifThenFails {env : Environment} {room : Option Nat} {condition : Expr} {body : List Stmt}
      {span : Span} {failure : RunFailure} (tested : Tests env condition (.error failure)) :
      Executes env room (.ifThen condition body span) (.stopped env room failure)
  | ifElse {env : Environment} {room : Option Nat} {condition : Expr}
      {body otherwise : List Stmt} {span : Span} {outcome : RunOutcome}
      (tested : Tests env condition (.ok true)) (executed : ExecutesAll env room body outcome) :
      Executes env room (.ifElse condition body otherwise span) outcome
  | ifElseOther {env : Environment} {room : Option Nat} {condition : Expr}
      {body otherwise : List Stmt} {span : Span} {outcome : RunOutcome}
      (tested : Tests env condition (.ok false))
      (executed : ExecutesAll env room otherwise outcome) :
      Executes env room (.ifElse condition body otherwise span) outcome
  | ifElseFails {env : Environment} {room : Option Nat} {condition : Expr}
      {body otherwise : List Stmt} {span : Span} {failure : RunFailure}
      (tested : Tests env condition (.error failure)) :
      Executes env room (.ifElse condition body otherwise span) (.stopped env room failure)
  | whileAgain {env : Environment} {room : Option Nat} {condition : Expr} {body : List Stmt}
      {span : Span} {outcome : RunOutcome} (tested : Tests env condition (.ok true))
      (unfolded : ExecutesAll env room (body ++ [.whileDo condition body span]) outcome) :
      Executes env room (.whileDo condition body span) outcome
  | whileDone {env : Environment} {room : Option Nat} {condition : Expr} {body : List Stmt}
      {span : Span} (tested : Tests env condition (.ok false)) :
      Executes env room (.whileDo condition body span) (.idle env room)
  | whileFails {env : Environment} {room : Option Nat} {condition : Expr} {body : List Stmt}
      {span : Span} {failure : RunFailure} (tested : Tests env condition (.error failure)) :
      Executes env room (.whileDo condition body span) (.stopped env room failure)

/-- What statements lead to one after another. The first failure stops them, and
what was done before it is kept. -/
inductive ExecutesAll : Environment → Option Nat → List Stmt → RunOutcome → Prop
  | nil {env : Environment} {room : Option Nat} : ExecutesAll env room [] (.idle env room)
  | cons {env : Environment} {room : Option Nat} {statement : Stmt} {others : List Stmt}
      {first rest : RunOutcome} (head : Executes env room statement first)
      (succeeded : first.failure = none) (tail : ExecutesAll first.env first.room others rest) :
      ExecutesAll env room (statement :: others) (rest.behind first.output)
  | stop {env : Environment} {room : Option Nat} {statement : Stmt} {others : List Stmt}
      {first : RunOutcome} {failure : RunFailure} (head : Executes env room statement first)
      (failed : first.failure = some failure) : ExecutesAll env room (statement :: others) first

end

/-- An operator of the language computes what it means on integers, wrapped to 64
bits. -/
theorem Operator.apply_of_exact? {operator : Operator} {exact : Int → Int → Int}
    (known : operator.exact? = some exact) {a b : Int64} (defined : ¬ (operator = .div ∧ b = 0))
    (span : Span) :
    operator.apply a b span = .ok (.integer (Int64.ofInt (exact a.toInt b.toInt))) := by
  cases operator with
  | add =>
      cases Option.some.inj known
      rw [apply, Int64.ofInt_add, Int64.ofInt_toInt, Int64.ofInt_toInt]
  | sub =>
      cases Option.some.inj known
      rw [apply, Int64.ofInt_sub, Int64.ofInt_toInt, Int64.ofInt_toInt]
  | mul =>
      cases Option.some.inj known
      rw [apply, Int64.ofInt_mul, Int64.ofInt_toInt, Int64.ofInt_toInt]
  | div =>
      cases Option.some.inj known
      have nonzero : ¬ b = 0 := fun zero => defined ⟨rfl, zero⟩
      have quotient : Int64.ofInt (a.toInt.tdiv b.toInt) = a / b := by
        rw [← Int64.toInt_inj, Int64.toInt_ofInt, Int64.toInt_div]
      rw [apply, if_neg nonzero, quotient]
  | unknown code => exact nomatch known

namespace Expr

/-- What the rules derive for an expression is what its evaluation gives. -/
theorem eval_of_evaluates {env : Environment} {expr : Expr} {result : Except RunFailure Value}
    (evaluated : Evaluates env expr result) : expr.eval env = result := by
  induction evaluated with
  | number => rfl
  | string => rfl
  | bound found => rw [eval, found]
  | unbound missing => rw [eval, missing]
  | leftFails first ih =>
      rw [eval, ih]
      rfl
  | rightFails first second ihFirst ihSecond =>
      rw [eval, ihFirst, ihSecond]
      rfl
  | @mismatch left right operator span value other first second mixed ihFirst ihSecond =>
      rw [eval, ihFirst, ihSecond]
      cases value with
      | integer a =>
          cases other with
          | integer b => exact absurd ⟨a, b, rfl, rfl⟩ mixed
          | text bytes => rfl
          | absent => rfl
      | text bytes => rfl
      | absent => rfl
  | computed first second known defined ihFirst ihSecond =>
      rw [eval, ihFirst, ihSecond]
      exact Operator.apply_of_exact? known defined _
  | dividedByZero first second ihFirst ihSecond =>
      rw [eval, ihFirst, ihSecond]
      rfl
  | @unknownOperator left right operator span a b first second unknown ihFirst ihSecond =>
      rw [eval, ihFirst, ihSecond]
      cases operator with
      | unknown code => rfl
      | add => exact nomatch unknown
      | sub => exact nomatch unknown
      | mul => exact nomatch unknown
      | div => exact nomatch unknown

private theorem evaluates_applyValues {env : Environment} {left right : Expr} {value other : Value}
    (first : Evaluates env left (.ok value)) (second : Evaluates env right (.ok other))
    (operator : Operator) (span : Span) :
    Evaluates env (.binary left operator right span) (operator.applyValues value other span) := by
  by_cases integers : ∃ a b, value = .integer a ∧ other = .integer b
  · obtain ⟨a, b, rfl, rfl⟩ := integers
    change Evaluates env _ (operator.apply a b span)
    cases known : operator.exact? with
    | none =>
        cases operator with
        | unknown code => exact .unknownOperator first second known
        | add => exact nomatch known
        | sub => exact nomatch known
        | mul => exact nomatch known
        | div => exact nomatch known
    | some exact =>
        by_cases defined : operator = .div ∧ b = 0
        · obtain ⟨rfl, rfl⟩ := defined
          exact .dividedByZero first second
        · rw [Operator.apply_of_exact? known defined]
          exact .computed first second known defined
  · have derived : Evaluates env (.binary left operator right span) _ :=
      .mismatch first second integers
    have computed := eval_of_evaluates derived
    rw [eval, eval_of_evaluates first, eval_of_evaluates second] at computed
    change operator.applyValues value other span = _ at computed
    rw [computed]
    exact derived

/-- **Evaluation of expressions.** On an expression without gaps the rules derive
exactly what evaluation computes. -/
theorem evaluates_iff {env : Environment} {expr : Expr} (complete : expr.Every (· ≠ .gap))
    {result : Except RunFailure Value} : Evaluates env expr result ↔ expr.eval env = result := by
  refine ⟨eval_of_evaluates, ?_⟩
  rintro rfl
  induction expr with
  | number value span => exact .number
  | string value span => exact .string
  | variableRef name span =>
      rw [eval]
      cases found : env.get? name with
      | none => exact .unbound found
      | some value => exact .bound found
  | binary left operator right span ihLeft ihRight =>
      obtain ⟨_, completeLeft, completeRight⟩ := complete
      have first := ihLeft completeLeft
      have second := ihRight completeRight
      rw [eval]
      cases before : left.eval env with
      | error failure =>
          rw [before] at first
          exact .leftFails first
      | ok value =>
          rw [before] at first
          cases behind : right.eval env with
          | error failure =>
              rw [behind] at second
              exact .rightFails first second
          | ok other =>
              rw [behind] at second
              exact evaluates_applyValues first second operator span
  | gap => exact absurd rfl complete

/-- What the rules derive for a condition is what its test gives. -/
theorem holds_of_tests {env : Environment} {condition : Expr} {result : Except RunFailure Bool}
    (tested : Tests env condition result) : condition.holds env = result := by
  cases tested with
  | yes evaluated nonzero =>
      rw [holds, eval_of_evaluates evaluated]
      exact congrArg Except.ok (bne_iff_ne.mpr nonzero)
  | no evaluated =>
      rw [holds, eval_of_evaluates evaluated]
      rfl
  | fails evaluated =>
      rw [holds, eval_of_evaluates evaluated]
      rfl
  | @mismatch value evaluated other =>
      rw [holds, eval_of_evaluates evaluated]
      cases value with
      | integer number => exact absurd ⟨number, rfl⟩ other
      | text bytes => rfl
      | absent => rfl

/-- **Conditions.** On a condition without gaps the rules derive exactly what
testing it computes. -/
theorem tests_iff {env : Environment} {condition : Expr}
    (complete : condition.Every (· ≠ .gap)) {result : Except RunFailure Bool} :
    Tests env condition result ↔ condition.holds env = result := by
  refine ⟨holds_of_tests, ?_⟩
  rintro rfl
  rw [holds]
  cases computed : condition.eval env with
  | error failure => exact .fails ((evaluates_iff complete).mpr computed)
  | ok value =>
      have evaluated := (evaluates_iff complete).mpr computed
      cases value with
      | integer number =>
          by_cases zero : number = 0
          · subst zero
            exact .no evaluated
          · change Tests env condition (.ok (number != 0))
            rw [bne_iff_ne.mpr zero]
            exact .yes evaluated zero
      | text bytes => exact .mismatch evaluated (by simp)
      | absent => exact .mismatch evaluated (by simp)

end Expr

end Scriptlet
