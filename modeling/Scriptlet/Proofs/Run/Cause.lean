import Scriptlet.Proofs.Run.Sequence
import Scriptlet.Proofs.Run.Step
import Scriptlet.Proofs.Syntax.Parsed

/-! # Causes of run-time errors

A program read from a source fails only with the errors that the language declares,
or because the output is full. A declared error stands at a node of the program, and
in the environment that the run leaves behind one can check what is wrong there.
-/

namespace Scriptlet

namespace Environment

/-- Every variable holds an integer or a text. -/
def Proper (env : Environment) : Prop :=
  ∀ name value, env.get? name = some value → value ≠ .absent

/-- Setting a value that is present keeps an environment proper. -/
theorem Proper.set {env : Environment} (proper : env.Proper) (name : String) {value : Value}
    (present : value ≠ .absent) : (env.set name value).Proper := by
  intro other held bound
  rw [get?_set] at bound
  by_cases same : other = name
  · rw [if_pos same] at bound
    cases bound
    exact present
  · rw [if_neg same] at bound
    exact proper other held bound

end Environment

namespace Program

/-- What an error of a running program blames, as a fact about the program and an
environment: a variable that is not bound, a division whose divisor is zero, an
operand that is a text, or a condition that is one. -/
inductive Causes (program : Program) (env : Environment) : RuntimeError → Prop
  | unbound {name : String} {span : Span}
      (member : .variableRef name span ∈ program.expressions) (free : env.get? name = none) :
      Causes program env ⟨.undefinedVariable, name, span⟩
  | zeroDivisor {left right : Expr} {span : Span} {dividend : Int64}
      (member : .binary left .div right span ∈ program.expressions)
      (evaluatedLeft : left.eval env = .ok (.integer dividend))
      (evaluatedRight : right.eval env = .ok (.integer 0)) :
      Causes program env ⟨.divisionByZero, "", span⟩
  | textOperand {left right : Expr} {operator : Operator} {span : Span} {first second : Value}
      {bytes : Bytes} (member : .binary left operator right span ∈ program.expressions)
      (evaluatedLeft : left.eval env = .ok first) (evaluatedRight : right.eval env = .ok second)
      (isText : first = .text bytes ∨ second = .text bytes) :
      Causes program env ⟨.typeMismatch, "cannot apply " ++ operator.sign ++ " to " ++
        first.typeName ++ " and " ++ second.typeName, span⟩
  | textCondition {condition : Expr} {bytes : Bytes} (member : condition ∈ program.conditions)
      (evaluated : condition.eval env = .ok (.text bytes)) :
      Causes program env
        ⟨.typeMismatch, "condition must be an integer, got string", condition.span⟩

end Program

/-- What an operator of the language makes of two values that are present. -/
theorem Operator.applyValues_cases {operator : Operator}
    (known : operator ∈ [Operator.add, .sub, .mul, .div]) {left right : Value}
    (leftPresent : left ≠ .absent) (rightPresent : right ≠ .absent) (span : Span) :
    (∃ number, operator.applyValues left right span = .ok (.integer number)) ∨
      (operator = .div ∧ (∃ dividend, left = .integer dividend) ∧ right = .integer 0 ∧
        operator.applyValues left right span = .error (.runtime ⟨.divisionByZero, "", span⟩)) ∨
      ((∃ bytes, left = .text bytes ∨ right = .text bytes) ∧
        operator.applyValues left right span =
          .error (.runtime ⟨.typeMismatch, "cannot apply " ++ operator.sign ++ " to " ++
            left.typeName ++ " and " ++ right.typeName, span⟩)) := by
  cases left with
  | absent => exact absurd rfl leftPresent
  | text bytes => exact .inr (.inr ⟨⟨bytes, .inl rfl⟩, rfl⟩)
  | integer dividend =>
      cases right with
      | absent => exact absurd rfl rightPresent
      | text bytes => exact .inr (.inr ⟨⟨bytes, .inr rfl⟩, rfl⟩)
      | integer divisor =>
          cases operator with
          | add => exact .inl ⟨_, rfl⟩
          | sub => exact .inl ⟨_, rfl⟩
          | mul => exact .inl ⟨_, rfl⟩
          | div =>
              rw [applyValues, apply]
              by_cases zero : divisor = 0
              · subst zero
                exact .inr (.inl ⟨rfl, ⟨dividend, rfl⟩, rfl, rfl⟩)
              · rw [if_neg zero]
                exact .inl ⟨_, rfl⟩
          | unknown code => simp at known

namespace Expr

variable {program : Program} {env : Environment} {expr : Expr}

/-- An expression of a program has a value, or fails for a cause. The induction is
on the expression: a failing operand is an expression of the program as well. -/
theorem eval_cases (writable : ∀ node ∈ program.expressions, node.Writable)
    (proper : env.Proper) (member : expr ∈ program.expressions) :
    (∃ value, expr.eval env = .ok value ∧ value ≠ .absent) ∨
      ∃ error, expr.eval env = .error (.runtime error) ∧ program.Causes env error := by
  induction expr with
  | number value span => exact .inl ⟨.integer value, rfl, nofun⟩
  | string value span => exact .inl ⟨.text value, rfl, nofun⟩
  | variableRef name span =>
      rw [eval]
      cases bound : env.get? name with
      | none => exact .inr ⟨_, rfl, .unbound member bound⟩
      | some value => exact .inl ⟨value, rfl, proper name value bound⟩
  | binary left operator right span leftIh rightIh =>
      obtain ⟨leftMember, rightMember⟩ := Program.operands_mem_expressions member
      have known := writable _ member
      rw [eval]
      rcases leftIh leftMember with ⟨first, evaluatedLeft, leftPresent⟩ | ⟨error, failed, cause⟩
      · rw [evaluatedLeft]
        rcases rightIh rightMember with
          ⟨second, evaluatedRight, rightPresent⟩ | ⟨error, failed, cause⟩
        · rw [evaluatedRight]
          rcases operator.applyValues_cases known leftPresent rightPresent span with
            ⟨number, applied⟩ | ⟨rfl, ⟨dividend, rfl⟩, rfl, applied⟩ | ⟨⟨bytes, isText⟩, applied⟩
          · exact .inl ⟨.integer number, applied, nofun⟩
          · exact .inr ⟨_, applied, .zeroDivisor member evaluatedLeft evaluatedRight⟩
          · exact .inr ⟨_, applied, .textOperand member evaluatedLeft evaluatedRight isText⟩
        · rw [failed]
          exact .inr ⟨error, rfl, cause⟩
      · rw [failed]
        exact .inr ⟨error, rfl, cause⟩
  | gap => exact (writable _ member).elim

/-- In a proper environment, what is evaluated is present. -/
theorem ne_absent_of_eval (writable : ∀ node ∈ program.expressions, node.Writable)
    (proper : env.Proper) (member : expr ∈ program.expressions) {value : Value}
    (evaluated : expr.eval env = .ok value) : value ≠ .absent := by
  rcases eval_cases writable proper member with ⟨held, found, present⟩ | ⟨error, failed, _⟩
  · cases found.symm.trans evaluated
    exact present
  · cases failed.symm.trans evaluated

private theorem exists_causes_of_eval (writable : ∀ node ∈ program.expressions, node.Writable)
    (proper : env.Proper) (member : expr ∈ program.expressions) {failure : RunFailure}
    (evaluated : expr.eval env = .error failure) :
    ∃ error, failure = .runtime error ∧ program.Causes env error := by
  rcases eval_cases writable proper member with ⟨held, found, _⟩ | ⟨error, failed, cause⟩
  · cases found.symm.trans evaluated
  · cases failed.symm.trans evaluated
    exact ⟨error, rfl, cause⟩

end Expr

/-- A written line uses up the room for one. -/
theorem Writes.map_add {room next : Option Nat} (written : Writes room next) (count : Nat) :
    next.map (· + (count + 1)) = room.map (· + count) := by
  cases written with
  | unlimited => rfl
  | @limited room => exact congrArg some (Nat.add_right_comm room count 1)

namespace RunState

/-- How many lines the output takes altogether, if that is limited. -/
def capacity (state : RunState) : Option Nat :=
  state.room.map (· + state.lines.length)

/-- What every step keeps: the variables hold integers and texts, and the output has
the capacity that it had. -/
structure Kept (limit : Option Nat) (state : RunState) : Prop where
  proper : state.env.Proper
  capacity_eq : state.capacity = limit

variable {program : Program} {state next : RunState} {statement : Stmt} {limit : Option Nat}

/-- A step keeps what is kept. -/
theorem Kept.of_performs (writable : ∀ node ∈ program.expressions, node.Writable)
    (member : statement ∈ program.statements) {inserted : List Stmt} (kept : state.Kept limit)
    (performed : state.Performs statement (.ok inserted, next)) : next.Kept limit := by
  cases performed with
  | @binds name value span result evaluated =>
      have inside : value ∈ program.expressions := Program.mem_expressions_of_expr? member rfl
      have present := Expr.ne_absent_of_eval writable kept.proper inside evaluated
      exact ⟨kept.proper.set name present, kept.capacity_eq⟩
  | prints evaluated written =>
      refine ⟨kept.proper, ?_⟩
      rw [← kept.capacity_eq]
      exact written.map_add state.lines.length
  | chosen chooses tested => exact kept
  | declined chooses tested => exact kept

/-- A step fails because the output is full, or for a cause that the state it leaves
still shows. -/
theorem Kept.failure_cases (writable : ∀ node ∈ program.expressions, node.Writable)
    (complete : .gap ∉ program.statements) (member : statement ∈ program.statements)
    {failure : RunFailure} (kept : state.Kept limit)
    (performed : state.Performs statement (.error failure, next)) :
    (failure = .outputClosed ∧ limit = some next.lines.length) ∨
      ∃ error, failure = .runtime error ∧ program.Causes next.env error := by
  cases performed with
  | closed evaluated full =>
      left
      refine ⟨rfl, ?_⟩
      rw [← kept.capacity_eq, capacity, full]
      exact congrArg some (Nat.zero_add _)
  | @failed statement expr failure own evaluated =>
      right
      have inside := Program.mem_expressions_of_expr? member own
      exact Expr.exists_causes_of_eval writable kept.proper inside evaluated
  | @undecided statement condition value own evaluated other =>
      right
      have inside := Program.mem_expressions_of_expr? member (Stmt.expr?_of_condition? own)
      have deciding : condition ∈ program.conditions :=
        List.mem_filterMap.mpr ⟨statement, member, own⟩
      have present := Expr.ne_absent_of_eval writable kept.proper inside evaluated
      cases value with
      | integer number => exact absurd rfl (other number)
      | text bytes => exact ⟨_, rfl, .textCondition deciding evaluated⟩
      | absent => exact absurd rfl present
  | missing => exact absurd member complete

end RunState

/-- **Errors point at their causes.** A program read from a source, run with
variables that hold integers and texts and with or without a limit on the output,
fails only when the output has taken all the lines that it takes, or with an error
that the language declares. In the environment that the run leaves behind, a variable
blamed as undefined is not bound, a blamed division has divisor zero, and a type error
stands at an operator with a text as an operand or at a condition that is a text. -/
theorem run_failure_caused {input : Input} {file : String} {tokens : List Token}
    {program : Program} {env : Environment} (split : tokenize input file = .ok tokens)
    (read : parse tokens = .ok program) (proper : env.Proper) (room : Option Nat) (steps : Nat) :
    (program.run env room steps).ending = .unfinished ∨
      (program.run env room steps).ending = .finished ∨
      ((program.run env room steps).ending = .failed .outputClosed ∧
        room = some (program.run env room steps).state.lines.length) ∨
      ∃ error, (program.run env room steps).ending = .failed (.runtime error) ∧
        program.Causes (program.run env room steps).state.env error := by
  obtain ⟨writable, statementsWritable⟩ := Program.everyIn_iff.mp (wellFormed_of_parse split read)
  have complete : .gap ∉ program.statements := fun member => statementsWritable .gap member
  have start : RunState.Kept room { env := env, room := room } := ⟨proper, Option.map_id'⟩
  have within : (program : List Stmt) ⊆ program.statements :=
    fun statement => Program.mem_statements_of_mem
  have keeps (state : RunState) (statement : Stmt) (inserted : List Stmt) (next : RunState)
      (member : statement ∈ program.statements) (kept : state.Kept room)
      (performed : state.Performs statement (.ok inserted, next)) : next.Kept room :=
    kept.of_performs writable member performed
  rcases @Program.execute_induction program (RunState.Kept room) keeps steps program _ within start
    with ⟨_, unfailed⟩ | ⟨before, statement, failure, kept, member, ended, performed⟩
  · cases ended : (program.run env room steps).ending with
    | finished => exact .inr (.inl rfl)
    | unfinished => exact .inl rfl
    | failed failure => exact absurd ended (unfailed failure)
  · right; right
    rcases kept.failure_cases writable complete member performed with
      ⟨rfl, full⟩ | ⟨error, rfl, cause⟩
    · exact .inl ⟨ended, full⟩
    · exact .inr ⟨error, ended, cause⟩

/-- Prints twice, and divides by zero the third time around. -/
def shrinkingDivisor : Bytes :=
  Bytes.ofString ("while (x) " ++ inBraces " x = x - 1; print 6 / x; ")

/-- A loop that fails the third time around. -/
theorem shrinkingDivisor_run_failure_caused :
    ∃ tokens program env, tokenize { bytes := shrinkingDivisor } "main.peri" = .ok tokens ∧
      parse tokens = .ok program ∧ Environment.Proper env ∧ env.get? "x" = some (.integer 3) ∧
      ∀ room steps,
        (Program.run program env room steps).ending = .unfinished ∨
          (Program.run program env room steps).ending = .finished ∨
          ((Program.run program env room steps).ending = .failed .outputClosed ∧
            room = some (Program.run program env room steps).state.lines.length) ∨
          ∃ error, (Program.run program env room steps).ending = .failed (.runtime error) ∧
            Program.Causes program (Program.run program env room steps).state.env error := by
  obtain ⟨tokens, program, split, read⟩ :=
    @exists_of_isSome { bytes := shrinkingDivisor } "main.peri" (by decide +kernel)
  have proper : (Environment.empty.set "x" (.integer 3)).Proper := by
    refine Environment.Proper.set ?_ "x" nofun
    intro name value bound
    cases bound
  exact ⟨tokens, program, _, split, read, proper, rfl, run_failure_caused split read proper⟩

end Scriptlet
