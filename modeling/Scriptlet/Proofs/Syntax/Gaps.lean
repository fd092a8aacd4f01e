import Mathlib.Tactic.ByContra
import Scriptlet.Proofs.Run.Step
import Scriptlet.Syntax.Printer

/-! # Gaps in trees

A tree made by hand may be missing nodes. Its gaps are listed here in the order of the
source: a condition before the block behind it, that block before the alternative, and a
left operand before the right one (`Program.gaps`).

The printer goes through the whole tree in this order and reports the first gap
(`Program.reports_format`). A run goes through the tree in its own order and may leave out
parts of it, so a tree that can be printed has no gap that a run could meet.
-/

namespace Scriptlet

/-- What the sort of a node is called in messages. -/
def NodeSort.title : NodeSort → String
  | .expression => "Expression"
  | .statement => "Statement"

/-- The missing expressions inside an expression. -/
def Expr.gaps : Expr → List NodeSort
  | .number _ _ => []
  | .string _ _ => []
  | .variableRef _ _ => []
  | .binary left _ right _ => left.gaps ++ right.gaps
  | .gap => [.expression]

namespace Stmt

mutual

/-- The sorts of the nodes that are missing inside a statement. -/
def gaps : Stmt → List NodeSort
  | .assign _ value _ => value.gaps
  | .print value _ => value.gaps
  | .ifThen condition body _ => condition.gaps ++ gapsAll body
  | .ifElse condition body otherwise _ => condition.gaps ++ (gapsAll body ++ gapsAll otherwise)
  | .whileDo condition body _ => condition.gaps ++ gapsAll body
  | .gap => [.statement]

/-- The sorts of the nodes that are missing inside statements. -/
def gapsAll : List Stmt → List NodeSort
  | [] => []
  | statement :: others => statement.gaps ++ gapsAll others

end

end Stmt

/-- The sorts of the nodes that are missing in a program, in the order of the source. -/
def Program.gaps (program : Program) : List NodeSort :=
  Stmt.gapsAll program

/-! ## Trees without gaps -/

/-- An expression has no gaps if none of its parts is one. -/
theorem Expr.gaps_eq_nil_iff {expr : Expr} : expr.gaps = [] ↔ expr.Every (· ≠ .gap) := by
  induction expr with
  | binary left operator right span ihLeft ihRight =>
      simp [gaps, Every, ihLeft, ihRight]
  | _ => simp [gaps, Every]

namespace Stmt

mutual

/-- A statement has no gaps if none of its parts is one. -/
theorem gaps_eq_nil_iff : ∀ statement : Stmt,
    statement.gaps = [] ↔ statement.Every (· ≠ .gap) (· ≠ .gap)
  | .assign _ _ _ => by simp [gaps, Every, Expr.gaps_eq_nil_iff]
  | .print _ _ => by simp [gaps, Every, Expr.gaps_eq_nil_iff]
  | .ifThen _ body _ => by simp [gaps, Every, Expr.gaps_eq_nil_iff, gapsAll_eq_nil_iff body]
  | .ifElse _ body otherwise _ => by
      simp [gaps, Every, Expr.gaps_eq_nil_iff, gapsAll_eq_nil_iff body,
        gapsAll_eq_nil_iff otherwise]
  | .whileDo _ body _ => by simp [gaps, Every, Expr.gaps_eq_nil_iff, gapsAll_eq_nil_iff body]
  | .gap => by simp [gaps, Every]

/-- Statements have no gaps if none of their parts is one. -/
theorem gapsAll_eq_nil_iff : ∀ statements : List Stmt,
    gapsAll statements = [] ↔ EveryIn (· ≠ .gap) (· ≠ .gap) statements
  | [] => by simp [gapsAll, EveryIn]
  | statement :: others => by
      simp [gapsAll, EveryIn, gaps_eq_nil_iff statement, gapsAll_eq_nil_iff others]

end

end Stmt

namespace Program

variable {program : Program}

/-- A program has no gaps if it is complete. -/
theorem gaps_eq_nil_iff : program.gaps = [] ↔ program.Complete :=
  Stmt.gapsAll_eq_nil_iff program

private theorem not_complete_iff :
    ¬ program.Complete ↔ .gap ∈ program.expressions ∨ .gap ∈ program.statements := by
  rw [Complete, everyIn_iff, not_and_or]
  simp

end Program

/-! ## Printing reports the first gap -/

/-- A text comes out if there are no gaps, and otherwise the sort of the first one. -/
inductive Reports : List NodeSort → Except NodeSort Bytes → Prop
  | text (text : Bytes) : Reports [] (.ok text)
  | first (sort : NodeSort) (others : List NodeSort) : Reports (sort :: others) (.error sort)

namespace Reports

variable {gaps more : List NodeSort} {result : Except NodeSort Bytes}

/-- Gaps are reported one after another. -/
theorem bind (reports : Reports gaps result) {next : Bytes → Except NodeSort Bytes}
    (behind : ∀ text, Reports more (next text)) : Reports (gaps ++ more) (result >>= next) := by
  cases reports with
  | text text => exact behind text
  | first sort others => exact .first sort (others ++ more)

/-- Text that is put around adds no gaps. -/
theorem around (reports : Reports gaps result) (shape : Bytes → Bytes) :
    Reports gaps (result >>= fun text => pure (shape text)) := by
  have shaped (text : Bytes) : Reports [] (pure (shape text)) := .text (shape text)
  have whole := reports.bind shaped
  rwa [List.append_nil] at whole

/-- The first gap is the one that is reported. -/
theorem eq_error_iff (reports : Reports gaps result) {sort : NodeSort} :
    result = .error sort ↔ gaps.head? = some sort := by
  cases reports with
  | text text => simp
  | first other others => simp

end Reports

/-- The text of an expression reports its first gap. -/
theorem Expr.reports_format (expr : Expr) : Reports expr.gaps expr.format := by
  induction expr with
  | binary left operator right span ihLeft ihRight =>
      rw [gaps, format]
      exact ihLeft.bind fun _ => ihRight.around _
  | gap => exact .first .expression []
  | _ => exact .text _

namespace Stmt

mutual

/-- The text of a statement reports its first gap. -/
theorem reports_format (indent : Nat) : ∀ statement : Stmt,
    Reports statement.gaps (statement.format indent)
  | .assign _ value _ => by
      rw [gaps, format]
      exact value.reports_format.around _
  | .print value _ => by
      rw [gaps, format]
      exact value.reports_format.around _
  | .ifThen condition body _ => by
      rw [gaps, format]
      exact condition.reports_format.bind fun _ => (reports_formatAll _ body).around _
  | .ifElse condition body otherwise _ => by
      rw [gaps, format]
      exact condition.reports_format.bind fun _ => (reports_formatAll _ body).bind fun _ =>
        (reports_formatAll _ otherwise).around _
  | .whileDo condition body _ => by
      rw [gaps, format]
      exact condition.reports_format.bind fun _ => (reports_formatAll _ body).around _
  | .gap => by
      rw [gaps, format]
      exact .first .statement []

/-- The text of statements reports their first gap. -/
theorem reports_formatAll (indent : Nat) : ∀ statements : List Stmt,
    Reports (gapsAll statements) (formatAll indent statements)
  | [] => by
      rw [gapsAll, formatAll]
      exact .text []
  | statement :: others => by
      rw [gapsAll, formatAll]
      exact (reports_format indent statement).bind fun _ => (reports_formatAll _ others).around _

end

end Stmt

/-- The text of a program reports its first gap. -/
theorem Program.reports_format (program : Program) : Reports program.gaps program.format :=
  Stmt.reports_formatAll 0 program

/-! ## Runs meet no gap -/

/-- Operators miss nothing. -/
theorem Operator.applyValues_ne_missing (operator : Operator) (left right : Value) (span : Span)
    (sort : NodeSort) : operator.applyValues left right span ≠ .error (.missing sort) := by
  intro missing
  cases left with
  | text bytes => cases missing
  | absent => cases missing
  | integer first =>
      cases right with
      | text bytes => cases missing
      | absent => cases missing
      | integer second =>
          cases operator with
          | div =>
              rw [applyValues, apply] at missing
              split at missing <;> cases missing
          | _ => cases missing

/-- Without gaps, evaluation misses nothing. -/
theorem Expr.eval_ne_missing {expr : Expr} (complete : expr.Every (· ≠ .gap))
    (env : Environment) (sort : NodeSort) : expr.eval env ≠ .error (.missing sort) := by
  intro missing
  induction expr with
  | number value span => cases missing
  | string value span => cases missing
  | variableRef name span =>
      rw [eval] at missing
      split at missing <;> cases missing
  | binary left operator right span ihLeft ihRight =>
      obtain ⟨_, completeLeft, completeRight⟩ := complete
      rw [eval] at missing
      cases first : left.eval env with
      | error failure =>
          rw [first] at missing
          cases missing
          exact ihLeft completeLeft first
      | ok leftValue =>
          cases second : right.eval env with
          | error failure =>
              rw [first, second] at missing
              cases missing
              exact ihRight completeRight second
          | ok rightValue =>
              rw [first, second] at missing
              exact operator.applyValues_ne_missing leftValue rightValue span sort missing
  | gap => exact complete rfl

/-- A statement that is present and has no gaps misses nothing. -/
theorem RunState.Performs.ne_missing {state next : RunState} {statement : Stmt}
    {failure : RunFailure} (performed : state.Performs statement (.error failure, next))
    (present : statement ≠ .gap) (whole : ∀ expr ∈ statement.expr?, expr.Every (· ≠ .gap))
    (sort : NodeSort) : failure ≠ .missing sort := by
  rintro rfl
  cases performed with
  | @failed _ expr _ own evaluated =>
      exact Expr.eval_ne_missing (whole expr own) state.env sort evaluated
  | missing => exact present rfl

namespace Program

variable {program : Program}

/-- No statement of a complete program is a gap or has one. -/
theorem Complete.of_mem (complete : program.Complete) {statement : Stmt}
    (member : statement ∈ program.statements) :
    statement ≠ .gap ∧ ∀ expr ∈ statement.expr?, expr.Every (· ≠ .gap) := by
  obtain ⟨outer, around, found⟩ := Stmt.mem_nodesAll_iff.mp member
  have every := Stmt.everyIn_iff_forall.mp complete outer around
  exact Stmt.every_iff.mp every statement found

/-- A run of a program without gaps misses nothing, from any environment and with any room
for output. -/
theorem Complete.ending_ne_missing (complete : program.Complete) (env : Environment)
    (room : Option Nat) (steps : Nat) (sort : NodeSort) :
    (program.run env room steps).ending ≠ .failed (.missing sort) := by
  intro ended
  have within : (program : List Stmt) ⊆ program.statements :=
    fun statement => mem_statements_of_mem
  rcases @execute_induction program (fun _ => True) (fun _ _ _ _ _ _ _ => trivial) steps program
      { env := env, room := room } within trivial with
    ⟨_, unfailed⟩ | ⟨before, statement, failure, _, member, stopped, performed⟩
  · exact unfailed _ ended
  · cases ended.symm.trans stopped
    obtain ⟨present, whole⟩ := complete.of_mem member
    exact performed.ne_missing present whole sort rfl

/-- **Printing rejects exactly the trees with gaps.** For every tree, with gaps anywhere and
any operators: printing fails if and only if an expression or a statement is missing. It
then gives no text, and reports the sort of the first missing node in the order of the
source by its name. A tree that is printed can be run from any environment without a
missing node being met. -/
theorem format_rejects_gaps (program : Program) :
    ((∃ sort, program.format = .error sort) ↔
      .gap ∈ program.expressions ∨ .gap ∈ program.statements) ∧
    (∀ sort, program.format = .error sort ↔ program.gaps.head? = some sort) ∧
    (∀ sort, program.format = .error sort → program.format.toOption = none ∧
      sort.missingMessage = "unknown " ++ sort.title ++ " variant <nil>") ∧
    ∀ text, program.format = .ok text → ∀ env room steps sort,
      (program.run env room steps).ending ≠ .failed (.missing sort) := by
  have reports := program.reports_format
  have rejected : (∃ sort, program.format = .error sort) ↔ ¬ program.Complete := by
    rw [← gaps_eq_nil_iff, ← List.head?_eq_none_iff]
    simp only [reports.eq_error_iff]
    exact Option.ne_none_iff_exists'.symm
  refine ⟨rejected.trans not_complete_iff, fun sort => reports.eq_error_iff, ?_, ?_⟩
  · intro sort failed
    rw [failed]
    cases sort <;> exact ⟨rfl, rfl⟩
  · intro text printed
    have complete : program.Complete := by
      by_contra incomplete
      obtain ⟨sort, failed⟩ := rejected.mpr incomplete
      cases printed.symm.trans failed
    exact complete.ending_ne_missing

/-- A branch with a gap in its block, and one in its alternative. -/
def patchy : Program :=
  [.ifElse (.number 1 {}) [.gap] [.print (.binary .gap .add (.number 2 {}) {}) {}] {}]

/-- A sum with an operator that the language does not have. -/
def oddSum : Program :=
  [.print (.binary (.number 1 {}) (.unknown 9) (.number 2 {}) {}) {}]

/-- A program with a missing statement and a missing expression. -/
theorem patchy_format_rejects_gaps :
    patchy.gaps = [.statement, .expression] ∧ patchy.format = .error .statement ∧
      (∃ text, oddSum.format = .ok text) ∧
      ∀ env room steps sort, (oddSum.run env room steps).ending ≠ .failed (.missing sort) := by
  have printed : oddSum.format = .ok (Bytes.ofString "print 1 Operator(9) 2;\n") := rfl
  refine ⟨rfl, ((format_rejects_gaps patchy).2.1 .statement).mpr rfl, ⟨_, printed⟩, ?_⟩
  exact (format_rejects_gaps oddSum).2.2.2 _ printed

end Program

end Scriptlet
