import Scriptlet.Proofs.Syntax.Tree

/-! # The nodes of a tree

The nodes of a tree as lists, in the order in which the source has them: the
statements of a program at every depth, and the expressions in them. A property
holds everywhere in a program exactly if it holds at all nodes of these lists
(`Program.everyIn_iff`), and what stands inside a node of a program is a node of the
program too.
-/

namespace Scriptlet

namespace Expr

/-- The expression and all expressions inside it. -/
def nodes : Expr → List Expr
  | .number value span => [.number value span]
  | .string value span => [.string value span]
  | .variableRef name span => [.variableRef name span]
  | .binary left operator right span =>
    .binary left operator right span :: (left.nodes ++ right.nodes)
  | .gap => [.gap]

/-- What holds of every part of an expression holds of all its nodes. -/
theorem every_iff {holds : Expr → Prop} {expr : Expr} :
    expr.Every holds ↔ ∀ node ∈ expr.nodes, holds node := by
  induction expr with
  | binary left operator right span ihLeft ihRight =>
      rw [Every, nodes, List.forall_mem_cons, List.forall_mem_append, ihLeft, ihRight]
  | _ => simp only [Every, nodes, List.mem_singleton, forall_eq]

/-- An expression is one of its nodes. -/
theorem mem_nodes_self (expr : Expr) : expr ∈ expr.nodes := by
  cases expr with
  | binary left operator right span => exact List.mem_cons_self
  | _ => exact List.mem_singleton_self _

/-- The operands of a node are nodes. -/
theorem operands_mem_nodes {expr left right : Expr} {operator : Operator} {span : Span}
    (member : .binary left operator right span ∈ expr.nodes) :
    left ∈ expr.nodes ∧ right ∈ expr.nodes := by
  induction expr with
  | binary first other second place ihFirst ihSecond =>
      rw [nodes] at member ⊢
      rcases List.mem_cons.mp member with same | inside
      · cases same
        exact ⟨List.mem_cons_of_mem _ (List.mem_append_left _ left.mem_nodes_self),
          List.mem_cons_of_mem _ (List.mem_append_right _ right.mem_nodes_self)⟩
      · rcases List.mem_append.mp inside with before | behind
        · obtain ⟨one, two⟩ := ihFirst before
          exact ⟨List.mem_cons_of_mem _ (List.mem_append_left _ one),
            List.mem_cons_of_mem _ (List.mem_append_left _ two)⟩
        · obtain ⟨one, two⟩ := ihSecond behind
          exact ⟨List.mem_cons_of_mem _ (List.mem_append_right _ one),
            List.mem_cons_of_mem _ (List.mem_append_right _ two)⟩
  | _ => cases List.mem_singleton.mp member

end Expr

namespace Stmt

/-- What a statement evaluates: the value that it binds or prints, or its
condition. -/
def expr? : Stmt → Option Expr
  | .assign _ value _ => some value
  | .print value _ => some value
  | .ifThen condition _ _ => some condition
  | .ifElse condition _ _ _ => some condition
  | .whileDo condition _ _ => some condition
  | .gap => none

/-- What decides how a branch or a loop goes on. -/
def condition? : Stmt → Option Expr
  | .assign _ _ _ => none
  | .print _ _ => none
  | .ifThen condition _ _ => some condition
  | .ifElse condition _ _ _ => some condition
  | .whileDo condition _ _ => some condition
  | .gap => none

/-- The condition of a statement is its expression. -/
theorem expr?_of_condition? {statement : Stmt} {condition : Expr}
    (deciding : statement.condition? = some condition) : statement.expr? = some condition := by
  cases statement with
  | assign name value span => cases deciding
  | print value span => cases deciding
  | ifThen condition body span => exact deciding
  | ifElse condition body otherwise span => exact deciding
  | whileDo condition body span => exact deciding
  | gap => cases deciding

/-- The statements right inside the blocks of a statement. -/
def inner : Stmt → List Stmt
  | .assign _ _ _ => []
  | .print _ _ => []
  | .ifThen _ body _ => body
  | .ifElse _ body otherwise _ => body ++ otherwise
  | .whileDo _ body _ => body
  | .gap => []

mutual

/-- The statement and all statements inside its blocks. -/
def nodes : Stmt → List Stmt
  | .assign name value span => [.assign name value span]
  | .print value span => [.print value span]
  | .ifThen condition body span => .ifThen condition body span :: nodesAll body
  | .ifElse condition body otherwise span =>
    .ifElse condition body otherwise span :: (nodesAll body ++ nodesAll otherwise)
  | .whileDo condition body span => .whileDo condition body span :: nodesAll body
  | .gap => [.gap]

/-- The statements and all statements inside their blocks. -/
def nodesAll : List Stmt → List Stmt
  | [] => []
  | statement :: others => statement.nodes ++ nodesAll others

end

private theorem nodesAll_append (left right : List Stmt) :
    nodesAll (left ++ right) = nodesAll left ++ nodesAll right := by
  induction left with
  | nil => rfl
  | cons statement others ih => rw [List.cons_append, nodesAll, ih, nodesAll, List.append_assoc]

/-- The nodes of a statement are itself and those of its blocks. -/
theorem nodes_eq (statement : Stmt) : statement.nodes = statement :: nodesAll statement.inner := by
  cases statement with
  | ifElse condition body otherwise span => rw [nodes, inner, nodesAll_append]
  | _ => rfl

/-- A statement is one of its nodes. -/
theorem mem_nodes_self (statement : Stmt) : statement ∈ statement.nodes := by
  rw [nodes_eq]
  exact List.mem_cons_self

/-- The nodes of statements are those of each of them. -/
theorem mem_nodesAll_iff {node : Stmt} {statements : List Stmt} :
    node ∈ nodesAll statements ↔ ∃ statement ∈ statements, node ∈ statement.nodes := by
  induction statements with
  | nil => simp [nodesAll]
  | cons statement others ih => simp [nodesAll, ih]

private theorem sizeOf_lt_of_mem_inner {statement inside : Stmt} (member : inside ∈ statement.inner) :
    sizeOf inside < sizeOf statement := by
  cases statement with
  | assign name value span => exact absurd member List.not_mem_nil
  | print value span => exact absurd member List.not_mem_nil
  | ifThen condition body span =>
      have below : sizeOf inside < sizeOf body := List.sizeOf_lt_of_mem member
      rw [ifThen.sizeOf_spec]
      omega
  | ifElse condition body otherwise span =>
      rw [ifElse.sizeOf_spec]
      rcases List.mem_append.mp member with first | second
      · have below := List.sizeOf_lt_of_mem first
        omega
      · have below := List.sizeOf_lt_of_mem second
        omega
  | whileDo condition body span =>
      have below : sizeOf inside < sizeOf body := List.sizeOf_lt_of_mem member
      rw [whileDo.sizeOf_spec]
      omega
  | gap => exact absurd member List.not_mem_nil

/-- A property holds of all statements if it holds of each one whose inner
statements have it. -/
@[elab_as_elim]
theorem inner_induction {motive : Stmt → Prop}
    (build : ∀ statement : Stmt, (∀ inside ∈ statement.inner, motive inside) → motive statement)
    (statement : Stmt) : motive statement := by
  induction size : sizeOf statement using Nat.strongRecOn generalizing statement with
  | ind total ih =>
      apply build
      intro inside member
      have smaller := sizeOf_lt_of_mem_inner member
      rw [size] at smaller
      exact ih (sizeOf inside) smaller inside rfl

/-- What stands inside a node is a node. -/
theorem inner_subset_nodes {statement node : Stmt} (member : node ∈ statement.nodes) :
    node.inner ⊆ statement.nodes := by
  induction statement using inner_induction with
  | build statement ih =>
      intro inside within
      rw [nodes_eq] at member ⊢
      apply List.mem_cons_of_mem
      rcases List.mem_cons.mp member with rfl | deeper
      · exact mem_nodesAll_iff.mpr ⟨inside, within, inside.mem_nodes_self⟩
      · obtain ⟨outer, around, found⟩ := mem_nodesAll_iff.mp deeper
        exact mem_nodesAll_iff.mpr ⟨outer, around, ih outer around found within⟩

/-- What holds in statements holds of each of them. -/
theorem everyIn_iff_forall {exprs : Expr → Prop} {holds : Stmt → Prop}
    {statements : List Stmt} :
    EveryIn exprs holds statements ↔ ∀ statement ∈ statements, statement.Every exprs holds := by
  induction statements with
  | nil => simp [EveryIn]
  | cons statement others ih => rw [EveryIn, ih, List.forall_mem_cons]

/-- What holds of every part of a statement holds of itself, of its expression and in its blocks. -/
theorem every_iff_inner {exprs : Expr → Prop} {holds : Stmt → Prop} {statement : Stmt} :
    statement.Every exprs holds ↔
      (holds statement ∧ ∀ expr ∈ statement.expr?, expr.Every exprs) ∧
        ∀ inside ∈ statement.inner, inside.Every exprs holds := by
  rw [← everyIn_iff_forall]
  cases statement with
  | ifElse condition body otherwise span =>
      simp [Every, expr?, inner, everyIn_append_iff, and_assoc]
  | _ => simp [Every, expr?, inner, EveryIn, and_assoc]

/-- What holds of every part of a statement holds of all its nodes. -/
theorem every_iff {exprs : Expr → Prop} {holds : Stmt → Prop} {statement : Stmt} :
    statement.Every exprs holds ↔
      ∀ node ∈ statement.nodes, holds node ∧ ∀ expr ∈ node.expr?, expr.Every exprs := by
  induction statement using inner_induction with
  | build statement ih =>
      rw [every_iff_inner, nodes_eq, List.forall_mem_cons]
      refine and_congr_right fun _ => ?_
      constructor
      · intro every node member
        obtain ⟨inside, within, found⟩ := mem_nodesAll_iff.mp member
        exact (ih inside within).mp (every inside within) node found
      · intro every inside within
        refine (ih inside within).mpr ?_
        intro node found
        exact every node (mem_nodesAll_iff.mpr ⟨inside, within, found⟩)

/-- The name that a statement binds. -/
def target? : Stmt → Option String
  | .assign name _ _ => some name
  | .print _ _ => none
  | .ifThen _ _ _ => none
  | .ifElse _ _ _ _ => none
  | .whileDo _ _ _ => none
  | .gap => none

end Stmt

/-- The name that an expression looks up. -/
def Expr.name? : Expr → Option String
  | .number _ _ => none
  | .string _ _ => none
  | .variableRef name _ => some name
  | .binary _ _ _ _ => none
  | .gap => none

namespace Program

/-- The statements of a program at every depth. -/
def statements (program : Program) : List Stmt :=
  Stmt.nodesAll program

/-- The expressions of a program at every depth. -/
def expressions (program : Program) : List Expr :=
  program.statements.flatMap fun statement => statement.expr?.toList.flatMap Expr.nodes

/-- The conditions of all branches and loops of a program. -/
def conditions (program : Program) : List Expr :=
  program.statements.filterMap Stmt.condition?

/-- The names that a program uses, to look them up or to bind them. -/
def names (program : Program) : List String :=
  program.expressions.filterMap Expr.name? ++ program.statements.filterMap Stmt.target?

variable {program : Program}

/-- A statement at the top of a program is one of its statements. -/
theorem mem_statements_of_mem {statement : Stmt} (member : statement ∈ program) :
    statement ∈ program.statements :=
  Stmt.mem_nodesAll_iff.mpr ⟨statement, member, statement.mem_nodes_self⟩

/-- The blocks of a statement of a program consist of statements of it. -/
theorem inner_subset_statements {statement : Stmt} (member : statement ∈ program.statements) :
    statement.inner ⊆ program.statements := by
  intro inside within
  obtain ⟨outer, around, found⟩ := Stmt.mem_nodesAll_iff.mp member
  exact Stmt.mem_nodesAll_iff.mpr ⟨outer, around, Stmt.inner_subset_nodes found within⟩

/-- The expressions of a program are the nodes of those of its statements. -/
theorem mem_expressions_iff {node : Expr} :
    node ∈ program.expressions ↔
      ∃ statement ∈ program.statements, ∃ expr ∈ statement.expr?, node ∈ expr.nodes := by
  simp [expressions]

/-- The expression of a statement is one of the program. -/
theorem mem_expressions_of_expr? {statement : Stmt} {expr : Expr}
    (member : statement ∈ program.statements) (own : statement.expr? = some expr) :
    expr ∈ program.expressions :=
  mem_expressions_iff.mpr ⟨statement, member, expr, own, expr.mem_nodes_self⟩

/-- The operands of an expression of a program are expressions of it. -/
theorem operands_mem_expressions {left right : Expr} {operator : Operator} {span : Span}
    (member : .binary left operator right span ∈ program.expressions) :
    left ∈ program.expressions ∧ right ∈ program.expressions := by
  obtain ⟨statement, around, expr, own, found⟩ := mem_expressions_iff.mp member
  obtain ⟨first, second⟩ := Expr.operands_mem_nodes found
  exact ⟨mem_expressions_iff.mpr ⟨statement, around, expr, own, first⟩,
    mem_expressions_iff.mpr ⟨statement, around, expr, own, second⟩⟩

/-- **Everywhere in a program.** Properties hold everywhere exactly if they hold at
all expressions and all statements, at every depth. -/
theorem everyIn_iff {exprs : Expr → Prop} {holds : Stmt → Prop} :
    Stmt.EveryIn exprs holds program ↔
      (∀ node ∈ program.expressions, exprs node) ∧ ∀ node ∈ program.statements, holds node := by
  rw [Stmt.everyIn_iff_forall]
  constructor
  · intro every
    have nodes (node : Stmt) (member : node ∈ program.statements) :
        holds node ∧ ∀ expr ∈ node.expr?, expr.Every exprs := by
      obtain ⟨outer, around, found⟩ := Stmt.mem_nodesAll_iff.mp member
      exact Stmt.every_iff.mp (every outer around) node found
    refine ⟨?_, fun node member => (nodes node member).1⟩
    intro node member
    obtain ⟨statement, around, expr, own, found⟩ := mem_expressions_iff.mp member
    exact Expr.every_iff.mp ((nodes statement around).2 expr own) node found
  · rintro ⟨exprsHold, stmtsHold⟩ statement member
    refine Stmt.every_iff.mpr ?_
    intro node found
    have inside : node ∈ program.statements := Stmt.mem_nodesAll_iff.mpr ⟨statement, member, found⟩
    refine ⟨stmtsHold node inside, ?_⟩
    intro expr own
    refine Expr.every_iff.mpr ?_
    intro inner within
    exact exprsHold inner (mem_expressions_iff.mpr ⟨node, inside, expr, own, within⟩)

end Program

end Scriptlet
