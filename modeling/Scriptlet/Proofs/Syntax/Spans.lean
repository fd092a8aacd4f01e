import Mathlib.Data.List.Forall2
import Scriptlet.Proofs.Syntax.Canonical
import Scriptlet.Proofs.Syntax.Nodes
import Scriptlet.Proofs.Token.Tiling

/-! # Spans of a parsed source

The parts of a statement are derived from stretches of its tokens, in order and with
other tokens in front, between and behind (`Grammar.Along`), and so are the operands of
an operator. Since the tokens of a source stand one behind the other, the spans of parts
are in order and inside of the span of the whole; and since the bytes under a token spell
it, the bytes under a leaf spell its value (`spans_follow_source`).
-/

namespace Scriptlet

open Lexical Grammar

namespace Span

/-- A span ends where another one starts, or before. -/
def Before (first second : Span) : Prop :=
  first.finish.offset ≤ second.start.offset

/-- A span lies inside another one and touches neither end of it. -/
structure StrictlyInside (inner outer : Span) : Prop where
  start : outer.start.offset < inner.start.offset
  finish : inner.finish.offset < outer.finish.offset

end Span

/-! ## Tokens in order -/

namespace Token

/-- Tokens stand one behind the other, and none of them is empty. -/
structure InOrder (tokens : List Token) : Prop where
  before : tokens.Pairwise fun token later => token.span.Before later.span
  nonempty : ∀ token ∈ tokens, token.span.start.offset < token.span.finish.offset

/-- A span starts where one of some tokens starts and ends where one of them ends. -/
def Delimit (tokens : List Token) (span : Span) : Prop :=
  ∃ first ∈ tokens, ∃ last ∈ tokens, span = first.span.join last.span

/-- A span reaches from the start of the first of some tokens to the end of the last. -/
def Reach (tokens : List Token) (span : Span) : Prop :=
  ∃ first last, tokens.head? = some first ∧ tokens.getLast? = some last ∧
    span = first.span.join last.span

variable {tokens left right : List Token}

/-- Tokens that are left out do not disturb the order. -/
theorem InOrder.mono (inOrder : InOrder tokens) (part : left.Sublist tokens) : InOrder left where
  before := inOrder.before.sublist part
  nonempty token member := inOrder.nonempty token (part.subset member)

/-- The tokens between the first and the last are in order. -/
theorem InOrder.middle {first last : Token} (inOrder : InOrder (first :: (tokens ++ [last]))) :
    InOrder tokens :=
  inOrder.mono ((List.sublist_append_left _ _).trans (List.sublist_cons_self _ _))

/-- A token delimits its own span. -/
theorem delimit_self {token : Token} (member : token ∈ tokens) : Delimit tokens token.span :=
  ⟨token, member, token, member, rfl⟩

/-- More tokens delimit as much. -/
theorem Delimit.mono {span : Span} (delimited : Delimit left span) (part : left ⊆ tokens) :
    Delimit tokens span := by
  obtain ⟨first, starts, last, ends, same⟩ := delimited
  exact ⟨first, part starts, last, part ends, same⟩

private theorem reach_singleton (token : Token) : Reach [token] token.span :=
  ⟨token, token, rfl, rfl, rfl⟩

/-- Spans that reach over their tokens reach over both when they are joined. -/
theorem Reach.append {first second : Span} (starts : Reach left first)
    (ends : Reach right second) : Reach (left ++ right) (first.join second) := by
  obtain ⟨head, _, found, _, rfl⟩ := starts
  obtain ⟨_, last, _, closing, rfl⟩ := ends
  refine ⟨head, last, ?_, ?_, rfl⟩
  · rw [List.head?_append, found, Option.some_or]
  · rw [List.getLast?_append, closing, Option.some_or]

/-- A span that reaches over tokens is delimited by them. -/
theorem Reach.delimit {span : Span} (reached : Reach tokens span) : Delimit tokens span := by
  obtain ⟨first, last, starts, ends, same⟩ := reached
  exact ⟨first, List.mem_of_head? starts, last, List.mem_of_getLast? ends, same⟩

/-- What tokens in front delimit is before what tokens behind delimit. -/
theorem InOrder.before_of_append (inOrder : InOrder (left ++ right)) {first second : Span}
    (starts : Delimit left first) (ends : Delimit right second) : first.Before second := by
  obtain ⟨_, _, last, member, rfl⟩ := starts
  obtain ⟨next, later, _, _, rfl⟩ := ends
  exact (List.pairwise_append.mp inOrder.before).2.2 last member next later

/-- A token between two spans takes up room. -/
theorem InOrder.lt_of_append {sign : Token} (inOrder : InOrder (left ++ sign :: right))
    {first second : Span} (starts : Delimit left first) (ends : Delimit right second) :
    first.finish.offset < second.start.offset := by
  have behind : InOrder ([sign] ++ right) := inOrder.mono (List.sublist_append_right _ _)
  have wide := inOrder.nonempty sign (List.mem_append_right _ List.mem_cons_self)
  have fore : first.Before sign.span :=
    inOrder.before_of_append starts (delimit_self List.mem_cons_self)
  have aft : sign.span.Before second :=
    behind.before_of_append (delimit_self List.mem_cons_self) ends
  exact Int.lt_of_le_of_lt fore (Int.lt_of_lt_of_le wide aft)

/-- From the first to the last of some tokens there is room. -/
theorem InOrder.lt_of_reach (inOrder : InOrder tokens) {span : Span}
    (reached : Reach tokens span) : span.start.offset < span.finish.offset := by
  obtain ⟨first, last, starts, ends, rfl⟩ := reached
  obtain ⟨others, rfl⟩ := List.head?_eq_some_iff.mp starts
  have wide := inOrder.nonempty first List.mem_cons_self
  rcases List.mem_cons.mp (List.mem_of_getLast? ends) with rfl | later
  · exact wide
  · have fore : first.span.Before last.span :=
      List.rel_of_pairwise_cons inOrder.before later
    have behind := inOrder.nonempty last (List.mem_cons_of_mem _ later)
    exact Int.lt_trans (Int.lt_of_lt_of_le wide fore) behind

/-- What lies between the first and the last of some tokens lies inside the span of all
of them. -/
theorem InOrder.strictlyInside {first last : Token} {middle : List Token}
    (inOrder : InOrder (first :: (middle ++ [last]))) {span : Span}
    (delimited : Delimit middle span) : span.StrictlyInside (first.span.join last.span) := by
  have whole : InOrder ([first] ++ (middle ++ [last])) := inOrder
  have behind : InOrder (middle ++ [last]) := inOrder.mono (List.sublist_cons_self _ _)
  have fore : first.span.Before span :=
    whole.before_of_append (delimit_self List.mem_cons_self)
      (delimited.mono (List.subset_append_left _ _))
  have aft : span.Before last.span :=
    behind.before_of_append delimited (delimit_self List.mem_cons_self)
  exact ⟨Int.lt_of_lt_of_le (inOrder.nonempty first List.mem_cons_self) fore,
    Int.lt_of_le_of_lt aft (inOrder.nonempty last (by simp))⟩

/-- Whether a token can be a literal or a variable. -/
def isOperand (token : Token) : Bool :=
  [TokenKind.integer, .identifier, .string].contains token.kind

/-- The kind of a token tells whether it is an operand. -/
theorem isOperand_of_kind {token : Token} {kind : TokenKind} (same : token.kind = kind) :
    token.isOperand = [TokenKind.integer, .identifier, .string].contains kind := by
  rw [isOperand, same]

end Token

/-! ## Expressions -/

namespace Expr

/-- The literals and variables of an expression, from left to right. -/
def leaves : Expr → List Expr
  | .binary left _ right _ => left.leaves ++ right.leaves
  | leaf => [leaf]

/-- The texts that a literal or variable can be written as: the digits of a number, a
name, and the value of a string between double quotes. -/
inductive WrittenAs : Expr → String → Prop
  | number {value : Int64} {span : Span} {text : String} {count : Nat}
      (numeral : Decimal.Numeral text.toList count) (denoted : value.toInt = count) :
      WrittenAs (.number value span) text
  | variableRef {name : String} {span : Span} : WrittenAs (.variableRef name span) name
  | string {text : String} {span : Span} :
      WrittenAs (.string (Bytes.ofString text) span) ("\"" ++ text ++ "\"")

end Expr

/-- A token by itself is a literal or variable, which stands where the token stands. -/
structure Token.Denotes (token : Token) (leaf : Expr) : Prop where
  derives : DerivesExpr .factor [token] leaf
  span : leaf.span = token.span

/-- What a token denotes has no operands. -/
theorem Token.Denotes.ne_binary {token : Token} {leaf : Expr} (denoted : token.Denotes leaf)
    (left : Expr) (operator : Operator) (right : Expr) (span : Span) :
    leaf ≠ .binary left operator right span := by
  rintro rfl
  obtain ⟨derived, _⟩ := denoted
  generalize single : [token] = tokens at derived
  cases derived with
  | parens opened inside closed => simp at single

/-- A leaf is its only leaf and its only node. -/
theorem Token.Denotes.leaves_nodes {token : Token} {leaf : Expr} (denoted : token.Denotes leaf) :
    leaf.leaves = [leaf] ∧ leaf.nodes = [leaf] := by
  cases leaf with
  | binary left operator right span =>
      exact absurd rfl (denoted.ne_binary left operator right span)
  | _ => exact ⟨rfl, rfl⟩

/-- A leaf is written as its token. -/
theorem Token.Denotes.writtenAs {token : Token} {leaf : Expr} (denoted : token.Denotes leaf)
    (spelled : token.Spelled) : leaf.WrittenAs token.lexeme := by
  obtain ⟨derived, _⟩ := denoted
  generalize single : [token] = tokens at derived
  cases derived with
  | number kind literal =>
      cases single
      obtain ⟨count, numeral, same⟩ :=
        literal.exists_numeral (Spells.isDigit_of_mem spelled kind)
      exact .number numeral same
  | identifier kind =>
      cases single
      exact .variableRef
  | string kind quoted =>
      cases single
      obtain ⟨content, lexeme, rfl, _⟩ := exists_content_of_spelled spelled kind quoted
      have text : token.lexeme = "\"" ++ String.ofList content ++ "\"" := by
        rw [← String.toList_inj, lexeme]
        simp
      have value : Bytes.ofChars content = Bytes.ofString (String.ofList content) := by
        rw [Bytes.ofString, String.toList_ofList]
      rw [text, value]
      exact .string
  | parens opened inside closed => simp at single

namespace Grammar

/-- An expression spread over tokens: a token for each leaf, with parentheses and the
signs of operators between them. How tightly operators bind is left out. -/
inductive Spread : List Token → Expr → Prop
  | leaf {token : Token} {leaf : Expr} (operand : token.isOperand)
      (denoted : token.Denotes leaf) : Spread [token] leaf
  | parens {opening closing : Token} {inner : List Token} {value : Expr}
      (opened : opening.isOperand = false) (inside : Spread inner value)
      (closed : closing.isOperand = false) : Spread (opening :: (inner ++ [closing])) value
  | binary {left right : List Token} {sign : Token} {first second : Expr} {operator : Operator}
      (before : Spread left first) (between : sign.isOperand = false)
      (behind : Spread right second) :
      Spread (left ++ sign :: right) (.binary first operator second (first.span.join second.span))

variable {tokens : List Token} {value : Expr}

/-- Tokens of other kinds are no operands. -/
theorem isOperand_eq_false {token : Token} (kinds : List TokenKind) (member : token.kind ∈ kinds)
    (others : kinds.all fun kind =>
      !(List.contains [TokenKind.integer, .identifier, .string] kind)) :
    token.isOperand = false := by
  have outside := List.all_eq_true.mp others token.kind member
  exact (Bool.not_eq_eq_eq_not.mp outside).trans Bool.not_true

/-- An expression is spread over its tokens. -/
theorem DerivesExpr.spread {level : Level} (derived : DerivesExpr level tokens value) :
    Spread tokens value := by
  induction derived with
  | number kind denoted =>
      exact .leaf (Token.isOperand_of_kind kind) ⟨.number kind denoted, rfl⟩
  | identifier kind =>
      exact .leaf (Token.isOperand_of_kind kind) ⟨.identifier kind, rfl⟩
  | string kind quoted =>
      exact .leaf (Token.isOperand_of_kind kind) ⟨.string kind quoted, rfl⟩
  | parens opened inside closed ih =>
      exact .parens (Token.isOperand_of_kind opened) ih (Token.isOperand_of_kind closed)
  | factor single ih => exact ih
  | product before meaning behind ihBefore ihBehind =>
      exact .binary ihBefore
        (isOperand_eq_false [.star, .slash] (product_sign_iff.mp meaning).1 rfl) ihBehind
  | term single ih => exact ih
  | sum before meaning behind ihBefore ihBehind =>
      exact .binary ihBefore
        (isOperand_eq_false [.plus, .minus] (sum_sign_iff.mp meaning).1 rfl) ihBehind

namespace Spread

/-- Parentheses are no operands. -/
theorem filter_parens {opening closing : Token} (opened : opening.isOperand = false)
    (closed : closing.isOperand = false) (inner : List Token) :
    (opening :: (inner ++ [closing])).filter Token.isOperand = inner.filter Token.isOperand := by
  simp [List.filter_append, opened, closed]

/-- The sign of an operator is no operand. -/
theorem filter_sign {sign : Token} (between : sign.isOperand = false) (left right : List Token) :
    (left ++ sign :: right).filter Token.isOperand =
      left.filter Token.isOperand ++ right.filter Token.isOperand := by
  simp [List.filter_append, between]

/-- The tokens that can be literals or variables are the leaves, one by one. -/
theorem denotes_leaves (spread : Spread tokens value) :
    List.Forall₂ Token.Denotes (tokens.filter Token.isOperand) value.leaves := by
  induction spread with
  | leaf operand denoted =>
      rw [List.filter_cons_of_pos operand, denoted.leaves_nodes.1]
      exact .cons denoted .nil
  | parens opened inside closed ih =>
      rw [filter_parens opened closed]
      exact ih
  | binary before between behind ihBefore ihBehind =>
      rw [filter_sign between]
      exact List.rel_append ihBefore ihBehind

private theorem exists_denotes (spread : Spread tokens value) :
    ∀ leaf ∈ value.leaves, ∃ token ∈ tokens, token.Denotes leaf := by
  induction spread with
  | leaf operand denoted =>
      rw [denoted.leaves_nodes.1, List.forall_mem_singleton]
      exact ⟨_, List.mem_singleton_self _, denoted⟩
  | parens opened inside closed ih =>
      intro leaf member
      obtain ⟨token, listed, denoted⟩ := ih leaf member
      exact ⟨token, by simp [listed], denoted⟩
  | binary before between behind ihBefore ihBehind =>
      intro leaf member
      rcases List.mem_append.mp member with first | second
      · obtain ⟨token, listed, denoted⟩ := ihBefore leaf first
        exact ⟨token, by simp [listed], denoted⟩
      · obtain ⟨token, listed, denoted⟩ := ihBehind leaf second
        exact ⟨token, by simp [listed], denoted⟩

/-- An expression reaches from its first leaf to its last one. -/
theorem reach (spread : Spread tokens value) :
    Token.Reach (tokens.filter Token.isOperand) value.span := by
  induction spread with
  | @leaf token leaf operand denoted =>
      rw [List.filter_cons_of_pos operand, denoted.span]
      exact Token.reach_singleton token
  | parens opened inside closed ih =>
      rw [filter_parens opened closed]
      exact ih
  | binary before between behind ihBefore ihBehind =>
      rw [filter_sign between]
      exact ihBefore.append ihBehind

/-- The tokens of an expression delimit its span. -/
theorem delimit (spread : Spread tokens value) : Token.Delimit tokens value.span :=
  spread.reach.delimit.mono (List.filter_subset_self _)

/-- A token stands between the operands of an operator. -/
theorem lt_of_binary {left right : Expr} {operator : Operator} {span : Span}
    (spread : Spread tokens (.binary left operator right span)) (inOrder : Token.InOrder tokens) :
    left.span.finish.offset < right.span.start.offset := by
  generalize whole : Expr.binary left operator right span = value at spread
  induction spread with
  | leaf operand denoted => exact absurd whole.symm (denoted.ne_binary left operator right span)
  | parens opened inside closed ih =>
      exact ih inOrder.middle whole
  | binary before between behind ihBefore ihBehind =>
      cases whole
      exact inOrder.lt_of_append before.delimit behind.delimit

/-- Every node of an expression is spread over some of its tokens. -/
theorem exists_stretch (spread : Spread tokens value) :
    ∀ node ∈ value.nodes, ∃ stretch, stretch <:+: tokens ∧ Spread stretch node := by
  induction spread with
  | leaf operand denoted =>
      rw [denoted.leaves_nodes.2, List.forall_mem_singleton]
      exact ⟨_, List.infix_refl _, .leaf operand denoted⟩
  | parens opened inside closed ih =>
      intro node member
      obtain ⟨stretch, part, derived⟩ := ih node member
      exact ⟨stretch, part.trans ⟨[_], [_], rfl⟩, derived⟩
  | @binary left right sign _ _ _ before between behind ihBefore ihBehind =>
      intro node member
      rcases List.mem_cons.mp member with rfl | inside
      · exact ⟨_, List.infix_refl _, .binary before between behind⟩
      · rcases List.mem_append.mp inside with first | second
        · obtain ⟨stretch, part, derived⟩ := ihBefore node first
          exact ⟨stretch, part.trans (List.prefix_append _ _).isInfix, derived⟩
        · obtain ⟨stretch, part, derived⟩ := ihBehind node second
          have signed : right <:+: sign :: right := (List.suffix_cons sign right).isInfix
          exact ⟨stretch, (part.trans signed).trans (List.suffix_append _ _).isInfix, derived⟩

end Spread

end Grammar

/-! ## Statements -/

namespace Stmt

/-- Where a statement stands. A gap stands nowhere. -/
def span : Stmt → Span
  | .assign _ _ span => span
  | .print _ span => span
  | .ifThen _ _ span => span
  | .ifElse _ _ _ span => span
  | .whileDo _ _ span => span
  | .gap => {}

/-- The kind of the token that ends a statement. -/
def closingKind : Stmt → TokenKind
  | .assign _ _ _ => .semicolon
  | .print _ _ => .semicolon
  | _ => .rightBrace

end Stmt

/-- An expression or a statement of a tree. -/
inductive TreeNode where
  | expr (node : Expr)
  | stmt (node : Stmt)

namespace TreeNode

/-- Where a node stands. -/
def span : TreeNode → Span
  | .expr node => node.span
  | .stmt node => node.span

/-- Tokens make up a node. -/
def Covered (tokens : List Token) : TreeNode → Prop
  | .expr node => Spread tokens node
  | .stmt node => DerivesStmt tokens node

end TreeNode

/-- What a statement has right inside: its value or condition, then the statements of its
blocks. -/
def Stmt.parts (statement : Stmt) : List TreeNode :=
  statement.expr?.toList.map .expr ++ statement.inner.map .stmt

namespace Grammar

/-- Nodes made up of stretches of tokens, in order and without overlap, with other tokens
between them. -/
inductive Along : List Token → List TreeNode → Prop
  | nil : Along [] []
  | token {token : Token} {tokens : List Token} {nodes : List TreeNode}
      (behind : Along tokens nodes) : Along (token :: tokens) nodes
  | node {stretch tokens : List Token} {node : TreeNode} {nodes : List TreeNode}
      (covered : node.Covered stretch) (behind : Along tokens nodes) :
      Along (stretch ++ tokens) (node :: nodes)

namespace Along

variable {tokens left right : List Token} {nodes first second : List TreeNode}

/-- Nodes along tokens stand in front of nodes along the tokens behind. -/
theorem append (before : Along left first) (behind : Along right second) :
    Along (left ++ right) (first ++ second) := by
  induction before with
  | nil => exact behind
  | token _ ih => exact .token ih
  | node covered _ ih =>
      rw [List.append_assoc]
      exact .node covered ih

/-- A node is along the tokens that it covers. -/
theorem singleton {node : TreeNode} (covered : node.Covered tokens) : Along tokens [node] := by
  have alone := Along.node covered .nil
  rwa [List.append_nil] at alone

/-- Every node along tokens covers a stretch of them. -/
theorem exists_stretch (along : Along tokens nodes) :
    ∀ node ∈ nodes, ∃ stretch, stretch <:+: tokens ∧ node.Covered stretch := by
  induction along with
  | nil => exact List.forall_mem_nil _
  | token behind ih =>
      intro node member
      obtain ⟨stretch, part, covered⟩ := ih node member
      exact ⟨stretch, part.trans (List.suffix_cons _ _).isInfix, covered⟩
  | node covered behind ih =>
      refine List.forall_mem_cons.mpr ⟨⟨_, (List.prefix_append _ _).isInfix, covered⟩, ?_⟩
      intro node member
      obtain ⟨stretch, part, inside⟩ := ih node member
      exact ⟨stretch, part.trans (List.suffix_append _ _).isInfix, inside⟩

end Along

variable {tokens : List Token}

/-- A condition is along its tokens. -/
theorem DerivesCondition.along {condition : Expr} (derived : DerivesCondition tokens condition) :
    Along tokens [.expr condition] := by
  cases derived with
  | parens opened inside closed =>
      have inner : Along _ [.expr condition] := .singleton inside.spread
      exact .token (inner.append (.token .nil))

/-- Statements are along their tokens. -/
theorem DerivesStmts.along {statements : List Stmt} (derived : DerivesStmts tokens statements) :
    Along tokens (statements.map .stmt) := by
  induction statements generalizing tokens with
  | nil =>
      cases derived
      exact .nil
  | cons statement others ih =>
      cases derived with
      | cons head tail =>
          have covered : (TreeNode.stmt statement).Covered _ := head
          exact .node covered (ih tail)

/-- The statements of a block lie along the tokens in front of its closing brace. -/
theorem DerivesBlock.exists_front {body : List Stmt} {brace : Token}
    (derived : DerivesBlock tokens body brace) :
    ∃ front, tokens = front ++ [brace] ∧ brace.kind = .rightBrace ∧
      Along front (body.map .stmt) := by
  cases derived with
  | @braces opening _ inner _ opened inside closed =>
      exact ⟨opening :: inner, rfl, closed, .token inside.along⟩

/-- A statement reaches from its first to its last token, and its parts lie along the
tokens between these. -/
theorem DerivesStmt.exists_frame {statement : Stmt} (derived : DerivesStmt tokens statement) :
    ∃ first middle last, tokens = first :: (middle ++ [last]) ∧
      last.kind = statement.closingKind ∧ statement.span = first.span.join last.span ∧
      Along middle statement.parts := by
  cases derived with
  | @print word stop inner value kind inside stopped =>
      exact ⟨word, inner, stop, rfl, stopped, rfl, .singleton inside.spread⟩
  | @assign name sign stop inner value kind assigned inside stopped =>
      exact ⟨name, sign :: inner, stop, rfl, stopped, rfl, .token (.singleton inside.spread)⟩
  | @ifThen word brace test inner condition body kind tested block =>
      obtain ⟨front, rfl, closed, along⟩ := block.exists_front
      refine ⟨word, test ++ front, brace, ?_, closed, rfl, tested.along.append along⟩
      rw [List.append_assoc]
  | @ifElse word other middle brace test inner outer condition body otherwise kind tested block
      alternative second =>
      obtain ⟨front, rfl, _, along⟩ := block.exists_front
      obtain ⟨back, rfl, closed, alongSecond⟩ := second.exists_front
      refine ⟨word, test ++ ((front ++ [middle]) ++ other :: back), brace, ?_, closed, rfl, ?_⟩
      · simp
      · rw [Stmt.parts, Stmt.inner, List.map_append]
        refine tested.along.append ?_
        have closedFirst := along.append (.token .nil : Along [middle] [])
        rw [List.append_nil] at closedFirst
        exact closedFirst.append (.token alongSecond)
  | @whileDo word brace test inner condition body kind tested block =>
      obtain ⟨front, rfl, closed, along⟩ := block.exists_front
      refine ⟨word, test ++ front, brace, ?_, closed, rfl, tested.along.append along⟩
      rw [List.append_assoc]

/-- The span of a statement reaches over its tokens. -/
theorem DerivesStmt.reach {statement : Stmt} (derived : DerivesStmt tokens statement) :
    Token.Reach tokens statement.span := by
  obtain ⟨first, middle, last, rfl, _, same, _⟩ := derived.exists_frame
  exact ⟨first, last, rfl, by rw [← List.cons_append, List.getLast?_concat], same⟩

end Grammar

/-- The tokens that a node covers delimit its span. -/
theorem TreeNode.Covered.delimit {tokens : List Token} {node : TreeNode}
    (covered : node.Covered tokens) : Token.Delimit tokens node.span := by
  cases node with
  | expr node => exact Spread.delimit covered
  | stmt node => exact (DerivesStmt.reach covered).delimit

namespace Grammar

variable {tokens : List Token} {nodes : List TreeNode}

/-- Nodes along tokens that are in order are in order. -/
theorem Along.pairwise_before (along : Along tokens nodes) (inOrder : Token.InOrder tokens) :
    nodes.Pairwise fun node later => node.span.Before later.span := by
  induction along with
  | nil => exact .nil
  | token behind ih => exact ih (inOrder.mono (List.sublist_cons_self _ _))
  | node covered behind ih =>
      refine .cons ?_ (ih (inOrder.mono (List.sublist_append_right _ _)))
      intro later member
      obtain ⟨stretch, part, inside⟩ := behind.exists_stretch later member
      exact inOrder.before_of_append covered.delimit (inside.delimit.mono part.subset)

/-- Every statement inside a statement is derived from some of its tokens. The induction
is on how deep the statement lies. -/
theorem DerivesStmt.exists_stretch {statement : Stmt} (derived : DerivesStmt tokens statement) :
    ∀ node ∈ statement.nodes, ∃ stretch, stretch <:+: tokens ∧ DerivesStmt stretch node := by
  induction statement using Stmt.inner_induction generalizing tokens with
  | build statement ih =>
      rw [Stmt.nodes_eq, List.forall_mem_cons]
      refine ⟨⟨tokens, List.infix_refl _, derived⟩, ?_⟩
      intro node member
      obtain ⟨inside, within, found⟩ := Stmt.mem_nodesAll_iff.mp member
      obtain ⟨first, middle, last, rfl, _, _, along⟩ := derived.exists_frame
      have listed : TreeNode.stmt inside ∈ statement.parts :=
        List.mem_append_right _ (List.mem_map_of_mem within)
      obtain ⟨stretch, part, covered⟩ := along.exists_stretch _ listed
      obtain ⟨deeper, inner, own⟩ := ih inside within covered node found
      exact ⟨deeper, (inner.trans part).trans ⟨[first], [last], rfl⟩, own⟩

/-- All nodes of an expression along tokens are spread over some of them. -/
theorem Along.exists_spread (along : Along tokens nodes) {expr : Expr}
    (listed : .expr expr ∈ nodes) :
    ∀ node ∈ expr.nodes, ∃ stretch, stretch <:+: tokens ∧ Spread stretch node := by
  obtain ⟨stretch, part, spread⟩ := along.exists_stretch _ listed
  intro node member
  obtain ⟨deeper, inner, own⟩ := Spread.exists_stretch spread node member
  exact ⟨deeper, inner.trans part, own⟩

/-- All statements of a list along tokens, at every depth, are derived from some of
them. -/
theorem Along.exists_derivesStmt (along : Along tokens nodes) {statements : List Stmt}
    (listed : statements.map .stmt ⊆ nodes) :
    ∀ node ∈ Stmt.nodesAll statements,
      ∃ stretch, stretch <:+: tokens ∧ DerivesStmt stretch node := by
  intro node member
  obtain ⟨outer, around, found⟩ := Stmt.mem_nodesAll_iff.mp member
  obtain ⟨stretch, part, derived⟩ := along.exists_stretch _ (listed (List.mem_map_of_mem around))
  obtain ⟨deeper, inner, own⟩ := DerivesStmt.exists_stretch derived node found
  exact ⟨deeper, inner.trans part, own⟩

end Grammar

/-! ## Programs -/

/-- The expression of a statement is one of its parts. -/
theorem Stmt.expr_mem_parts {statement : Stmt} {expr : Expr} (own : expr ∈ statement.expr?) :
    TreeNode.expr expr ∈ statement.parts :=
  List.mem_append_left _ (List.mem_map_of_mem (Option.mem_toList.mpr own))

/-- An expression lies along a stretch of the tokens of a source: its leaves are tokens of
the stretch and are written in the source under their spans, it reaches from the first
leaf to the last one, and its operands stand apart, the left one in front. -/
structure Expr.LaidAlong (source : Bytes) (stretch : List Token) (expr : Expr) : Prop where
  leaves : List.Forall₂ Token.Denotes (stretch.filter Token.isOperand) expr.leaves
  ends : Token.Reach (stretch.filter Token.isOperand) expr.span
  nonempty : expr.span.start.offset < expr.span.finish.offset
  written : ∀ leaf ∈ expr.leaves,
    leaf.WrittenAs (Glyph.spelling (Glyph.decode (leaf.span.bytes source)))
  operands : ∀ left operator right span, expr = .binary left operator right span →
    left.span.finish.offset < right.span.start.offset

/-- A statement lies along a stretch of tokens: it is derived from the stretch and reaches
from the first token to the last one, which is a semicolon or a brace; all that stands in
it is strictly inside; and its expression and the statements of its blocks are in order
and do not overlap. -/
structure Stmt.LaidAlong (stretch : List Token) (statement : Stmt) : Prop where
  derived : DerivesStmt stretch statement
  ends : Token.Reach stretch statement.span
  closed : stretch.getLast?.map Token.kind = some statement.closingKind
  nonempty : statement.span.start.offset < statement.span.finish.offset
  exprs : ∀ expr ∈ statement.expr?, ∀ node ∈ expr.nodes,
    node.span.StrictlyInside statement.span
  blocks : ∀ node ∈ Stmt.nodesAll statement.inner, node.span.StrictlyInside statement.span
  ordered : statement.parts.Pairwise fun part later => part.span.Before later.span

/-- The expressions and statements of a program, at every depth, lie along stretches of
the tokens of a source, and its statements are in order and do not overlap. -/
structure Program.LaidAlong (source : Bytes) (tokens : List Token) (program : Program) :
    Prop where
  expressions : ∀ node ∈ program.expressions, ∃ stretch, stretch <:+: tokens ∧
    node.LaidAlong source stretch
  statements : ∀ node ∈ program.statements, ∃ stretch, stretch <:+: tokens ∧
    node.LaidAlong stretch
  ordered : (program.map Stmt.span).Pairwise Span.Before

/-- Tokens laid on bytes are in order. -/
theorem Laid.inOrder {offset : Nat} {bytes : Bytes} {tokens : List Token}
    (laid : Laid offset bytes tokens) : Token.InOrder tokens where
  before := laid.ordered
  nonempty token member := (laid.within token member).2.1

/-- The spans in an expression follow its tokens. -/
theorem Grammar.Spread.laidAlong {source : Bytes} {stretch : List Token} {expr : Expr}
    (spread : Spread stretch expr) (inOrder : Token.InOrder stretch)
    (written : ∀ token ∈ stretch, token.Spelled ∧
      token.lexeme = Glyph.spelling (Glyph.decode (token.span.bytes source))) :
    expr.LaidAlong source stretch where
  leaves := spread.denotes_leaves
  ends := spread.reach
  nonempty := (inOrder.mono List.filter_sublist).lt_of_reach spread.reach
  written leaf member := by
    obtain ⟨token, listed, denoted⟩ := spread.exists_denotes leaf member
    obtain ⟨spelled, lexeme⟩ := written token listed
    rw [denoted.span, ← lexeme]
    exact denoted.writtenAs spelled
  operands left operator right span same := by
    subst same
    exact spread.lt_of_binary inOrder

/-- The spans in a statement follow its tokens. -/
theorem Grammar.DerivesStmt.laidAlong {stretch : List Token} {statement : Stmt}
    (derived : DerivesStmt stretch statement) (inOrder : Token.InOrder stretch) :
    statement.LaidAlong stretch := by
  obtain ⟨first, middle, last, rfl, kind, same, along⟩ := derived.exists_frame
  have within {part : List Token} {span : Span} (inner : part <:+: middle)
      (delimited : Token.Delimit part span) : span.StrictlyInside statement.span := by
    rw [same]
    exact inOrder.strictlyInside (delimited.mono inner.subset)
  refine ⟨derived, derived.reach, ?_, inOrder.lt_of_reach derived.reach, ?_, ?_,
    along.pairwise_before inOrder.middle⟩
  · rw [← List.cons_append, List.getLast?_concat, Option.map_some, kind]
  · intro expr own node member
    obtain ⟨part, inner, spread⟩ := along.exists_spread (Stmt.expr_mem_parts own) node member
    exact within inner spread.delimit
  · intro node member
    obtain ⟨part, inner, deeper⟩ :=
      along.exists_derivesStmt (List.subset_append_right _ _) node member
    exact within inner deeper.reach.delimit

/-- The tokens in front of the end of a source are laid out over its bytes and are spelled
as their kinds demand. -/
theorem exists_laid_of_tokenize {input : Input} {file : String} {tokens : List Token}
    (split : tokenize input file = .ok tokens) :
    Token.beforeEnd tokens <:+: tokens ∧ Laid 0 input.bytes (Token.beforeEnd tokens) ∧
      ∀ token ∈ Token.beforeEnd tokens, token.Spelled := by
  obtain ⟨_, fragments, decoded, readable, rfl⟩ := tokenize_eq_ok_iff.mp split
  have spelled := Fragment.spelled_of_mem_tokensFrom readable (.start file)
  rw [Token.beforeEnd_append (fun token member => (spelled token member).kind_ne_endOfInput)
    (by simp)]
  exact ⟨(List.prefix_append _ _).isInfix, Fragment.laid readable decoded rfl, spelled⟩

/-- **Spans follow the source.** Whatever source is split and parsed, every node of the
program stands where its tokens stand: spans of parts are inside of the whole and in the
order of the source, and leaves are written under their spans. -/
theorem spans_follow_source {input : Input} {file : String} {tokens : List Token}
    {program : Program} (split : tokenize input file = .ok tokens)
    (read : parse tokens = .ok program) : program.LaidAlong input.bytes tokens := by
  obtain ⟨front, laid, spelled⟩ := exists_laid_of_tokenize split
  have lexemes := @Laid.spelled 0 input.bytes _ laid [] rfl
  have along := (parse_eq_ok_iff.mp read).along
  refine ⟨?_, ?_, ?_⟩
  · intro node member
    obtain ⟨statement, around, expr, own, found⟩ := Program.mem_expressions_iff.mp member
    obtain ⟨outer, part, derived⟩ := along.exists_derivesStmt (List.Subset.refl _) statement around
    obtain ⟨first, middle, last, rfl, _, _, inside⟩ := derived.exists_frame
    obtain ⟨stretch, inner, spread⟩ := inside.exists_spread (Stmt.expr_mem_parts own) node found
    have deep : stretch <:+: Token.beforeEnd tokens :=
      (inner.trans ⟨[first], [last], rfl⟩).trans part
    refine ⟨stretch, deep.trans front, spread.laidAlong (laid.inOrder.mono deep.sublist) ?_⟩
    intro token listed
    exact ⟨spelled token (deep.subset listed), (lexemes token (deep.subset listed)).1⟩
  · intro node member
    obtain ⟨stretch, part, derived⟩ := along.exists_derivesStmt (List.Subset.refl _) node member
    exact ⟨stretch, part.trans front, derived.laidAlong (laid.inOrder.mono part.sublist)⟩
  · have ordered := along.pairwise_before laid.inOrder
    rw [List.pairwise_map] at ordered ⊢
    exact ordered

/-- Blocks in blocks, an operand between parentheses, a leading zero, and a string with a
byte that encodes no character. -/
def nestedSource : Bytes :=
  Bytes.ofString ("if(a+(2*b)-07)" ++ braceOpen ++ "print \"é") ++ 255 ::
    Bytes.ofString ("\";x=a;" ++ braceClose ++ " else " ++
      inBraces ("while(1)" ++ inBraces "x=x;") ++ "\nprint x;")

/-- Blocks in blocks, and an operand between parentheses. -/
theorem nestedSource_spans_follow_source :
    ∃ tokens program, tokenize { bytes := nestedSource } "nested.peri" = .ok tokens ∧
      parse tokens = .ok program ∧ program.statements.length = 6 ∧
      program.expressions.length = 12 ∧ program.LaidAlong nestedSource tokens := by
  have sizes : (Program.ofSource? nestedSource "nested.peri").map
      (fun program => (program.statements.length, program.expressions.length)) =
        some (6, 12) := by
    decide +kernel
  obtain ⟨program, accepted, counted⟩ := Option.map_eq_some_iff.mp sizes
  obtain ⟨tokens, split, read⟩ := Program.ofSource?_eq_some_iff.mp accepted
  exact ⟨tokens, program, split, read, congrArg Prod.fst counted, congrArg Prod.snd counted,
    spans_follow_source split read⟩

end Scriptlet
