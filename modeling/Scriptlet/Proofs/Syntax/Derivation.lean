import Scriptlet.Proofs.Text.Decimal
import Scriptlet.Syntax.Parser

/-! # Derivations of trees from tokens

The grammar as relations between lists of tokens and the trees that they spell.
A chain of operators derives the tree that groups to the left, which is said by
letting the chain before an operator be its left operand. Every node stands where
its first and last tokens stand; parentheses are no part of a node.
-/

namespace Scriptlet

namespace Grammar

/-- The rules for expressions, from the loosest to the tightest. -/
inductive Level where
  | expression
  | term
  | factor
deriving DecidableEq, Repr

/-- The expressions that tokens spell, rule by rule. -/
inductive DerivesExpr : Level → List Token → Expr → Prop
  | number {token : Token} {value : Int64} (kind : token.kind = .integer)
      (denoted : Decimal.Literal token.lexeme.toList value.toInt) :
      DerivesExpr .factor [token] (.number value token.span)
  | identifier {token : Token} (kind : token.kind = .identifier) :
      DerivesExpr .factor [token] (.variableRef token.lexeme token.span)
  | string {token : Token} {first last : UInt8} {value : Bytes} (kind : token.kind = .string)
      (quoted : Bytes.ofString token.lexeme = first :: (value ++ [last])) :
      DerivesExpr .factor [token] (.string value token.span)
  | parens {opening closing : Token} {inner : List Token} {value : Expr}
      (opened : opening.kind = .leftParen) (inside : DerivesExpr .expression inner value)
      (closed : closing.kind = .rightParen) :
      DerivesExpr .factor (opening :: (inner ++ [closing])) value
  | factor {tokens : List Token} {value : Expr} (single : DerivesExpr .factor tokens value) :
      DerivesExpr .term tokens value
  | product {left right : List Token} {sign : Token} {first second : Expr} {operator : Operator}
      (before : DerivesExpr .term left first)
      (meaning : (sign.kind, operator) ∈ [(TokenKind.star, Operator.mul), (.slash, .div)])
      (behind : DerivesExpr .factor right second) :
      DerivesExpr .term (left ++ sign :: right)
        (.binary first operator second (first.span.join second.span))
  | term {tokens : List Token} {value : Expr} (single : DerivesExpr .term tokens value) :
      DerivesExpr .expression tokens value
  | sum {left right : List Token} {sign : Token} {first second : Expr} {operator : Operator}
      (before : DerivesExpr .expression left first)
      (meaning : (sign.kind, operator) ∈ [(TokenKind.plus, Operator.add), (.minus, .sub)])
      (behind : DerivesExpr .term right second) :
      DerivesExpr .expression (left ++ sign :: right)
        (.binary first operator second (first.span.join second.span))

/-- The expressions that tokens spell between parentheses. -/
inductive DerivesCondition : List Token → Expr → Prop
  | parens {opening closing : Token} {inner : List Token} {value : Expr}
      (opened : opening.kind = .leftParen) (inside : DerivesExpr .expression inner value)
      (closed : closing.kind = .rightParen) :
      DerivesCondition (opening :: (inner ++ [closing])) value

mutual

/-- The statement that tokens spell. -/
inductive DerivesStmt : List Token → Stmt → Prop
  | print {word stop : Token} {tokens : List Token} {value : Expr}
      (kind : word.kind = .printWord) (inside : DerivesExpr .expression tokens value)
      (stopped : stop.kind = .semicolon) :
      DerivesStmt (word :: (tokens ++ [stop])) (.print value (word.span.join stop.span))
  | assign {name sign stop : Token} {tokens : List Token} {value : Expr}
      (kind : name.kind = .identifier) (assigned : sign.kind = .equals)
      (inside : DerivesExpr .expression tokens value) (stopped : stop.kind = .semicolon) :
      DerivesStmt (name :: sign :: (tokens ++ [stop]))
        (.assign name.lexeme value (name.span.join stop.span))
  | ifThen {word brace : Token} {test inner : List Token} {condition : Expr} {body : List Stmt}
      (kind : word.kind = .ifWord) (tested : DerivesCondition test condition)
      (block : DerivesBlock inner body brace) :
      DerivesStmt (word :: (test ++ inner)) (.ifThen condition body (word.span.join brace.span))
  | ifElse {word other middle brace : Token} {test inner outer : List Token} {condition : Expr}
      {body otherwise : List Stmt} (kind : word.kind = .ifWord)
      (tested : DerivesCondition test condition) (block : DerivesBlock inner body middle)
      (alternative : other.kind = .elseWord) (second : DerivesBlock outer otherwise brace) :
      DerivesStmt (word :: (test ++ (inner ++ other :: outer)))
        (.ifElse condition body otherwise (word.span.join brace.span))
  | whileDo {word brace : Token} {test inner : List Token} {condition : Expr} {body : List Stmt}
      (kind : word.kind = .whileWord) (tested : DerivesCondition test condition)
      (block : DerivesBlock inner body brace) :
      DerivesStmt (word :: (test ++ inner)) (.whileDo condition body (word.span.join brace.span))

/-- The statements that tokens spell between braces, and the closing brace. -/
inductive DerivesBlock : List Token → List Stmt → Token → Prop
  | braces {opening closing : Token} {inner : List Token} {body : List Stmt}
      (opened : opening.kind = .leftBrace) (inside : DerivesStmts inner body)
      (closed : closing.kind = .rightBrace) :
      DerivesBlock (opening :: (inner ++ [closing])) body closing

/-- The statements that tokens spell one after another. A program is such a
list. -/
inductive DerivesStmts : List Token → List Stmt → Prop
  | nil : DerivesStmts [] []
  | cons {first others : List Token} {statement : Stmt} {rest : List Stmt}
      (head : DerivesStmt first statement) (tail : DerivesStmts others rest) :
      DerivesStmts (first ++ others) (statement :: rest)

end

/-- An expression has at least one token. -/
theorem DerivesExpr.ne_nil {level : Level} {tokens : List Token} {value : Expr}
    (derived : DerivesExpr level tokens value) : tokens ≠ [] := by
  induction derived with
  | number => exact List.cons_ne_nil _ _
  | identifier => exact List.cons_ne_nil _ _
  | string => exact List.cons_ne_nil _ _
  | parens => exact List.cons_ne_nil _ _
  | factor single ih => exact ih
  | product before meaning behind ih _ => simp
  | term single ih => exact ih
  | sum before meaning behind ih _ => simp

/-- Signs and the operators they stand for. -/
theorem sign_iff (kinds : List TokenKind) {kind : TokenKind} {operator : Operator} :
    (kind, operator) ∈ kinds.map (fun sign => (sign, operatorOf sign)) ↔
      kind ∈ kinds ∧ operator = operatorOf kind := by
  rw [List.mem_map]
  constructor
  · rintro ⟨sign, member, same⟩
    cases same
    exact ⟨member, rfl⟩
  · rintro ⟨member, rfl⟩
    exact ⟨kind, member, rfl⟩

/-- The signs of products and what they stand for. -/
theorem product_sign_iff {kind : TokenKind} {operator : Operator} :
    (kind, operator) ∈ [(TokenKind.star, Operator.mul), (.slash, .div)] ↔
      kind ∈ [TokenKind.star, .slash] ∧ operator = operatorOf kind :=
  sign_iff [.star, .slash]

/-- The signs of sums and what they stand for. -/
theorem sum_sign_iff {kind : TokenKind} {operator : Operator} :
    (kind, operator) ∈ [(TokenKind.plus, Operator.add), (.minus, .sub)] ↔
      kind ∈ [TokenKind.plus, .minus] ∧ operator = operatorOf kind :=
  sign_iff [.plus, .minus]

/-- A token of one of some kinds is not the end of the input, if none of them
is. -/
theorem kind_ne_endOfInput_of_mem {kinds : List TokenKind} {token : Token}
    (member : token.kind ∈ kinds) (named : TokenKind.endOfInput ∉ kinds) :
    token.kind ≠ .endOfInput := by
  intro ended
  rw [ended] at member
  exact named member

/-- The end of the input is in no expression. -/
theorem DerivesExpr.kind_ne_endOfInput {level : Level} {tokens : List Token} {value : Expr}
    (derived : DerivesExpr level tokens value) :
    ∀ token ∈ tokens, token.kind ≠ .endOfInput := by
  induction derived with
  | number kind denoted => simp [kind]
  | identifier kind => simp [kind]
  | string kind quoted => simp [kind]
  | parens opened inside closed ih =>
      simp only [List.forall_mem_cons, List.forall_mem_append]
      exact ⟨by simp [opened], ih, by simp [closed], by simp⟩
  | factor single ih => exact ih
  | product before meaning behind ihBefore ihBehind =>
      simp only [List.forall_mem_cons, List.forall_mem_append]
      exact ⟨ihBefore, kind_ne_endOfInput_of_mem (product_sign_iff.mp meaning).1 (by decide),
        ihBehind⟩
  | term single ih => exact ih
  | sum before meaning behind ihBefore ihBehind =>
      simp only [List.forall_mem_cons, List.forall_mem_append]
      exact ⟨ihBefore, kind_ne_endOfInput_of_mem (sum_sign_iff.mp meaning).1 (by decide), ihBehind⟩

/-- The end of the input is in no condition. -/
theorem DerivesCondition.kind_ne_endOfInput {tokens : List Token} {value : Expr}
    (derived : DerivesCondition tokens value) :
    ∀ token ∈ tokens, token.kind ≠ .endOfInput := by
  cases derived with
  | parens opened inside closed =>
      exact (DerivesExpr.parens opened inside closed).kind_ne_endOfInput

mutual

/-- The end of the input is in no statement. -/
theorem DerivesStmt.kind_ne_endOfInput {tokens : List Token} {statement : Stmt} :
    DerivesStmt tokens statement → ∀ token ∈ tokens, token.kind ≠ .endOfInput
  | .print kind inside stopped => by
      simp only [List.forall_mem_cons, List.forall_mem_append]
      exact ⟨by simp [kind], inside.kind_ne_endOfInput, by simp [stopped], by simp⟩
  | .assign kind assigned inside stopped => by
      simp only [List.forall_mem_cons, List.forall_mem_append]
      exact ⟨by simp [kind], by simp [assigned], inside.kind_ne_endOfInput, by simp [stopped],
        by simp⟩
  | .ifThen kind tested block => by
      simp only [List.forall_mem_cons, List.forall_mem_append]
      exact ⟨by simp [kind], tested.kind_ne_endOfInput, block.kind_ne_endOfInput⟩
  | .ifElse kind tested block alternative second => by
      simp only [List.forall_mem_cons, List.forall_mem_append]
      exact ⟨by simp [kind], tested.kind_ne_endOfInput, block.kind_ne_endOfInput,
        by simp [alternative], second.kind_ne_endOfInput⟩
  | .whileDo kind tested block => by
      simp only [List.forall_mem_cons, List.forall_mem_append]
      exact ⟨by simp [kind], tested.kind_ne_endOfInput, block.kind_ne_endOfInput⟩

/-- The end of the input is in no block. -/
theorem DerivesBlock.kind_ne_endOfInput {tokens : List Token} {body : List Stmt} {brace : Token} :
    DerivesBlock tokens body brace → ∀ token ∈ tokens, token.kind ≠ .endOfInput
  | .braces opened inside closed => by
      simp only [List.forall_mem_cons, List.forall_mem_append]
      exact ⟨by simp [opened], inside.kind_ne_endOfInput, by simp [closed], by simp⟩

/-- The end of the input is not among statements. -/
theorem DerivesStmts.kind_ne_endOfInput {tokens : List Token} {statements : List Stmt} :
    DerivesStmts tokens statements → ∀ token ∈ tokens, token.kind ≠ .endOfInput
  | .nil => by simp
  | .cons head tail => by
      simp only [List.forall_mem_append]
      exact ⟨head.kind_ne_endOfInput, tail.kind_ne_endOfInput⟩

end

/-- A statement starts with its word or with the name that it assigns. -/
theorem DerivesStmt.head {tokens : List Token} {statement : Stmt}
    (derived : DerivesStmt tokens statement) :
    ∃ first others, tokens = first :: others ∧
      first.kind ∈ [TokenKind.printWord, .identifier, .ifWord, .whileWord] := by
  cases derived with
  | print kind => exact ⟨_, _, rfl, by simp [kind]⟩
  | assign kind => exact ⟨_, _, rfl, by simp [kind]⟩
  | ifThen kind => exact ⟨_, _, rfl, by simp [kind]⟩
  | ifElse kind => exact ⟨_, _, rfl, by simp [kind]⟩
  | whileDo kind => exact ⟨_, _, rfl, by simp [kind]⟩

/-- A statement has at least one token. -/
theorem DerivesStmt.ne_nil {tokens : List Token} {statement : Stmt}
    (derived : DerivesStmt tokens statement) : tokens ≠ [] := by
  obtain ⟨first, others, rfl, _⟩ := derived.head
  exact List.cons_ne_nil first others

end Grammar

end Scriptlet
