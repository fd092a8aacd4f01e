import Scriptlet.Proofs.Syntax.Rule

/-! # The rules of the grammar give derived trees

Each rule takes tokens from which the tree that it gives is derived. None stops
because of the limits set for it, as long as each limit is above the number of
tokens that are left (`Grammar.meets_statement`).
-/

namespace Scriptlet

namespace Grammar

open Rule

private theorem meets_number {bound : Nat} {token : Token} (kind : token.kind = .integer) :
    (number token).Meets bound fun tokens value =>
      DerivesExpr .factor (token :: tokens) value := by
  unfold number
  cases denoted : Decimal.readInt64? token.lexeme.toList with
  | some value => exact .give (.number kind (Decimal.readInt64?_eq_some_iff.mp denoted))
  | none => exact .fail nofun

private theorem eq_cons_dropLast_append {α : Type} {list : List α} (long : ¬ list.length < 2) :
    ∃ first last, list = first :: (list.tail.dropLast ++ [last]) := by
  cases list with
  | nil => exact absurd (Nat.zero_lt_succ 1) long
  | cons first others =>
      have nonempty : others ≠ [] := by
        rintro rfl
        exact long (Nat.lt_succ_self 1)
      refine ⟨first, others.getLast nonempty, ?_⟩
      rw [List.tail_cons, List.dropLast_concat_getLast nonempty]

private theorem meets_string {bound : Nat} {token : Token} (kind : token.kind = .string) :
    (string token).Meets bound fun tokens value =>
      DerivesExpr .factor (token :: tokens) value := by
  unfold string
  by_cases short : (Bytes.ofString token.lexeme).length < 2
  · simp only [short, ↓reduceIte]
    exact .fail nofun
  · simp only [short, ↓reduceIte]
    obtain ⟨first, last, quoted⟩ := eq_cons_dropLast_append short
    exact .give (.string kind quoted)

/-- A factor is a literal, a variable or an expression in parentheses, given that
the rule for these reads expressions. -/
theorem meets_factor {bound : Nat} {inner : Rule Expr}
    (nested : ∀ smaller < bound, inner.Meets smaller (DerivesExpr .expression)) :
    (factor inner).Meets bound (DerivesExpr .factor) := by
  unfold factor
  refine Meets.bind (Meets.expect (by decide)) ?_
  rintro _ token nonempty ⟨rfl, member⟩
  change 1 ≤ bound at nonempty
  split
  · rename_i kind
    exact meets_number kind
  · rename_i kind
    exact meets_string kind
  · rename_i opened
    refine Meets.bind (nested _ (Nat.sub_lt nonempty Nat.one_pos)) ?_
    intro tokens value _ inside
    refine Meets.bind (Meets.expect (by decide)) ?_
    rintro _ closing _ ⟨rfl, closed⟩
    refine Meets.give ?_
    rw [List.append_nil]
    exact .parens opened inside (List.mem_singleton.mp closed)
  · rename_i notInteger notString notParen
    simp only [List.mem_cons, List.not_mem_nil, or_false] at member
    rcases member with kind | kind | kind | kind
    · exact absurd kind notInteger
    · exact .give (.identifier kind)
    · exact absurd kind notString
    · exact absurd kind notParen

/-- What follows an operand continues the chain that the operand ends. The
induction follows the limit, which is above the number of tokens left. -/
theorem meets_chainTail {operand : Rule Expr} {kinds : List TokenKind}
    {Operand Chain : List Token → Expr → Prop} (named : TokenKind.endOfInput ∉ kinds)
    (grows : ∀ {before left sign tokens right}, Chain before left → sign.kind ∈ kinds →
      Operand tokens right → Chain (before ++ sign :: tokens)
        (.binary left (operatorOf sign.kind) right (left.span.join right.span)))
    {limit bound : Nat} (enough : bound < limit) (operands : operand.Meets bound Operand)
    {before : List Token} {left : Expr} (chained : Chain before left) :
    (chainTail operand kinds limit left).Meets bound fun tokens value =>
      Chain (before ++ tokens) value := by
  induction limit generalizing bound before left with
  | zero => exact absurd enough (Nat.not_lt_zero bound)
  | succ limit ih =>
      rw [chainTail]
      refine Meets.checkTake named ?_ (Meets.give (by rwa [List.append_nil]))
      intro sign member nonempty
      refine Meets.bind (operands.mono (Nat.sub_le bound 1) fun _ _ holds => holds) ?_
      intro tokens right _ read
      have fewer : bound - 1 - tokens.length ≤ bound := by omega
      refine (ih (by omega) (operands.mono fewer fun _ _ holds => holds)
        (grows chained member read)).mono (Nat.le_refl _) ?_
      intro others value holds
      rw [List.append_assoc] at holds
      exact holds

/-- A chain of operands meets the rules for chains. -/
theorem meets_chain {operand : Rule Expr} {kinds : List TokenKind}
    {Operand Chain : List Token → Expr → Prop} (named : TokenKind.endOfInput ∉ kinds)
    (starts : ∀ {tokens value}, Operand tokens value → Chain tokens value)
    (grows : ∀ {before left sign tokens right}, Chain before left → sign.kind ∈ kinds →
      Operand tokens right → Chain (before ++ sign :: tokens)
        (.binary left (operatorOf sign.kind) right (left.span.join right.span)))
    {limit bound : Nat} (enough : bound < limit) (operands : operand.Meets bound Operand) :
    (chain operand kinds limit).Meets bound Chain := by
  unfold chain
  refine Meets.bind operands ?_
  intro tokens value _ read
  exact meets_chainTail named grows (by omega)
    (operands.mono (Nat.sub_le _ _) fun _ _ holds => holds) (starts read)

private theorem meets_term {bound limit : Nat} {inner : Rule Expr} (enough : bound < limit)
    (nested : ∀ smaller < bound, inner.Meets smaller (DerivesExpr .expression)) :
    (term inner limit).Meets bound (DerivesExpr .term) := by
  refine meets_chain (by decide) .factor ?_ enough (meets_factor nested)
  intro before left sign tokens right chained member read
  exact .product chained (product_sign_iff.mpr ⟨member, rfl⟩) read

/-- An expression is a sum of terms. Each pair of parentheses takes at least one
token, so the depth stays above the number of tokens that are left. -/
theorem meets_expression {limit depth bound : Nat} (enough : bound < limit)
    (deep : bound < depth) : (expression limit depth).Meets bound (DerivesExpr .expression) := by
  induction depth generalizing bound with
  | zero => exact absurd deep (Nat.not_lt_zero bound)
  | succ depth ih =>
      rw [expression]
      refine meets_chain (by decide) .term ?_ enough (meets_term enough ?_)
      · intro before left sign tokens right chained member read
        exact .sum chained (sum_sign_iff.mpr ⟨member, rfl⟩) read
      · intro smaller below
        exact ih (by omega) (by omega)

/-- The rule for conditions gives only what can be derived. -/
theorem meets_condition {name : String} {limit bound : Nat} (enough : bound < limit) :
    (condition name limit).Meets bound DerivesCondition := by
  unfold condition
  refine Meets.bind (Meets.expect (by decide)) ?_
  rintro _ opening _ ⟨rfl, opened⟩
  refine Meets.bind (meets_expression (by omega) (by omega)) ?_
  intro tokens value _ inside
  refine Meets.bind (Meets.expect (by decide)) ?_
  rintro _ closing _ ⟨rfl, closed⟩
  refine Meets.give ?_
  rw [List.append_nil]
  exact .parens (List.mem_singleton.mp opened) inside (List.mem_singleton.mp closed)

private theorem meets_blockTail {name : String} {inner : Rule Stmt} {limit bound : Nat}
    (enough : bound < limit) (statements : inner.Meets bound DerivesStmt) :
    (blockTail name inner limit).Meets bound fun tokens block =>
      ∃ body, tokens = body ++ [block.2] ∧ block.2.kind = .rightBrace ∧
        DerivesStmts body block.1 := by
  induction limit generalizing bound with
  | zero => exact absurd enough (Nat.not_lt_zero bound)
  | succ limit ih =>
      rw [blockTail]
      refine Meets.check ?_ ?_
      · refine Meets.bind (Meets.expect (by decide)) ?_
        rintro _ brace _ ⟨rfl, closed⟩
        exact .give ⟨[], rfl, List.mem_singleton.mp closed, .nil⟩
      · refine Meets.bind statements ?_
        intro tokens statement fitting read
        obtain ⟨first, others, rfl, _⟩ := read.head
        rw [List.length_cons] at fitting ⊢
        have fewer := statements.mono (Nat.sub_le bound (others.length + 1)) fun _ _ holds => holds
        refine Meets.bind (ih (by omega) fewer) ?_
        rintro _ ⟨rest, brace⟩ _ ⟨body, rfl, closed, behind⟩
        refine Meets.give ⟨(first :: others) ++ body, ?_, closed, .cons read behind⟩
        simp

/-- The rule for blocks gives only what can be derived. -/
theorem meets_block {name : String} {inner : Rule Stmt} {limit bound : Nat}
    (enough : bound < limit)
    (statements : ∀ smaller < bound, inner.Meets smaller DerivesStmt) :
    (block name inner limit).Meets bound fun tokens block =>
      DerivesBlock tokens block.1 block.2 := by
  unfold block
  refine Meets.bind (Meets.expect (by decide)) ?_
  rintro _ opening nonempty ⟨rfl, opened⟩
  change 1 ≤ bound at nonempty
  refine (meets_blockTail (by omega) (statements _ (Nat.sub_lt nonempty Nat.one_pos))).mono
    (Nat.le_refl _) ?_
  rintro _ ⟨rest, brace⟩ ⟨body, rfl, closed, inside⟩
  exact .braces (List.mem_singleton.mp opened) inside closed

private theorem meets_printStatement {word : Token} {limit bound : Nat} (kind : word.kind = .printWord)
    (enough : bound < limit) :
    (printStatement word limit).Meets bound fun tokens statement =>
      DerivesStmt (word :: tokens) statement := by
  unfold printStatement
  refine Meets.bind (meets_expression enough enough) ?_
  intro tokens value _ inside
  refine Meets.bind (Meets.expect (by decide)) ?_
  rintro _ stop _ ⟨rfl, stopped⟩
  refine Meets.give ?_
  rw [List.append_nil]
  exact .print kind inside (List.mem_singleton.mp stopped)

private theorem meets_assignment {name : Token} {limit bound : Nat} (kind : name.kind = .identifier)
    (enough : bound < limit) :
    (assignment name limit).Meets bound fun tokens statement =>
      DerivesStmt (name :: tokens) statement := by
  unfold assignment
  refine Meets.bind (Meets.expect (by decide)) ?_
  rintro _ sign _ ⟨rfl, assigned⟩
  refine Meets.bind (meets_expression (by omega) (by omega)) ?_
  intro tokens value _ inside
  refine Meets.bind (Meets.expect (by decide)) ?_
  rintro _ stop _ ⟨rfl, stopped⟩
  refine Meets.give ?_
  rw [List.append_nil]
  exact .assign kind (List.mem_singleton.mp assigned) inside (List.mem_singleton.mp stopped)

/-- The word `if`, a condition and a block are a statement, with or without the
word `else` and another block. -/
theorem meets_ifStatement {word : Token} {inner : Rule Stmt} {limit bound : Nat}
    (kind : word.kind = .ifWord) (enough : bound < limit)
    (statements : ∀ smaller ≤ bound, inner.Meets smaller DerivesStmt) :
    (ifStatement word inner limit).Meets bound fun tokens statement =>
      DerivesStmt (word :: tokens) statement := by
  unfold ifStatement
  refine Meets.bind (meets_condition enough) ?_
  intro test condition _ tested
  refine Meets.bind (meets_block (by omega) fun smaller below => statements smaller (by omega)) ?_
  rintro body ⟨first, middle⟩ _ block
  refine Meets.checkTake (by decide) ?_ (Meets.give ?_)
  · intro other alternative _
    refine Meets.bind (meets_block (by omega) fun smaller below => statements smaller (by omega)) ?_
    rintro rest ⟨second, brace⟩ _ otherwise
    refine Meets.give ?_
    rw [List.append_nil]
    exact .ifElse kind tested block (List.mem_singleton.mp alternative) otherwise
  · rw [List.append_nil]
    exact .ifThen kind tested block

private theorem meets_whileStatement {word : Token} {inner : Rule Stmt} {limit bound : Nat}
    (kind : word.kind = .whileWord) (enough : bound < limit)
    (statements : ∀ smaller ≤ bound, inner.Meets smaller DerivesStmt) :
    (whileStatement word inner limit).Meets bound fun tokens statement =>
      DerivesStmt (word :: tokens) statement := by
  unfold whileStatement
  refine Meets.bind (meets_condition enough) ?_
  intro test condition _ tested
  refine Meets.bind (meets_block (by omega) fun smaller below => statements smaller (by omega)) ?_
  rintro body ⟨first, brace⟩ _ block
  refine Meets.give ?_
  rw [List.append_nil]
  exact .whileDo kind tested block

/-- A statement is told by its first token. Each pair of braces stands behind such
a token, so the depth stays above the number of tokens that are left. -/
theorem meets_statement {limit depth bound : Nat} (enough : bound < limit)
    (deep : bound < depth) : (statement limit depth).Meets bound DerivesStmt := by
  induction depth generalizing bound with
  | zero => exact absurd deep (Nat.not_lt_zero bound)
  | succ depth ih =>
      rw [statement]
      refine Meets.bind (Meets.expect (by decide)) ?_
      rintro _ token nonempty ⟨rfl, member⟩
      change 1 ≤ bound at nonempty
      have inner : ∀ smaller ≤ bound - 1, (statement limit depth).Meets smaller DerivesStmt := by
        intro smaller below
        exact ih (by omega) (by omega)
      have fewer : bound - [token].length < limit := by
        rw [List.length_singleton]
        omega
      split
      · rename_i kind
        exact meets_printStatement kind fewer
      · rename_i kind
        exact meets_ifStatement kind fewer inner
      · rename_i kind
        exact meets_whileStatement kind fewer inner
      · rename_i notPrint notIf notWhile
        simp only [List.mem_cons, List.not_mem_nil, or_false] at member
        rcases member with kind | kind | kind | kind
        · exact absurd kind notPrint
        · exact meets_assignment kind fewer
        · exact absurd kind notIf
        · exact absurd kind notWhile

/-- A program is a list of statements. -/
theorem meets_program {inner : Rule Stmt} {limit bound : Nat} (enough : bound < limit)
    (statements : inner.Meets bound DerivesStmt) :
    (program inner limit).Meets bound DerivesStmts := by
  induction limit generalizing bound with
  | zero => exact absurd enough (Nat.not_lt_zero bound)
  | succ limit ih =>
      rw [program]
      refine Meets.check (Meets.give .nil) ?_
      refine Meets.bind statements ?_
      intro tokens statement fitting read
      obtain ⟨first, others, rfl, _⟩ := read.head
      rw [List.length_cons] at fitting ⊢
      have fewer := statements.mono (Nat.sub_le bound (others.length + 1)) fun _ _ holds => holds
      refine Meets.bind (ih (by omega) fewer) ?_
      intro body rest _ behind
      refine Meets.give ?_
      rw [List.append_nil]
      exact .cons read behind

/-- A program that was read stops at the end of the input. -/
theorem program_stops {inner : Rule Stmt} {limit : Nat} {stream next : TokenStream}
    {statements : Program} (read : program inner limit stream = (.ok statements, next)) :
    next.peek.kind = .endOfInput := by
  induction limit generalizing stream statements with
  | zero => exact nomatch read
  | succ limit ih =>
      rw [program, check_bind_apply] at read
      by_cases ended : stream.peekIs [.endOfInput]
      · rw [if_pos ended] at read
        cases read
        exact List.mem_singleton.mp (TokenStream.peekIs_iff.mp ended)
      · rw [if_neg ended, Rule.bind_apply] at read
        cases first : inner stream with
        | mk result behind =>
            rw [first] at read
            cases result with
            | error failure => exact nomatch read
            | ok statement =>
                simp only [Rule.bind_apply] at read
                cases others : program inner limit behind with
                | mk result last =>
                    rw [others] at read
                    cases result with
                    | error failure => exact nomatch read
                    | ok rest =>
                        cases read
                        exact ih others

end Grammar

end Scriptlet
