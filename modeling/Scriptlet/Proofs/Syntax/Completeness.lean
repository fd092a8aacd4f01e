import Scriptlet.Proofs.Syntax.Soundness

/-! # The rules of the grammar accept derived trees

On a stream that starts with tokens from which a tree is derived, and goes on
with a token that cannot continue it, the rule for the tree takes exactly these
tokens and gives exactly this tree.
-/

namespace Scriptlet

namespace Rule

variable {α β : Type}

/-- Behind a rule that gave a value, the next one goes on. -/
theorem bind_of_ok {first : Rule α} {second : α → Rule β} {stream next : TokenStream} {value : α}
    (given : first stream = (.ok value, next)) :
    (first >>= second) stream = second value next := by
  rw [bind_apply, given]

/-- A token of an expected kind is taken. -/
theorem expect_push {name : String} {kinds : List TokenKind} {token : Token}
    (member : token.kind ∈ kinds) (named : TokenKind.endOfInput ∉ kinds) (tokens : List Token)
    (stream : TokenStream) :
    expect name kinds (stream.push (token :: tokens)) = (.ok token, stream.push tokens) := by
  have going := Grammar.kind_ne_endOfInput_of_mem member named
  simp only [expect, TokenStream.peek_push_cons, List.contains_iff_mem, member, ↓reduceIte,
    TokenStream.advance_push_cons going]

/-- A token of a kind that is looked for is taken. -/
theorem check_take_push {kinds : List TokenKind} {token : Token} {yes : Token → Rule α}
    {no : Rule α} (member : token.kind ∈ kinds) (named : TokenKind.endOfInput ∉ kinds)
    (tokens : List Token) (stream : TokenStream) :
    (check kinds >>= fun found => if found then take >>= yes else no)
        (stream.push (token :: tokens)) = yes token (stream.push tokens) := by
  have going := Grammar.kind_ne_endOfInput_of_mem member named
  have found : (stream.push (token :: tokens)).peekIs kinds = true :=
    TokenStream.peekIs_iff.mpr member
  rw [check_bind_apply, if_pos found]
  change yes token (stream.push (token :: tokens)).advance = _
  rw [TokenStream.advance_push_cons going]

/-- A look for other kinds than the next one fails. -/
theorem check_of_not_mem {kinds : List TokenKind} {stream : TokenStream} {yes no : Rule α}
    (absent : stream.peek.kind ∉ kinds) :
    (check kinds >>= fun found => if found then yes else no) stream = no stream := by
  have missed : ¬ stream.peekIs kinds = true := by
    intro found
    exact absent (TokenStream.peekIs_iff.mp found)
  rw [check_bind_apply, if_neg missed]

/-- A look for the kind of the next token succeeds. -/
theorem check_of_mem {kinds : List TokenKind} {stream : TokenStream} {yes no : Rule α}
    (member : stream.peek.kind ∈ kinds) :
    (check kinds >>= fun found => if found then yes else no) stream = yes stream := by
  rw [check_bind_apply, if_pos (TokenStream.peekIs_iff.mpr member)]

end Rule

namespace Grammar

open Rule

/-- A token of one kind is none of some others. -/
theorem peek_push_not_mem {token : Token} {kind : TokenKind} {kinds : List TokenKind}
    (same : token.kind = kind) (other : kind ∉ kinds) (tokens : List Token)
    (stream : TokenStream) : (stream.push (token :: tokens)).peek.kind ∉ kinds := by
  rw [TokenStream.peek_push_cons, same]
  exact other

/-- A chain ends where no operator follows. -/
theorem chainTail_stop {operand : Rule Expr} {kinds : List TokenKind} {limit : Nat}
    {stream : TokenStream} (enough : 0 < limit) (stops : stream.peek.kind ∉ kinds) (left : Expr) :
    chainTail operand kinds limit left stream = (.ok left, stream) := by
  obtain ⟨limit, rfl⟩ := Nat.exists_eq_add_of_lt enough
  rw [Nat.zero_add, chainTail, check_of_not_mem stops]
  rfl

/-- A chain goes on with an operator and an operand. -/
theorem chainTail_push {operand : Rule Expr} {kinds : List TokenKind} {limit : Nat}
    {stream : TokenStream} {sign : Token} {tokens : List Token} {right : Expr}
    (member : sign.kind ∈ kinds) (named : TokenKind.endOfInput ∉ kinds)
    (read : operand (stream.push tokens) = (.ok right, stream)) (left : Expr) :
    chainTail operand kinds (limit + 1) left (stream.push (sign :: tokens)) =
      chainTail operand kinds limit
        (.binary left (operatorOf sign.kind) right (left.span.join right.span)) stream := by
  rw [chainTail, check_take_push member named, bind_of_ok read]

/-- What the rules make of tokens from which an expression is derived. A factor is
taken whole. A term or an expression may be continued by what follows, so for
these the loop over operators is said to get as far as the end of the tokens, with
enough of its limit left. -/
def Accepts : Level → List Token → Expr → Prop
  | .factor, tokens, value => ∀ (stream : TokenStream) (limit depth : Nat),
      tokens.length ≤ limit → tokens.length ≤ depth + 1 →
        factor (expression limit depth) (stream.push tokens) = (.ok value, stream)
  | .term, tokens, value => ∀ (stream : TokenStream) (limit depth fuel : Nat),
      tokens.length ≤ limit → tokens.length ≤ depth + 1 → tokens.length ≤ fuel →
        ∃ left, fuel < left + tokens.length ∧
          chain (factor (expression limit depth)) [.star, .slash] fuel (stream.push tokens) =
            chainTail (factor (expression limit depth)) [.star, .slash] left value stream
  | .expression, tokens, value => ∀ (stream : TokenStream) (limit depth fuel : Nat),
      tokens.length ≤ limit → tokens.length ≤ depth + 1 → tokens.length ≤ fuel →
        stream.peek.kind ∉ [TokenKind.star, .slash] →
          ∃ left, fuel < left + tokens.length ∧
            chain (term (expression limit depth) limit) [.plus, .minus] fuel (stream.push tokens) =
              chainTail (term (expression limit depth) limit) [.plus, .minus] left value stream

/-- An accepted expression is taken whole where no operator follows. -/
theorem Accepts.expression_push {tokens : List Token} {value : Expr}
    (accepted : Accepts .expression tokens value) (nonempty : tokens ≠ []) {limit depth : Nat}
    (enough : tokens.length ≤ limit) (deep : tokens.length ≤ depth) {stream : TokenStream}
    (stops : stream.peek.kind ∉ [TokenKind.star, .slash] ++ [.plus, .minus]) :
    expression limit depth (stream.push tokens) = (.ok value, stream) := by
  have positive := List.length_pos_iff.mpr nonempty
  obtain ⟨depth, rfl⟩ := Nat.exists_eq_add_of_lt (Nat.lt_of_lt_of_le positive deep)
  rw [Nat.zero_add] at deep ⊢
  have noProduct : stream.peek.kind ∉ [TokenKind.star, .slash] :=
    fun member => stops (List.mem_append_left _ member)
  have noSum : stream.peek.kind ∉ [TokenKind.plus, .minus] :=
    fun member => stops (List.mem_append_right _ member)
  obtain ⟨left, spare, read⟩ := accepted stream limit depth limit enough deep enough noProduct
  rw [expression, read]
  exact chainTail_stop (by omega) noSum value

/-- A term that is accepted is read by the rule for terms. -/
theorem Accepts.term_push {tokens : List Token} {value : Expr}
    (accepted : Accepts .term tokens value) {limit depth : Nat} (enough : tokens.length ≤ limit)
    (deep : tokens.length ≤ depth + 1) {stream : TokenStream}
    (stops : stream.peek.kind ∉ [TokenKind.star, .slash]) :
    term (expression limit depth) limit (stream.push tokens) = (.ok value, stream) := by
  obtain ⟨left, spare, read⟩ := accepted stream limit depth limit enough deep enough
  rw [term, read]
  exact chainTail_stop (by omega) stops value

private theorem number_of_literal {token : Token} {value : Int64}
    (denoted : Decimal.Literal token.lexeme.toList value.toInt) (stream : TokenStream) :
    number token stream = (.ok (.number value token.span), stream) := by
  rw [number, Decimal.readInt64?_eq_some_iff.mpr denoted]
  rfl

private theorem string_of_quoted {token : Token} {first last : UInt8} {value : Bytes}
    (quoted : Bytes.ofString token.lexeme = first :: (value ++ [last])) (stream : TokenStream) :
    string token stream = (.ok (.string value token.span), stream) := by
  have long : ¬ (first :: (value ++ [last])).length < 2 := by simp
  have inner : (first :: (value ++ [last])).tail.dropLast = value := by simp
  simp only [string, quoted, long, ↓reduceIte, inner, pure_apply]

/-- **Derived expressions are accepted.** The induction follows the derivation;
in front of an operator the chain before it has been read, and the operator
decides that the loop goes on. -/
theorem DerivesExpr.accepts {level : Level} {tokens : List Token} {value : Expr}
    (derived : DerivesExpr level tokens value) : Accepts level tokens value := by
  induction derived with
  | number kind denoted =>
      intro stream limit depth _ _
      rw [Grammar.factor, bind_of_ok (expect_push (by simp [kind]) (by decide) _ _)]
      simp only [kind]
      exact number_of_literal denoted stream
  | identifier kind =>
      intro stream limit depth _ _
      rw [Grammar.factor, bind_of_ok (expect_push (by simp [kind]) (by decide) _ _)]
      simp only [kind]
      rfl
  | string kind quoted =>
      intro stream limit depth _ _
      rw [Grammar.factor, bind_of_ok (expect_push (by simp [kind]) (by decide) _ _)]
      simp only [kind]
      exact string_of_quoted quoted stream
  | @parens opening closing inner value opened inside closed ih =>
      intro stream limit depth enough deep
      simp only [List.length_cons, List.length_append, List.length_nil] at enough deep
      have read : expression limit depth ((stream.push [closing]).push inner) =
          (.ok value, stream.push [closing]) :=
        ih.expression_push inside.ne_nil (by omega) (by omega)
          (peek_push_not_mem closed (by decide) _ _)
      rw [Grammar.factor, bind_of_ok (expect_push (by simp [opened]) (by decide) _ _)]
      simp only [opened, TokenStream.push_append]
      rw [bind_of_ok read, bind_of_ok (expect_push (by simp [closed]) (by decide) _ _)]
      rfl
  | factor single ih =>
      intro stream limit depth fuel enough deep _
      refine ⟨fuel, ?_, ?_⟩
      · have positive := List.length_pos_iff.mpr single.ne_nil
        omega
      · rw [chain, bind_of_ok (ih stream limit depth enough deep)]
  | @product left right sign first second operator before meaning behind ihBefore ihBehind =>
      intro stream limit depth fuel enough deep fitting
      obtain ⟨member, rfl⟩ := product_sign_iff.mp meaning
      rw [List.length_append, List.length_cons] at enough deep fitting ⊢
      obtain ⟨spare, remaining, read⟩ :=
        ihBefore (stream.push (sign :: right)) limit depth fuel (by omega) (by omega) (by omega)
      obtain ⟨spare, rfl⟩ : ∃ fewer, spare = fewer + 1 := ⟨spare - 1, by omega⟩
      refine ⟨spare, by omega, ?_⟩
      rw [TokenStream.push_append, read]
      exact chainTail_push member (by decide) (ihBehind stream limit depth (by omega) (by omega)) _
  | term single ih =>
      intro stream limit depth fuel enough deep _ stops
      refine ⟨fuel, ?_, ?_⟩
      · have positive := List.length_pos_iff.mpr single.ne_nil
        omega
      · rw [chain, bind_of_ok (ih.term_push enough deep stops)]
  | @sum left right sign first second operator before meaning behind ihBefore ihBehind =>
      intro stream limit depth fuel enough deep fitting stops
      obtain ⟨member, rfl⟩ := sum_sign_iff.mp meaning
      rw [List.length_append, List.length_cons] at enough deep fitting ⊢
      have noProduct : (stream.push (sign :: right)).peek.kind ∉ [TokenKind.star, .slash] := by
        rw [TokenStream.peek_push_cons]
        intro product
        simp only [List.mem_cons, List.not_mem_nil, or_false] at member product
        rcases member with kind | kind <;> rw [kind] at product <;> simp at product
      obtain ⟨spare, remaining, read⟩ := ihBefore (stream.push (sign :: right)) limit depth fuel
        (by omega) (by omega) (by omega) noProduct
      obtain ⟨spare, rfl⟩ : ∃ fewer, spare = fewer + 1 := ⟨spare - 1, by omega⟩
      refine ⟨spare, by omega, ?_⟩
      rw [TokenStream.push_append, read]
      exact chainTail_push member (by decide) (ihBehind.term_push (by omega) (by omega) stops) _

/-- An expression that is derived is read by the rule for expressions. -/
theorem DerivesExpr.expression_push {tokens : List Token} {value : Expr}
    (derived : DerivesExpr .expression tokens value) {limit depth : Nat}
    (enough : tokens.length ≤ limit) (deep : tokens.length ≤ depth) {stream : TokenStream}
    (stops : stream.peek.kind ∉ [TokenKind.star, .slash] ++ [.plus, .minus]) :
    expression limit depth (stream.push tokens) = (.ok value, stream) :=
  derived.accepts.expression_push derived.ne_nil enough deep stops

/-- A condition that is derived is read by the rule for conditions. -/
theorem DerivesCondition.condition_push {tokens : List Token} {value : Expr}
    (derived : DerivesCondition tokens value) {limit : Nat} (enough : tokens.length ≤ limit)
    (name : String) (stream : TokenStream) :
    condition name limit (stream.push tokens) = (.ok value, stream) := by
  cases derived with
  | @parens opening closing inner _ opened inside closed =>
      simp only [List.length_cons, List.length_append, List.length_nil] at enough
      have read : expression limit limit ((stream.push [closing]).push inner) =
          (.ok value, stream.push [closing]) :=
        inside.expression_push (by omega) (by omega) (peek_push_not_mem closed (by decide) _ _)
      rw [condition, bind_of_ok (expect_push (by simp [opened]) (by decide) _ _),
        TokenStream.push_append, bind_of_ok read,
        bind_of_ok (expect_push (by simp [closed]) (by decide) _ _)]
      rfl

/-- A statement in front of a stream starts with none of some kinds, if these start
no statement. -/
theorem DerivesStmt.peek_push_not_mem {tokens : List Token} {statement : Stmt}
    (derived : DerivesStmt tokens statement) {kinds : List TokenKind}
    (others : ∀ kind ∈ [TokenKind.printWord, .identifier, .ifWord, .whileWord], kind ∉ kinds)
    (stream : TokenStream) : (stream.push tokens).peek.kind ∉ kinds := by
  obtain ⟨first, tail, rfl, member⟩ := derived.head
  rw [TokenStream.peek_push_cons]
  exact others first.kind member

/-- Where the token behind some statements is no `else`, the one in front of them
is none either. -/
theorem DerivesStmts.peek_ne_elseWord {tokens : List Token} {statements : List Stmt}
    (derived : DerivesStmts tokens statements) {stream : TokenStream}
    (ends : stream.peek.kind ≠ .elseWord) : (stream.push tokens).peek.kind ≠ .elseWord := by
  cases derived with
  | nil => exact ends
  | @cons first others statement rest head tail =>
      have starts : ((stream.push others).push first).peek.kind ∉ [TokenKind.elseWord] :=
        head.peek_push_not_mem (by decide) (stream.push others)
      rw [TokenStream.push_append]
      exact fun same => starts (List.mem_singleton.mpr same)

mutual

/-- **Derived statements are accepted,** where no `else` follows. -/
theorem DerivesStmt.statement_push {tokens : List Token} {statement : Stmt} :
    DerivesStmt tokens statement → ∀ (limit depth : Nat) (stream : TokenStream),
      tokens.length ≤ limit → tokens.length ≤ depth → stream.peek.kind ≠ .elseWord →
        Grammar.statement limit depth (stream.push tokens) = (.ok statement, stream)
  | derived, limit, 0, stream, _, deep, _ => by
      obtain ⟨first, others, rfl, _⟩ := derived.head
      exact absurd deep (Nat.not_succ_le_zero _)
  | @DerivesStmt.print word stop inner value kind inside stopped, limit, depth + 1, stream,
      enough, deep, _ => by
      simp only [List.length_cons, List.length_append, List.length_nil] at enough
      have read : expression limit limit ((stream.push [stop]).push inner) =
          (.ok value, stream.push [stop]) :=
        inside.expression_push (by omega) (by omega) (peek_push_not_mem stopped (by decide) _ _)
      rw [Grammar.statement, bind_of_ok (expect_push (by simp [kind]) (by decide) _ _)]
      simp only [kind, printStatement, TokenStream.push_append]
      rw [bind_of_ok read, bind_of_ok (expect_push (by simp [stopped]) (by decide) _ _)]
      rfl
  | @DerivesStmt.assign name sign stop inner value kind assigned inside stopped, limit, depth + 1,
      stream, enough, deep, _ => by
      simp only [List.length_cons, List.length_append, List.length_nil] at enough
      have read : expression limit limit ((stream.push [stop]).push inner) =
          (.ok value, stream.push [stop]) :=
        inside.expression_push (by omega) (by omega) (peek_push_not_mem stopped (by decide) _ _)
      rw [Grammar.statement, bind_of_ok (expect_push (by simp [kind]) (by decide) _ _)]
      simp only [kind, assignment]
      rw [bind_of_ok (expect_push (by simp [assigned]) (by decide) _ _), TokenStream.push_append,
        bind_of_ok read, bind_of_ok (expect_push (by simp [stopped]) (by decide) _ _)]
      rfl
  | .ifThen kind tested block, limit, depth + 1, stream, enough, deep, follows => by
      simp only [List.length_cons, List.length_append] at enough deep
      rw [Grammar.statement, bind_of_ok (expect_push (by simp [kind]) (by decide) _ _)]
      simp only [kind, ifStatement, TokenStream.push_append]
      rw [bind_of_ok (tested.condition_push (by omega) _ _),
        bind_of_ok (block.block_push limit depth _ stream (by omega) (by omega))]
      simp only
      rw [check_of_not_mem (by simpa using follows)]
      rfl
  | .ifElse kind tested block alternative second, limit, depth + 1, stream, enough, deep, _ => by
      simp only [List.length_cons, List.length_append] at enough deep
      rw [Grammar.statement, bind_of_ok (expect_push (by simp [kind]) (by decide) _ _)]
      simp only [kind, ifStatement, TokenStream.push_append]
      rw [bind_of_ok (tested.condition_push (by omega) _ _),
        bind_of_ok (block.block_push limit depth _ _ (by omega) (by omega))]
      simp only
      rw [check_take_push (by simp [alternative]) (by decide),
        bind_of_ok (second.block_push limit depth _ stream (by omega) (by omega))]
      rfl
  | .whileDo kind tested block, limit, depth + 1, stream, enough, deep, _ => by
      simp only [List.length_cons, List.length_append] at enough deep
      rw [Grammar.statement, bind_of_ok (expect_push (by simp [kind]) (by decide) _ _)]
      simp only [kind, whileStatement, TokenStream.push_append]
      rw [bind_of_ok (tested.condition_push (by omega) _ _),
        bind_of_ok (block.block_push limit depth _ stream (by omega) (by omega))]
      rfl

/-- A block that is derived is read by the rule for blocks. -/
theorem DerivesBlock.block_push {tokens : List Token} {body : List Stmt} {brace : Token} :
    DerivesBlock tokens body brace → ∀ (limit depth : Nat) (name : String) (stream : TokenStream),
      tokens.length ≤ limit → tokens.length ≤ depth + 1 →
        Grammar.block name (Grammar.statement limit depth) limit (stream.push tokens) =
          (.ok (body, brace), stream)
  | .braces opened inside closed, limit, depth, name, stream, enough, deep => by
      simp only [List.length_cons, List.length_append, List.length_nil] at enough deep
      rw [Grammar.block, bind_of_ok (expect_push (by simp [opened]) (by decide) _ _)]
      exact inside.blockTail_push limit depth limit name stream (by omega) (by omega) (by omega)
        closed

/-- Statements that are derived are read up to a closing brace. -/
theorem DerivesStmts.blockTail_push {tokens : List Token} {statements : List Stmt} :
    DerivesStmts tokens statements → ∀ (limit depth fuel : Nat) (name : String)
      (stream : TokenStream) {brace : Token}, tokens.length ≤ limit → tokens.length ≤ depth →
        tokens.length < fuel → brace.kind = .rightBrace →
          Grammar.blockTail name (Grammar.statement limit depth) fuel
            (stream.push (tokens ++ [brace])) = (.ok (statements, brace), stream)
  | _, _, _, 0, _, _, _, _, _, spare, _ => absurd spare (Nat.not_lt_zero _)
  | .nil, limit, depth, fuel + 1, name, stream, brace, _, _, _, closed => by
      rw [Grammar.blockTail, List.nil_append, check_of_mem (by simp [closed]),
        bind_of_ok (expect_push (by simp [closed]) (by decide) _ _)]
      rfl
  | .cons head tail, limit, depth, fuel + 1, name, stream, brace, enough, deep, spare, closed => by
      have positive := List.length_pos_iff.mpr head.ne_nil
      rw [List.length_append] at enough deep spare
      have ends : (stream.push [brace]).peek.kind ≠ .elseWord := by simp [closed]
      have follows := tail.peek_ne_elseWord ends
      rw [← TokenStream.push_append] at follows
      rw [Grammar.blockTail, List.append_assoc, TokenStream.push_append,
        check_of_not_mem (head.peek_push_not_mem (by decide) _),
        bind_of_ok (head.statement_push limit depth _ (by omega) (by omega) follows),
        bind_of_ok (tail.blockTail_push limit depth fuel name stream (by omega) (by omega)
          (by omega) closed)]
      rfl

end

/-- A derived program is taken up to the end of the input behind it. -/
theorem DerivesStmts.program_push {tokens : List Token} {statements : List Stmt}
    (derived : DerivesStmts tokens statements) {limit depth fuel : Nat} {stream : TokenStream}
    (enough : tokens.length ≤ limit) (deep : tokens.length ≤ depth)
    (spare : tokens.length < fuel) (ended : stream.peek.kind = .endOfInput) :
    Grammar.program (Grammar.statement limit depth) fuel (stream.push tokens) =
      (.ok statements, stream) := by
  induction statements generalizing tokens fuel with
  | nil =>
      cases derived
      obtain ⟨fuel, rfl⟩ := Nat.exists_eq_succ_of_ne_zero (Nat.ne_of_gt spare)
      rw [Grammar.program, TokenStream.push_nil, check_of_mem (by simp [ended])]
      rfl
  | cons statement rest ih =>
      cases derived with
      | cons head tail =>
          have positive := List.length_pos_iff.mpr head.ne_nil
          have ends : stream.peek.kind ≠ .elseWord := by simp [ended]
          rw [List.length_append] at enough deep spare
          obtain ⟨fuel, rfl⟩ : ∃ less, fuel = less + 1 := ⟨fuel - 1, by omega⟩
          rw [Grammar.program, TokenStream.push_append,
            check_of_not_mem (head.peek_push_not_mem (by decide) _),
            bind_of_ok (head.statement_push limit depth _ (by omega) (by omega)
              (tail.peek_ne_elseWord ends)),
            bind_of_ok (ih tail (by omega) (by omega) (by omega))]
          rfl

end Grammar

end Scriptlet
