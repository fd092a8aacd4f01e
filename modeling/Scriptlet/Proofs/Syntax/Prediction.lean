import Scriptlet.Proofs.Syntax.Language

/-! # Reading token by token

What is left to be read of a program after some tokens is a list of goals. The
next token decides by itself what becomes of them: it is rejected, or it leaves
other goals (`Grammar.offer`). The rules of the grammar do the same on a stream
(`Rule.Traces`), so that the parser fails exactly if some token is rejected, and
with the failure of the first such token (`run_eq_parse`).
-/

namespace Scriptlet

namespace Grammar

/-- What is left to be read. -/
inductive Goal where
  /-- A token of a kind that a rule asks for. -/
  | mark (rule : String) (kind : TokenKind)
      (plain : kind ∈ [TokenKind.leftParen, .rightParen, .leftBrace, .equals, .semicolon])
  | factor
  /-- Factors that are multiplied or divided by, if any. -/
  | factors
  /-- Terms that are added or subtracted, if any. -/
  | terms
  | statement
  /-- The alternative of a branch, if any. -/
  | otherwise
  /-- The statements of a block up to its closing brace. -/
  | block (rule : String)

namespace Goal

def expression : List Goal :=
  [.factor, .factors, .terms]

/-- An expression in parentheses behind `if` and `while`. -/
def condition (rule : String) : List Goal :=
  .mark rule .leftParen (by decide) :: (expression ++ [.mark rule .rightParen (by decide)])

def braces (rule : String) : List Goal :=
  [.mark rule .leftBrace (by decide), .block rule]

/-- What the first token of a factor leaves. -/
def openFactor (token : Token) : Except ParseFailure (List Goal) :=
  match token.kind with
  | .integer =>
    match Decimal.readInt64? token.lexeme.toList with
    | some _ => .ok []
    | none => .error (.rejected ⟨[], token, "expression", "integer literal out of range"⟩)
  | .identifier => .ok []
  | .string =>
    if (Bytes.ofString token.lexeme).length < 2 then
      .error (.shortString (Bytes.ofString token.lexeme).length)
    else
      .ok []
  | .leftParen => .ok (expression ++ [.mark "parenthesized expression" .rightParen (by decide)])
  | _ =>
    .error (.rejected ⟨[.integer, .identifier, .string, .leftParen], token, "expression", ""⟩)

/-- What the first token of a statement leaves. -/
def openStatement (token : Token) : Except ParseFailure (List Goal) :=
  match token.kind with
  | .printWord => .ok (expression ++ [.mark "print statement" .semicolon (by decide)])
  | .identifier =>
    .ok (.mark "assignment" .equals (by decide) ::
      (expression ++ [.mark "assignment" .semicolon (by decide)]))
  | .ifWord => .ok (condition "if statement" ++ (braces "if statement" ++ [.otherwise]))
  | .whileWord => .ok (condition "while statement" ++ braces "while statement")
  | _ =>
    .error (.rejected ⟨[.printWord, .identifier, .ifWord, .whileWord], token, "statement", ""⟩)

/-- What a token makes of a goal, unless the goal is met without it. -/
def meet (token : Token) : Goal → Option (Except ParseFailure (List Goal))
  | .mark rule kind _ =>
    some (if token.kind = kind then .ok [] else .error (.rejected ⟨[kind], token, rule, ""⟩))
  | .factor => some (openFactor token)
  | .factors =>
    if token.kind ∈ [TokenKind.star, .slash] then some (.ok [.factor, .factors]) else none
  | .terms =>
    if token.kind ∈ [TokenKind.plus, .minus] then some (.ok [.factor, .factors, .terms]) else none
  | .statement => some (openStatement token)
  | .otherwise =>
    if token.kind ∈ [TokenKind.elseWord] then some (.ok (braces "else branch")) else none
  | .block rule =>
    some (if token.kind = .rightBrace then
      .ok []
    else if token.kind = .endOfInput then
      .error (.rejected ⟨[.rightBrace], token, rule, ""⟩)
    else
      (openStatement token).map (· ++ [.block rule]))

end Goal

/-- What a token leaves of some goals. Behind all of them the program goes on with
statements, up to the end of the input. -/
def offer (token : Token) : List Goal → Except ParseFailure (List Goal)
  | [] => if token.kind = .endOfInput then .ok [] else Goal.openStatement token
  | goal :: rest =>
    match goal.meet token with
    | none => offer token rest
    | some result => result.map (· ++ rest)

/-- What tokens leave of some goals one after another. -/
def run : List Goal → List Token → Except ParseFailure (List Goal)
  | goals, [] => .ok goals
  | goals, token :: tokens =>
    match offer token goals with
    | .error failure => .error failure
    | .ok left => run left tokens

/-- Some tokens are accepted, and then the next one gives a result. -/
def Leads (goals : List Goal) (taken : List Token) (next : Token)
    (result : Except ParseFailure (List Goal)) : Prop :=
  ∃ left, run goals taken = .ok left ∧ offer next left = result

/-- A goal that meets a token decides about it. -/
theorem offer_of_meet {goal : Goal} {token : Token} {result : Except ParseFailure (List Goal)}
    (met : goal.meet token = some result) (rest : List Goal) :
    offer token (goal :: rest) = result.map (· ++ rest) := by
  rw [offer, met]

/-- A goal that may be skipped leaves a token to the next one. -/
theorem offer_of_skip {goal : Goal} {token : Token} (skipped : goal.meet token = none)
    (rest : List Goal) : offer token (goal :: rest) = offer token rest := by
  rw [offer, skipped]

/-- Behind a token that was accepted, the goals that are left go on. -/
theorem run_cons_of_ok {goals left : List Goal} {token : Token}
    (accepted : offer token goals = .ok left) (tokens : List Token) :
    run goals (token :: tokens) = run left tokens := by
  rw [run, accepted]

/-- Behind tokens that were accepted, the goals that are left go on. -/
theorem run_append {goals left : List Goal} {taken : List Token}
    (accepted : run goals taken = .ok left) (tokens : List Token) :
    run goals (taken ++ tokens) = run left tokens := by
  induction taken generalizing goals with
  | nil =>
      cases accepted
      rfl
  | cons token taken ih =>
      rw [run] at accepted
      cases first : offer token goals with
      | error failure =>
          rw [first] at accepted
          exact nomatch accepted
      | ok middle =>
          rw [first] at accepted
          rw [List.cons_append, run_cons_of_ok first, ih accepted]

/-- Goals lead to what they make of the next token. -/
theorem Leads.here (goals : List Goal) (next : Token) : Leads goals [] next (offer next goals) :=
  ⟨goals, rfl, rfl⟩

/-- Goals lead on from a token that they accept. -/
theorem Leads.cons {goals left : List Goal} {token next : Token} {taken : List Token}
    {result : Except ParseFailure (List Goal)} (accepted : offer token goals = .ok left)
    (behind : Leads left taken next result) : Leads goals (token :: taken) next result := by
  obtain ⟨last, read, offered⟩ := behind
  exact ⟨last, by rw [run_cons_of_ok accepted, read], offered⟩

/-- Goals that treat the next token alike lead to the same from there on. -/
theorem Leads.trans {goals middle : List Goal} {taken others : List Token} {next : Token}
    {result : Except ParseFailure (List Goal)}
    (before : Leads goals taken (others.headD next) (offer (others.headD next) middle))
    (behind : Leads middle others next result) : Leads goals (taken ++ others) next result := by
  obtain ⟨left, read, same⟩ := before
  obtain ⟨last, continued, offered⟩ := behind
  cases others with
  | nil =>
      cases continued
      rw [List.append_nil]
      exact ⟨left, read, same.trans offered⟩
  | cons token others =>
      have alike : offer token left = offer token middle := same
      refine ⟨last, ?_, offered⟩
      rw [run_append read, ← continued, run, run, alike]

/-- Where a token is rejected, nothing behind it matters. -/
theorem Leads.run_eq_error {goals : List Goal} {taken : List Token} {next : Token}
    {failure : ParseFailure} (rejected : Leads goals taken next (.error failure))
    (more : List Token) : run goals (taken ++ next :: more) = .error failure := by
  obtain ⟨left, read, offered⟩ := rejected
  rw [run_append read, run, offered]

/-- Tokens that are not all accepted have a first one that is rejected. -/
theorem exists_leads_of_run_eq_error {goals : List Goal} {tokens : List Token}
    {failure : ParseFailure} (failed : run goals tokens = .error failure) :
    ∃ taken next more, tokens = taken ++ next :: more ∧
      Leads goals taken next (.error failure) := by
  induction tokens generalizing goals with
  | nil => exact nomatch failed
  | cons token tokens ih =>
      cases offered : offer token goals with
      | error complaint =>
          rw [run, offered] at failed
          cases failed
          exact ⟨[], token, tokens, rfl, goals, rfl, offered⟩
      | ok left =>
          rw [run_cons_of_ok offered] at failed
          obtain ⟨taken, next, more, rfl, leads⟩ := ih failed
          exact ⟨token :: taken, next, more, rfl, leads.cons offered⟩

end Grammar

open Grammar

/-- The next token is the first one in front. -/
theorem TokenStream.peek_push (tokens : List Token) (stream : TokenStream) :
    (stream.push tokens).peek = tokens.headD stream.peek := by
  cases tokens <;> rfl

/-- A stream is another one in front of which tokens have been taken, none of them
the end of the input. -/
structure TokenStream.Passes (stream : TokenStream) (taken : List Token) (next : TokenStream) :
    Prop where
  split : stream = next.push taken
  going : ∀ token ∈ taken, token.kind ≠ .endOfInput

/-- A stream passes nothing where it stands. -/
theorem TokenStream.Passes.here (stream : TokenStream) : stream.Passes [] stream :=
  ⟨rfl, List.forall_mem_nil _⟩

/-- A stream passes tokens one after the other. -/
theorem TokenStream.Passes.trans {stream middle next : TokenStream} {taken others : List Token}
    (before : stream.Passes taken middle) (behind : middle.Passes others next) :
    stream.Passes (taken ++ others) next := by
  refine ⟨?_, List.forall_mem_append.mpr ⟨before.going, behind.going⟩⟩
  rw [before.split, behind.split, TokenStream.push_append]

/-- A stream that goes on passes its next token. -/
theorem TokenStream.Passes.next {stream : TokenStream} (ended : stream.last.kind = .endOfInput)
    (going : stream.peek.kind ≠ .endOfInput) : stream.Passes [stream.peek] stream.advance :=
  ⟨TokenStream.eq_push_advance ended going, List.forall_mem_singleton.mpr going⟩

/-- The last token stays the same. -/
theorem TokenStream.Passes.last_eq {stream next : TokenStream} {taken : List Token}
    (passed : stream.Passes taken next) : next.last = stream.last := by
  rw [passed.split, TokenStream.last_push]

namespace Rule

variable {α β : Type} {goals middle rest : List Goal}

/-- On a stream, a rule takes tokens that lead from goals to the rest of them, or
fails at the token that the goals reject. -/
def TracesAt (goals rest : List Goal) (rule : Rule α) (stream : TokenStream) : Prop :=
  (∃ value taken next, rule stream = (.ok value, next) ∧ stream.Passes taken next ∧
    Leads goals taken next.peek (offer next.peek rest)) ∨
  (∃ failure taken next, rule stream = (.error failure, next.advance) ∧
    stream.Passes taken next ∧ Leads goals taken next.peek (.error failure)) ∨
  ∃ next, rule stream = (.error .tooDeep, next)

/-- A rule does on every stream what goals do, up to the rest of them. -/
def Traces (goals rest : List Goal) (rule : Rule α) : Prop :=
  ∀ stream : TokenStream, stream.last.kind = .endOfInput → rule.TracesAt goals rest stream

/-- Goals that treat the next token alike can stand for each other. -/
theorem TracesAt.congr {rule : Rule α} {stream : TokenStream}
    (traced : rule.TracesAt middle rest stream)
    (same : offer stream.peek goals = offer stream.peek middle) :
    rule.TracesAt goals rest stream := by
  have replaced {taken : List Token} {next : TokenStream}
      {result : Except ParseFailure (List Goal)} (passed : stream.Passes taken next)
      (leads : Leads middle taken next.peek result) : Leads goals taken next.peek result := by
    have here := Leads.here goals stream.peek
    rw [same, passed.split, TokenStream.peek_push] at here
    exact here.trans leads
  rcases traced with ⟨value, taken, next, given, passed, leads⟩ |
    ⟨failure, taken, next, failed, passed, leads⟩ | deep
  · exact .inl ⟨value, taken, next, given, passed, replaced passed leads⟩
  · exact .inr (.inl ⟨failure, taken, next, failed, passed, replaced passed leads⟩)
  · exact .inr (.inr deep)

/-- A rule that takes a token and goes on as another one does what goals do that
leave those of the other one behind the token. -/
theorem TracesAt.advance {first second : Rule α} {stream : TokenStream}
    (step : stream.Passes [stream.peek] stream.advance)
    (accepted : offer stream.peek goals = .ok middle)
    (goesOn : first stream = second stream.advance)
    (traced : second.TracesAt middle rest stream.advance) : first.TracesAt goals rest stream := by
  rw [TracesAt, goesOn]
  rcases traced with ⟨value, others, next, given, passed, leads⟩ |
    ⟨failure, others, next, failed, passed, leads⟩ | deep
  · exact .inl ⟨value, _, next, given, step.trans passed, leads.cons accepted⟩
  · exact .inr (.inl ⟨failure, _, next, failed, step.trans passed, leads.cons accepted⟩)
  · exact .inr (.inr deep)

/-- A value that is given traces no goal. -/
theorem Traces.give (value : α) : (pure value : Rule α).Traces rest rest :=
  fun stream _ => .inl ⟨value, [], stream, rfl, .here stream, Leads.here rest stream.peek⟩

/-- A rule that is too deep traces any goals. -/
theorem Traces.tooDeep : (Rule.fail .tooDeep : Rule α).Traces goals rest :=
  fun stream _ => .inr (.inr ⟨stream, rfl⟩)

/-- One rule and then another do what their goals do one after another. -/
theorem Traces.bind {first : Rule α} {second : α → Rule β} (head : first.Traces goals middle)
    (tail : ∀ value, (second value).Traces middle rest) :
    (first >>= second).Traces goals rest := by
  intro stream ended
  rcases head stream ended with ⟨value, taken, between, given, passed, leads⟩ |
    ⟨failure, taken, next, failed, passed, leads⟩ | ⟨next, deep⟩
  · have joined {others : List Token} {next : TokenStream}
        {result : Except ParseFailure (List Goal)} (behind : between.Passes others next)
        (continued : Leads middle others next.peek result) :
        Leads goals (taken ++ others) next.peek result := by
      rw [behind.split, TokenStream.peek_push] at leads
      exact leads.trans continued
    have last : between.last.kind = .endOfInput := by rw [passed.last_eq, ended]
    rw [TracesAt, bind_of_ok given]
    rcases tail value between last with ⟨result, others, next, continued, behind, onward⟩ |
      ⟨failure, others, next, failed, behind, onward⟩ | deep
    · exact .inl ⟨result, _, next, continued, passed.trans behind, joined behind onward⟩
    · exact .inr (.inl ⟨failure, _, next, failed, passed.trans behind, joined behind onward⟩)
    · exact .inr (.inr deep)
  · refine .inr (.inl ⟨failure, taken, next, ?_, passed, leads⟩)
    rw [bind_apply, failed]
  · refine .inr (.inr ⟨next, ?_⟩)
    rw [bind_apply, deep]

/-- A token of an expected kind is taken. -/
theorem expect_of_mem {name : String} {kinds : List TokenKind} {stream : TokenStream}
    (member : stream.peek.kind ∈ kinds) :
    expect name kinds stream = (.ok stream.peek, stream.advance) := by
  simp only [expect, List.contains_iff_mem.mpr member, ↓reduceIte]

/-- A token of another kind is rejected. -/
theorem expect_of_not_mem {name : String} {kinds : List TokenKind} {stream : TokenStream}
    (absent : stream.peek.kind ∉ kinds) :
    expect name kinds stream =
      (.error (.rejected ⟨kinds, stream.peek, name, ""⟩), stream.advance) := by
  simp only [expect, List.contains_iff_mem, absent, ↓reduceIte]

/-- A rule that takes a token and goes on as the token says does what a goal does
that the token opens. -/
theorem Traces.expect_bind {goal : Goal} {name : String} {kinds : List TokenKind}
    {second : Token → Rule α} {opened : Token → Except ParseFailure (List Goal)}
    (named : TokenKind.endOfInput ∉ kinds) (met : ∀ token, goal.meet token = some (opened token))
    (declined : ∀ token, token.kind ∉ kinds →
      opened token = .error (.rejected ⟨kinds, token, name, ""⟩))
    (accepted : ∀ token, token.kind ∈ kinds →
      (∃ left, opened token = .ok left ∧ (second token).Traces (left ++ rest) rest) ∨
        ∃ failure, opened token = .error failure ∧ second token = .fail failure) :
    (expect name kinds >>= second).Traces (goal :: rest) rest := by
  intro stream ended
  by_cases member : stream.peek.kind ∈ kinds
  · have going := kind_ne_endOfInput_of_mem member named
    have step := TokenStream.Passes.next ended going
    rcases accepted stream.peek member with ⟨left, opens, traced⟩ | ⟨failure, opens, fails⟩
    · have taken : offer stream.peek (goal :: rest) = .ok (left ++ rest) := by
        rw [offer_of_meet (met _), opens]
        rfl
      have last : stream.advance.last.kind = .endOfInput := by rw [step.last_eq, ended]
      exact (traced stream.advance last).advance step taken (bind_of_ok (expect_of_mem member))
    · rw [TracesAt, bind_of_ok (expect_of_mem member), fails]
      refine .inr (.inl ⟨failure, [], stream, rfl, .here stream, goal :: rest, rfl, ?_⟩)
      rw [offer_of_meet (met _), opens]
      rfl
  · refine .inr (.inl ⟨.rejected ⟨kinds, stream.peek, name, ""⟩, [], stream, ?_, .here stream,
      goal :: rest, rfl, ?_⟩)
    · rw [bind_apply, expect_of_not_mem member]
    · rw [offer_of_meet (met _), declined _ member]
      rfl

/-- An expected token traces its mark. -/
theorem Traces.expect {name : String} {kind : TokenKind}
    {plain : kind ∈ [TokenKind.leftParen, .rightParen, .leftBrace, .equals, .semicolon]} :
    (Rule.expect name [kind]).Traces (.mark name kind plain :: rest) rest := by
  have named : TokenKind.endOfInput ∉ [kind] := by
    intro member
    rw [← List.mem_singleton.mp member] at plain
    exact absurd plain (by decide)
  intro stream ended
  by_cases member : stream.peek.kind ∈ [kind]
  · have going := kind_ne_endOfInput_of_mem member named
    refine .inl ⟨stream.peek, [stream.peek], stream.advance, expect_of_mem member,
      .next ended going, ?_⟩
    refine (Leads.here rest _).cons ?_
    rw [offer, Goal.meet, if_pos (List.mem_singleton.mp member)]
    rfl
  · refine .inr (.inl ⟨_, [], stream, expect_of_not_mem member, .here stream,
      .mark name kind plain :: rest, rfl, ?_⟩)
    rw [offer, Goal.meet, if_neg (fun same => member (List.mem_singleton.mpr same))]
    rfl

/-- A rule that goes on only if it sees one of some kinds does what a goal does that
may be met without a token. -/
theorem Traces.checkTake {goal : Goal} {kinds : List TokenKind} {left : List Goal}
    {yes : Token → Rule α} (named : TokenKind.endOfInput ∉ kinds)
    (met : ∀ token, goal.meet token = if token.kind ∈ kinds then some (.ok left) else none)
    (accepted : ∀ token, (yes token).Traces (left ++ rest) rest) (value : α) :
    (Rule.check kinds >>= fun found => if found then Rule.take >>= yes else pure value).Traces
      (goal :: rest) rest := by
  intro stream ended
  by_cases member : stream.peek.kind ∈ kinds
  · have step := TokenStream.Passes.next ended (kind_ne_endOfInput_of_mem member named)
    have taken : offer stream.peek (goal :: rest) = .ok (left ++ rest) := by
      rw [offer, met, if_pos member]
      rfl
    have last : stream.advance.last.kind = .endOfInput := by rw [step.last_eq, ended]
    have chosen : (Rule.check kinds >>= fun found => if found then Rule.take >>= yes
        else pure value) stream = yes stream.peek stream.advance := by
      rw [check_of_mem member]
      rfl
    exact (accepted stream.peek stream.advance last).advance step taken chosen
  · have skipped : offer stream.peek (goal :: rest) = offer stream.peek rest := by
      rw [offer, met, if_neg member]
    have given : TracesAt rest rest (pure value) stream := Traces.give value stream ended
    rw [TracesAt, check_of_not_mem member]
    exact given.congr skipped

end Rule

namespace Grammar

open Rule

variable {rest : List Goal}

private theorem traces_factor {inner : Rule Expr}
    (nested : ∀ rest, inner.Traces (Goal.expression ++ rest) rest) :
    (factor inner).Traces (.factor :: rest) rest := by
  refine Traces.expect_bind (by decide) (fun _ => rfl) ?_ ?_
  · intro token other
    simp only [List.mem_cons, List.not_mem_nil, or_false, not_or] at other
    obtain ⟨notInteger, notIdentifier, notString, notParen⟩ := other
    unfold Goal.openFactor
    split
    · exact absurd ‹_› notInteger
    · exact absurd ‹_› notIdentifier
    · exact absurd ‹_› notString
    · exact absurd ‹_› notParen
    · rfl
  · intro token member
    simp only [List.mem_cons, List.not_mem_nil, or_false] at member
    unfold Goal.openFactor
    rcases member with kind | kind | kind | kind <;> simp only [kind]
    · unfold number
      cases Decimal.readInt64? token.lexeme.toList with
      | some value => exact .inl ⟨[], rfl, Traces.give _⟩
      | none => exact .inr ⟨_, rfl, rfl⟩
    · exact .inl ⟨[], rfl, Traces.give _⟩
    · unfold string
      by_cases short : (Bytes.ofString token.lexeme).length < 2
      · simp only [short, ↓reduceIte]
        exact .inr ⟨_, rfl, rfl⟩
      · simp only [short, ↓reduceIte]
        exact .inl ⟨[], rfl, Traces.give _⟩
    · refine .inl ⟨_, rfl, ?_⟩
      rw [List.append_assoc]
      exact (nested _).bind fun value => Traces.expect.bind fun _ => Traces.give _

private theorem traces_chainTail {operand : Rule Expr} {kinds : List TokenKind} {goal : Goal}
    {operands : List Goal} (named : TokenKind.endOfInput ∉ kinds)
    (met : ∀ token, goal.meet token =
      if token.kind ∈ kinds then some (.ok (operands ++ [goal])) else none)
    (traced : ∀ rest, operand.Traces (operands ++ rest) rest) (limit : Nat) (left : Expr) :
    (chainTail operand kinds limit left).Traces (goal :: rest) rest := by
  induction limit generalizing left with
  | zero => exact Traces.tooDeep
  | succ limit ih =>
      refine Traces.checkTake named met ?_ left
      intro sign
      rw [List.append_assoc]
      exact (traced _).bind fun right => ih _

/-- A chain traces an operand and what may follow it. -/
theorem traces_chain {operand : Rule Expr} {kinds : List TokenKind} {goal : Goal}
    {operands : List Goal} (named : TokenKind.endOfInput ∉ kinds)
    (met : ∀ token, goal.meet token =
      if token.kind ∈ kinds then some (.ok (operands ++ [goal])) else none)
    (traced : ∀ rest, operand.Traces (operands ++ rest) rest) (limit : Nat) :
    (chain operand kinds limit).Traces (operands ++ goal :: rest) rest :=
  (traced _).bind fun left => traces_chainTail named met traced limit left

/-- The rule for expressions traces the goals of expressions. -/
theorem traces_expression (limit depth : Nat) (rest : List Goal) :
    (expression limit depth).Traces (Goal.expression ++ rest) rest := by
  induction depth generalizing rest with
  | zero => exact Traces.tooDeep
  | succ depth ih =>
      have factors (rest : List Goal) :
          (term (expression limit depth) limit).Traces ([.factor, .factors] ++ rest) rest :=
        @traces_chain rest _ _ _ [.factor] (by decide) (fun _ => rfl)
          (fun rest => traces_factor ih) limit
      exact @traces_chain rest _ _ _ [.factor, .factors] (by decide) (fun _ => rfl) factors limit

/-- The rule for conditions traces the goals of conditions. -/
theorem traces_condition (name : String) (limit : Nat) :
    (condition name limit).Traces (Goal.condition name ++ rest) rest := by
  rw [Goal.condition, List.cons_append, List.append_assoc]
  exact Traces.expect.bind fun _ => (traces_expression _ _ _).bind fun value =>
    Traces.expect.bind fun _ => Traces.give value

/-- The statements of a block are told from its end by the next token. -/
theorem traces_blockTail {name : String} {inner : Rule Stmt}
    (statements : ∀ rest, inner.Traces (.statement :: rest) rest) (limit : Nat) :
    (blockTail name inner limit).Traces (.block name :: rest) rest := by
  induction limit with
  | zero => exact Traces.tooDeep
  | succ limit ih =>
      intro stream ended
      by_cases closing : stream.peek.kind ∈ [TokenKind.rightBrace, .endOfInput]
      · rw [TracesAt, blockTail, check_of_mem closing]
        by_cases closed : stream.peek.kind = .rightBrace
        · have going : stream.peek.kind ≠ .endOfInput := by simp [closed]
          have member : stream.peek.kind ∈ [TokenKind.rightBrace] := List.mem_singleton.mpr closed
          refine .inl ⟨([], stream.peek), [stream.peek], stream.advance, ?_, .next ended going, ?_⟩
          · rw [bind_of_ok (expect_of_mem member)]
            rfl
          · refine (Leads.here rest _).cons ?_
            rw [offer, Goal.meet, if_pos closed]
            rfl
        · have finished : stream.peek.kind = .endOfInput := by simpa [closed] using closing
          refine .inr (.inl ⟨.rejected ⟨[.rightBrace], stream.peek, name, ""⟩, [], stream, ?_,
            .here stream, .block name :: rest, rfl, ?_⟩)
          · rw [bind_apply, expect_of_not_mem (by simp [finished])]
          · rw [offer, Goal.meet, if_neg closed, if_pos finished]
            rfl
      · simp only [List.mem_cons, List.not_mem_nil, or_false, not_or] at closing
        have opened : offer stream.peek (.block name :: rest) =
            offer stream.peek (.statement :: .block name :: rest) := by
          rw [offer, offer, Goal.meet, Goal.meet, if_neg closing.1, if_neg closing.2]
          cases Goal.openStatement stream.peek with
          | error failure => rfl
          | ok left =>
              exact congrArg Except.ok (List.append_assoc left [.block name] rest)
        have others : (inner >>= fun first => blockTail name inner limit >>= fun block =>
            pure (first :: block.1, block.2)).Traces (.statement :: .block name :: rest) rest :=
          (statements _).bind fun first => ih.bind fun block => Traces.give _
        rw [TracesAt, blockTail, check_of_not_mem (by simpa using closing)]
        exact (others stream ended).congr opened

/-- The rule for blocks traces the goals of blocks. -/
theorem traces_block {name : String} {inner : Rule Stmt}
    (statements : ∀ rest, inner.Traces (.statement :: rest) rest) (limit : Nat) :
    (block name inner limit).Traces (Goal.braces name ++ rest) rest :=
  Traces.expect.bind fun _ => traces_blockTail statements limit

private theorem traces_ifStatement {inner : Rule Stmt}
    (statements : ∀ rest, inner.Traces (.statement :: rest) rest) (word : Token) (limit : Nat) :
    (ifStatement word inner limit).Traces
      (Goal.condition "if statement" ++ (Goal.braces "if statement" ++ [.otherwise]) ++ rest)
      rest := by
  rw [List.append_assoc, List.append_assoc]
  refine (traces_condition _ _).bind fun test => (traces_block statements limit).bind ?_
  rintro ⟨body, brace⟩
  refine Traces.checkTake (by decide) (fun _ => rfl) ?_ _
  intro other
  exact (traces_block statements limit).bind fun block => Traces.give _

/-- A statement is told by its first token. -/
theorem traces_statement (limit depth : Nat) (rest : List Goal) :
    (statement limit depth).Traces (.statement :: rest) rest := by
  induction depth generalizing rest with
  | zero => exact Traces.tooDeep
  | succ depth ih =>
      refine Traces.expect_bind (by decide) (fun _ => rfl) ?_ ?_
      · intro token other
        simp only [List.mem_cons, List.not_mem_nil, or_false, not_or] at other
        obtain ⟨notPrint, notIdentifier, notIf, notWhile⟩ := other
        unfold Goal.openStatement
        split
        · exact absurd ‹_› notPrint
        · exact absurd ‹_› notIdentifier
        · exact absurd ‹_› notIf
        · exact absurd ‹_› notWhile
        · rfl
      · intro token member
        simp only [List.mem_cons, List.not_mem_nil, or_false] at member
        unfold Goal.openStatement
        left
        rcases member with kind | kind | kind | kind <;> simp only [kind]
        · refine ⟨_, rfl, ?_⟩
          rw [List.append_assoc]
          exact (traces_expression _ _ _).bind fun value => Traces.expect.bind fun _ =>
            Traces.give _
        · refine ⟨_, rfl, ?_⟩
          rw [List.cons_append, List.append_assoc]
          exact Traces.expect.bind fun _ => (traces_expression _ _ _).bind fun value =>
            Traces.expect.bind fun _ => Traces.give _
        · exact ⟨_, rfl, traces_ifStatement ih token limit⟩
        · refine ⟨_, rfl, ?_⟩
          rw [List.append_assoc]
          exact (traces_condition _ _).bind fun test =>
            (traces_block ih limit).bind fun block => Traces.give _

/-- A program is read from no goals to no goals. -/
theorem traces_program {inner : Rule Stmt}
    (statements : ∀ rest, inner.Traces (.statement :: rest) rest) (limit : Nat) :
    (program inner limit).Traces [] [] := by
  induction limit with
  | zero => exact Traces.tooDeep
  | succ limit ih =>
      intro stream ended
      by_cases finished : stream.peek.kind = .endOfInput
      · rw [TracesAt, program, check_of_mem (by simp [finished])]
        exact Traces.give _ stream ended
      · have opened : offer stream.peek [] = offer stream.peek [.statement] := by
          rw [offer, offer, Goal.meet, if_neg finished]
          cases Goal.openStatement stream.peek with
          | error failure => rfl
          | ok left => exact congrArg Except.ok (List.append_nil left).symm
        have others : (inner >>= fun first => program inner limit >>= fun others =>
            pure (first :: others)).Traces [.statement] [] :=
          (statements _).bind fun first => ih.bind fun others => Traces.give _
        rw [TracesAt, program, check_of_not_mem (by simpa using finished)]
        exact (others stream ended).congr opened

end Grammar

namespace Token

/-- The token at which a list of tokens ends: its first end of the input, or the one
that stands behind all of them. -/
def finish (tokens : List Token) : Token :=
  (tokens.dropWhile fun token => token.kind != .endOfInput).headD (TokenStream.endOf tokens)

/-- The tokens of a list up to its first end of the input, which is added if there
is none. -/
def ended (tokens : List Token) : List Token :=
  beforeEnd tokens ++ [finish tokens]

/-- The last token is the end of the input. -/
theorem kind_finish (tokens : List Token) : (finish tokens).kind = .endOfInput := by
  obtain ⟨_, _, stops⟩ :=
    (takeWhile_dropWhile_iff fun token : Token => token.kind != .endOfInput).mp
      ⟨rfl, (rfl : tokens.dropWhile _ = _)⟩
  rw [finish]
  cases behind : tokens.dropWhile fun token => token.kind != .endOfInput with
  | nil => rfl
  | cons token others =>
      have failing := stops token (by rw [behind]; rfl)
      exact bne_eq_false_iff_eq.mp failing

/-- Behind some tokens before its end, a list goes on with the next token of its
stream, and ends with it if that is the end of the input. -/
theorem exists_ended_eq {tokens taken : List Token} {next : TokenStream}
    (passed : (TokenStream.ofList tokens).Passes taken next) :
    ∃ more, ended tokens = taken ++ next.peek :: more ∧
      (next.peek.kind = .endOfInput → more = []) := by
  obtain ⟨ahead, last⟩ := next
  have whole : tokens = taken ++ ahead := congrArg TokenStream.ahead passed.split
  have same : TokenStream.endOf tokens = last := congrArg TokenStream.last passed.split
  have going : ∀ token ∈ taken, (token.kind != .endOfInput) = true := by
    intro token member
    exact bne_iff_ne.mpr (passed.going token member)
  have before : ended tokens = taken ++ (beforeEnd ahead ++
      [(ahead.dropWhile fun token => token.kind != .endOfInput).headD last]) := by
    rw [ended, finish, same, whole, beforeEnd, List.takeWhile_append_of_pos going,
      List.dropWhile_append_of_pos going, List.append_assoc]
    rfl
  rw [before]
  cases ahead with
  | nil => exact ⟨[], rfl, fun _ => rfl⟩
  | cons token others =>
      by_cases stops : token.kind = .endOfInput
      · refine ⟨[], ?_, fun _ => rfl⟩
        simp [beforeEnd, TokenStream.peek, stops]
      · refine ⟨beforeEnd others ++
          [(others.dropWhile fun token => token.kind != .endOfInput).headD last], ?_,
          fun finished => absurd finished stops⟩
        simp [beforeEnd, TokenStream.peek, stops]

end Token

/-- **The parser reads token by token.** It fails exactly if a token up to the end
of the input is rejected, and with the failure of the first such token. -/
theorem run_eq_parse (tokens : List Token) :
    run [] (Token.ended tokens) = (parse tokens).map fun _ => [] := by
  have traced := traces_program (traces_statement (tokens.length + 1) (tokens.length + 1))
    (tokens.length + 1) (.ofList tokens) rfl
  rcases traced with ⟨program, taken, next, read, passed, left, taking, offered⟩ |
    ⟨failure, taken, next, failed, passed, leads⟩ | ⟨next, deep⟩
  · have finished := program_stops read
    obtain ⟨more, split, nothing⟩ := Token.exists_ended_eq passed
    have parsed : parse tokens = .ok program := congrArg Prod.fst read
    have done : offer next.peek left = .ok [] := by
      rw [offered, offer, if_pos finished]
    rw [split, nothing finished, run_append taking, run_cons_of_ok done, parsed]
    rfl
  · obtain ⟨more, split, _⟩ := Token.exists_ended_eq passed
    have parsed : parse tokens = .error failure := congrArg Prod.fst failed
    rw [split, leads.run_eq_error, parsed]
    rfl
  · have parsed : parse tokens = .error .tooDeep := congrArg Prod.fst deep
    exact absurd parsed (parse_ne_tooDeep tokens)

/-- **Predictions.** Parsing fails as the goals do. -/
theorem parse_eq_error_iff {tokens : List Token} {failure : ParseFailure} :
    parse tokens = .error failure ↔ run [] (Token.ended tokens) = .error failure := by
  rw [run_eq_parse]
  cases parse tokens with
  | error complaint => exact ⟨congrArg _ ∘ Except.error.inj, congrArg _ ∘ Except.error.inj⟩
  | ok program => exact ⟨nofun, nofun⟩

end Scriptlet
