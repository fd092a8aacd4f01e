import Scriptlet.Proofs.Syntax.Limits
import Scriptlet.Proofs.Syntax.Prediction

/-! # Progress of the parser

Whether it gives a value or fails, a rule takes only tokens in front of the end of the
input; and a rule for a statement, an expression, a term or a factor that gives a value
has taken at least one (`Rule.Takes`). That is why the loops of the parser end, and why
a parser never leaves its tokens, whatever calls it serves
(`Parser.progress_within_tokens`).
-/

namespace Scriptlet

/-- A stream that moves on passes a token, or stands at the end. -/
theorem TokenStream.exists_passes_advance {stream : TokenStream}
    (ended : stream.last.kind = .endOfInput) :
    ∃ taken, stream.Passes taken stream.advance ∧
      (stream.peek.kind ≠ .endOfInput → 1 ≤ taken.length) := by
  by_cases finished : stream.peek.kind = .endOfInput
  · have stays : stream.advance = stream := if_pos finished
    refine ⟨[], ?_, fun going => absurd finished going⟩
    rw [stays]
    exact .here stream
  · exact ⟨[stream.peek], .next ended finished, fun _ => Nat.le_refl 1⟩

namespace Rule

variable {α β : Type} {least : Nat}

/-- A rule takes tokens in front of the end of the input, and at least some number of
them if it gives a value. -/
def Takes (least : Nat) (rule : Rule α) : Prop :=
  ∀ stream : TokenStream, stream.last.kind = .endOfInput →
    ∃ taken, stream.Passes taken (rule stream).2 ∧
      ∀ value, (rule stream).1 = .ok value → least ≤ taken.length

/-- What takes some tokens takes none or more. -/
theorem Takes.some {rule : Rule α} (takes : rule.Takes least) : rule.Takes 0 := by
  intro stream ended
  obtain ⟨taken, passed, _⟩ := takes stream ended
  exact ⟨taken, passed, fun _ _ => Nat.zero_le _⟩

/-- A value that is given takes no token. -/
theorem Takes.give (value : α) : (pure value : Rule α).Takes 0 :=
  fun stream _ => ⟨[], .here stream, fun _ _ => Nat.le_refl 0⟩

/-- A rule that fails takes whatever is asked for. -/
theorem Takes.fail (failure : ParseFailure) : (Rule.fail failure : Rule α).Takes least :=
  fun stream _ => ⟨[], .here stream, fun _ given => nomatch given⟩

/-- A look at the next token takes none. -/
theorem Takes.check (kinds : List TokenKind) : (Rule.check kinds).Takes 0 :=
  fun stream _ => ⟨[], .here stream, fun _ _ => Nat.le_refl 0⟩

/-- Taking a token takes none at the end of the input. -/
theorem Takes.take : Rule.take.Takes 0 := by
  intro stream ended
  obtain ⟨taken, passed, _⟩ := TokenStream.exists_passes_advance ended
  exact ⟨taken, passed, fun _ _ => Nat.zero_le _⟩

private theorem snd_expect (name : String) (kinds : List TokenKind) (stream : TokenStream) :
    (Rule.expect name kinds stream).2 = stream.advance := by
  by_cases member : stream.peek.kind ∈ kinds
  · rw [expect_of_mem member]
  · rw [expect_of_not_mem member]

/-- An expected token may be the end of the input, which is not taken. -/
theorem Takes.expect (name : String) (kinds : List TokenKind) :
    (Rule.expect name kinds).Takes 0 := by
  intro stream ended
  obtain ⟨taken, passed, _⟩ := TokenStream.exists_passes_advance ended
  rw [snd_expect]
  exact ⟨taken, passed, fun _ _ => Nat.zero_le _⟩

/-- An expected token that is not the end of the input is taken. -/
theorem Takes.expect_one (name : String) {kinds : List TokenKind}
    (named : TokenKind.endOfInput ∉ kinds) : (Rule.expect name kinds).Takes 1 := by
  intro stream ended
  obtain ⟨taken, passed, going⟩ := TokenStream.exists_passes_advance ended
  by_cases member : stream.peek.kind ∈ kinds
  · rw [expect_of_mem member]
    exact ⟨taken, passed, fun _ _ => going (Grammar.kind_ne_endOfInput_of_mem member named)⟩
  · rw [expect_of_not_mem member]
    exact ⟨taken, passed, fun _ given => nomatch given⟩

/-- Of two rules, the first one takes as many tokens as it does by itself. -/
theorem Takes.bind {first : Rule α} {second : α → Rule β} (head : first.Takes least)
    (tail : ∀ value, (second value).Takes 0) : (first >>= second).Takes least := by
  intro stream ended
  obtain ⟨taken, passed, enough⟩ := head stream ended
  rw [bind_apply]
  rcases given : first stream with ⟨failure | value, middle⟩
  · rw [given] at passed
    exact ⟨taken, passed, fun _ absent => nomatch absent⟩
  · rw [given] at passed enough
    have last : middle.last.kind = .endOfInput := by rw [passed.last_eq, ended]
    obtain ⟨others, behind, _⟩ := tail value middle last
    refine ⟨taken ++ others, passed.trans behind, ?_⟩
    intro _ _
    rw [List.length_append]
    exact Nat.le_add_right_of_le (enough value rfl)

/-- A choice takes what both of its branches take. -/
theorem Takes.choice {yes no : Rule α} (holds : Bool) (accepted : yes.Takes least)
    (declined : no.Takes least) : (if holds then yes else no).Takes least := by
  cases holds with
  | true => exact accepted
  | false => exact declined

end Rule

namespace Grammar

open Rule

private theorem takes_number (token : Token) : (number token).Takes 0 := by
  unfold number
  cases Decimal.readInt64? token.lexeme.toList with
  | some value => exact .give _
  | none => exact .fail _

private theorem takes_string (token : Token) : (string token).Takes 0 := by
  unfold string
  by_cases short : (Bytes.ofString token.lexeme).length < 2
  · simp only [short, ↓reduceIte]
    exact .fail _
  · simp only [short, ↓reduceIte]
    exact .give _

/-- A factor takes a token. -/
theorem takes_factor {inner : Rule Expr} (nested : inner.Takes 0) : (factor inner).Takes 1 := by
  refine (Takes.expect_one _ (by decide)).bind ?_
  intro token
  split
  · exact takes_number token
  · exact takes_string token
  · exact nested.bind fun value => (Takes.expect _ _).bind fun _ => .give value
  · exact .give _

private theorem takes_chainTail {operand : Rule Expr} (operands : operand.Takes 0)
    (kinds : List TokenKind) (limit : Nat) (left : Expr) :
    (chainTail operand kinds limit left).Takes 0 := by
  induction limit generalizing left with
  | zero => exact .fail _
  | succ limit ih =>
      refine (Takes.check kinds).bind fun found => .choice found ?_ (.give left)
      exact Takes.take.bind fun sign => operands.bind fun right => ih _

/-- A chain takes as many tokens as its first operand. -/
theorem takes_chain {operand : Rule Expr} {least : Nat} (operands : operand.Takes least)
    (kinds : List TokenKind) (limit : Nat) : (chain operand kinds limit).Takes least :=
  operands.bind fun left => takes_chainTail operands.some kinds limit left

/-- An expression takes a token. -/
theorem takes_expression (limit depth : Nat) : (expression limit depth).Takes 1 := by
  induction depth with
  | zero => exact .fail _
  | succ depth ih => exact takes_chain (takes_chain (takes_factor ih.some) _ _) _ _

/-- A condition takes no token or more. -/
theorem takes_condition (rule : String) (limit : Nat) : (condition rule limit).Takes 0 :=
  (Takes.expect _ _).bind fun _ => (takes_expression limit limit).some.bind fun value =>
    (Takes.expect _ _).bind fun _ => .give value

private theorem takes_blockTail {inner : Rule Stmt} (statements : inner.Takes 0) (rule : String)
    (limit : Nat) : (blockTail rule inner limit).Takes 0 := by
  induction limit with
  | zero => exact .fail _
  | succ limit ih =>
      refine (Takes.check _).bind fun found => .choice found ?_ ?_
      · exact (Takes.expect _ _).bind fun brace => .give _
      · exact statements.bind fun first => ih.bind fun block => .give _

/-- A block takes no token or more. -/
theorem takes_block {inner : Rule Stmt} (statements : inner.Takes 0) (rule : String)
    (limit : Nat) : (block rule inner limit).Takes 0 :=
  (Takes.expect _ _).bind fun _ => takes_blockTail statements rule limit

private theorem takes_ifStatement {inner : Rule Stmt} (statements : inner.Takes 0) (word : Token)
    (limit : Nat) : (ifStatement word inner limit).Takes 0 := by
  refine (takes_condition _ limit).bind fun test => ?_
  refine (takes_block statements _ limit).bind fun body => ?_
  refine (Takes.check _).bind fun found => .choice found ?_ (.give _)
  exact Takes.take.bind fun _ => (takes_block statements _ limit).bind fun otherwise => .give _

/-- A statement takes a token. -/
theorem takes_statement (limit depth : Nat) : (statement limit depth).Takes 1 := by
  induction depth with
  | zero => exact .fail _
  | succ depth ih =>
      have value := (takes_expression limit limit).some
      refine (Takes.expect_one _ (by decide)).bind ?_
      intro token
      split
      · exact value.bind fun _ => (Takes.expect _ _).bind fun stop => .give _
      · exact takes_ifStatement ih.some token limit
      · refine (takes_condition _ limit).bind fun test => ?_
        exact (takes_block ih.some _ limit).bind fun body => .give _
      · refine (Takes.expect _ _).bind fun _ => ?_
        exact value.bind fun _ => (Takes.expect _ _).bind fun stop => .give _

private theorem takes_program {inner : Rule Stmt} (statements : inner.Takes 0) (limit : Nat) :
    (program inner limit).Takes 0 := by
  induction limit with
  | zero => exact .fail _
  | succ limit ih =>
      refine (Takes.check _).bind fun found => .choice found (.give _) ?_
      exact statements.bind fun first => ih.bind fun others => .give _

end Grammar

open Grammar

namespace Parser

variable {α : Type} {parser : Parser}

/-- A parser stands at its position: no token in front of it is the end of the input, and
all tokens from there on are ahead. -/
structure Within (parser : Parser) : Prop where
  ahead : parser.stream =
    ⟨parser.tokens.drop parser.position, TokenStream.endOf parser.tokens⟩
  taken : ∀ token ∈ parser.tokens.take parser.position, token.kind ≠ .endOfInput

/-- The position of a parser counts the tokens that it passed. -/
theorem position_of_passes {taken : List Token}
    (passed : (TokenStream.ofList parser.tokens).Passes taken parser.stream) :
    parser.position = taken.length := by
  have whole : parser.tokens = taken ++ parser.stream.ahead :=
    congrArg TokenStream.ahead passed.split
  rw [position, whole, List.length_append, Nat.add_sub_cancel]

/-- A parser that passed some of its tokens is within them. -/
theorem within_of_passes {taken : List Token}
    (passed : (TokenStream.ofList parser.tokens).Passes taken parser.stream) : parser.Within := by
  have whole : parser.tokens = taken ++ parser.stream.ahead :=
    congrArg TokenStream.ahead passed.split
  have last : parser.stream.last = TokenStream.endOf parser.tokens := passed.last_eq
  constructor
  · rw [position_of_passes passed, ← last, whole, List.drop_left]
  · rw [position_of_passes passed, whole, List.take_left]
    exact passed.going

/-- A parser within its tokens passed those in front of its position. -/
theorem Within.passes (within : parser.Within) :
    (TokenStream.ofList parser.tokens).Passes (parser.tokens.take parser.position)
      parser.stream := by
  refine ⟨?_, within.taken⟩
  rw [within.ahead, TokenStream.ofList, TokenStream.push, TokenStream.mk.injEq]
  exact ⟨(List.take_append_drop _ _).symm, rfl⟩

/-- A rule leaves a parser at its position, which is further on by the tokens that the
rule takes. -/
theorem Within.apply {rule : Rule α} {least : Nat} (within : parser.Within)
    (takes : rule.Takes least) :
    (parser.apply rule).2.Within ∧ ∀ value, (parser.apply rule).1 = .ok value →
      parser.position + least ≤ (parser.apply rule).2.position := by
  have ended : parser.stream.last.kind = .endOfInput := by
    rw [within.ahead]
    rfl
  obtain ⟨taken, passed, enough⟩ := takes parser.stream ended
  have behind : (TokenStream.ofList (parser.apply rule).2.tokens).Passes
      (parser.tokens.take parser.position ++ taken) (parser.apply rule).2.stream :=
    within.passes.trans passed
  refine ⟨within_of_passes behind, ?_⟩
  intro value given
  rw [position_of_passes behind, List.length_append, ← position_of_passes within.passes]
  exact Nat.add_le_add_left (enough value given) _

/-- A parser within its tokens is not behind their end. -/
theorem Within.position_le (within : parser.Within) :
    parser.position ≤ (Token.beforeEnd parser.tokens).length := by
  have passing : ∀ token ∈ parser.tokens.take parser.position,
      (token.kind != .endOfInput) = true := by
    intro token member
    exact bne_iff_ne.mpr (within.taken token member)
  have front : Token.beforeEnd parser.tokens = parser.tokens.take parser.position ++
      Token.beforeEnd (parser.tokens.drop parser.position) := by
    nth_rewrite 1 [← List.take_append_drop parser.position parser.tokens]
    exact List.takeWhile_append_of_pos passing
  rw [front, List.length_append, ← position_of_passes within.passes]
  exact Nat.le_add_right _ _

/-- A new parser is within its tokens. -/
theorem within_ofTokens (tokens : List Token) : (ofTokens tokens).Within :=
  within_of_passes (.here (TokenStream.ofList tokens))

/-- What can be asked of a parser. -/
inductive Call where
  | next
  | peek
  | peekIs (kinds : List TokenKind)
  | expect (rule : String) (kinds : List TokenKind)
  | parse
deriving DecidableEq, Repr

inductive Reply where
  | token (token : Token)
  | verdict (holds : Bool)
  | program (program : Program)
  | failed (failure : ParseFailure)
deriving Repr

def Reply.ofResult (answer : α → Reply) : Except ParseFailure α → Reply
  | .ok value => answer value
  | .error failure => .failed failure

/-- Answers a call. Gives the answer and the parser behind the call. -/
def serve (parser : Parser) : Call → Reply × Parser
  | .next => (.ofResult .token (parser.apply .take).1, (parser.apply .take).2)
  | .peek => (.token parser.stream.peek, parser)
  | .peekIs kinds => (.verdict (parser.stream.peekIs kinds), parser)
  | .expect rule kinds =>
    (.ofResult .token (parser.apply (.expect rule kinds)).1, (parser.apply (.expect rule kinds)).2)
  | .parse => (.ofResult .program parser.parse.1, parser.parse.2)

def serveAll (parser : Parser) : List Call → Parser
  | [] => parser
  | call :: calls => (parser.serve call).2.serveAll calls

private theorem tokens_serve (parser : Parser) (call : Call) :
    (parser.serve call).2.tokens = parser.tokens := by
  cases call <;> rfl

/-- The step of `Within.serveAll`. Parsing starts again at the first token. -/
theorem Within.serve (within : parser.Within) (call : Call) :
    (parser.serve call).2.Within := by
  cases call with
  | next => exact (within.apply .take).1
  | peek => exact within
  | peekIs kinds => exact within
  | expect rule kinds => exact (within.apply (.expect rule kinds)).1
  | parse =>
      let limit := parser.tokens.length + 1
      have takes := takes_program (takes_statement limit limit).some limit
      exact ((within_ofTokens parser.tokens).apply takes).1

/-- Calls of any kind keep a parser within its tokens. -/
theorem Within.serveAll (within : parser.Within) (calls : List Call) :
    (parser.serveAll calls).Within ∧ (parser.serveAll calls).tokens = parser.tokens := by
  induction calls generalizing parser with
  | nil => exact ⟨within, rfl⟩
  | cons call calls ih =>
      obtain ⟨stays, same⟩ := ih (within.serve call)
      exact ⟨stays, same.trans (parser.tokens_serve call)⟩

private theorem serve_ne_tooDeep (parser : Parser) (call : Call) :
    (parser.serve call).1 ≠ .failed .tooDeep := by
  cases call with
  | next => exact nofun
  | peek => exact nofun
  | peekIs kinds => exact nofun
  | expect rule kinds =>
      rw [Parser.serve, Parser.apply]
      by_cases member : parser.stream.peek.kind ∈ kinds
      · rw [Rule.expect_of_mem member]
        exact nofun
      · rw [Rule.expect_of_not_mem member]
        exact nofun
  | parse =>
      have ends := parse_ne_tooDeep parser.tokens
      intro stopped
      rw [Parser.serve] at stopped
      change Reply.ofResult .program (Scriptlet.parse parser.tokens) = _ at stopped
      cases result : Scriptlet.parse parser.tokens with
      | ok program =>
          rw [result] at stopped
          cases stopped
      | error failure =>
          rw [result] at stopped ends
          cases stopped
          exact ends rfl

/-- Applied to a parser, a rule leaves it within its tokens, and further on if it gives a
value. -/
structure Advances (parser : Parser) (rule : Rule α) : Prop where
  within : (parser.apply rule).2.Within
  further : ∀ value, (parser.apply rule).1 = .ok value →
    parser.position < (parser.apply rule).2.position

/-- A rule that takes a token advances a parser, or fails. -/
theorem Within.advances {rule : Rule α} (within : parser.Within) (takes : rule.Takes 1) :
    parser.Advances rule :=
  ⟨(within.apply takes).1, (within.apply takes).2⟩

/-- **Parsing ends and stays within the tokens.** For every list of tokens: the parser
gives a program or fails because of a token, and no limit above the number of tokens has
a part in that. From every position up to the first end of the input, the rules for
statements, expressions, terms and factors come further if they give a value. And
whatever calls a parser has served, also failed ones, it ends the next one too, and its
position is at most the number of tokens and not behind their first end of the input. -/
theorem progress_within_tokens (tokens : List Token) :
    ((∃ program, Scriptlet.parse tokens = .ok program) ∨
      ∃ failure, failure ≠ .tooDeep ∧ Scriptlet.parse tokens = .error failure) ∧
    (∀ limit, tokens.length < limit →
      program (statement limit limit) limit (.ofList tokens) =
        programRule tokens (.ofList tokens)) ∧
    (∀ parser : Parser, parser.tokens = tokens → parser.Within → ∀ limit depth,
      parser.Advances (statement limit depth) ∧ parser.Advances (expression limit depth) ∧
        parser.Advances (term (expression limit depth) limit) ∧
        parser.Advances (factor (expression limit depth))) ∧
    ∀ calls, ((ofTokens tokens).serveAll calls).Within ∧
      ((ofTokens tokens).serveAll calls).position ≤ tokens.length ∧
      ((ofTokens tokens).serveAll calls).position ≤ (Token.beforeEnd tokens).length ∧
      ∀ call, (((ofTokens tokens).serveAll calls).serve call).1 ≠ .failed .tooDeep := by
  refine ⟨?_, fun limit enough => programRule_of_limit tokens enough, ?_, ?_⟩
  · rcases parse_cases tokens with ⟨program, read, _⟩ | ⟨failure, failed, other⟩
    · exact .inl ⟨program, read⟩
    · exact .inr ⟨failure, other, failed⟩
  · intro parser _ within limit depth
    have inner := (takes_expression limit depth).some
    exact ⟨within.advances (takes_statement limit depth),
      within.advances (takes_expression limit depth),
      within.advances (takes_chain (takes_factor inner) _ _), within.advances (takes_factor inner)⟩
  · intro calls
    obtain ⟨within, same⟩ := (within_ofTokens tokens).serveAll calls
    have bound := within.position_le
    rw [same] at bound
    change _ ≤ (Token.beforeEnd tokens).length at bound
    exact ⟨within, Nat.le_trans bound (Token.length_beforeEnd_le tokens), bound,
      serve_ne_tooDeep _⟩

/-- `while (x) { print y;`, an end of the input, and `}` behind it. -/
def unclosedLoop : List Token :=
  [⟨.whileWord, "while", {}⟩, ⟨.leftParen, "(", {}⟩, ⟨.identifier, "x", {}⟩,
    ⟨.rightParen, ")", {}⟩, ⟨.leftBrace, braceOpen, {}⟩, ⟨.printWord, "print", {}⟩,
    ⟨.identifier, "y", {}⟩, ⟨.semicolon, ";", {}⟩, ⟨.endOfInput, "", {}⟩,
    ⟨.rightBrace, braceClose, {}⟩]

/-- A loop whose block is not closed. -/
theorem unclosedLoop_progress_within_tokens :
    let parser := (ofTokens unclosedLoop).serveAll [.parse, .next, .expect "block" [.rightBrace]]
    let resumed := (ofTokens unclosedLoop).serveAll [.next, .next]
    unclosedLoop.length < 40 ∧ resumed.tokens = unclosedLoop ∧ resumed.Within ∧
      program (statement 40 40) 40 (.ofList unclosedLoop) =
        programRule unclosedLoop (.ofList unclosedLoop) ∧
      resumed.Advances (expression 40 40) ∧ parser.position = 8 ∧
      parser.position ≤ (Token.beforeEnd unclosedLoop).length := by
  intro parser resumed
  obtain ⟨_, limits, rules, calls⟩ := progress_within_tokens unclosedLoop
  have enough : unclosedLoop.length < 40 := by decide
  have within := (calls [.next, .next]).1
  exact ⟨enough, rfl, within, limits 40 enough, (rules resumed rfl within 40 40).2.1, rfl,
    (calls [.parse, .next, .expect "block" [.rightBrace]]).2.2.1⟩

end Parser

end Scriptlet
