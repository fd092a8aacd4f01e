import Scriptlet.Proofs.Syntax.Completeness
import Scriptlet.Proofs.Syntax.Soundness
import Scriptlet.Proofs.Token.Spelling

/-! # The language of the parser

The parser gives a program exactly if the tokens in front of the first end of the
input derive it, whatever stands behind that end (`parse_eq_ok_iff`). What it
gives otherwise is a complaint about a token and never a matter of its limits.
-/

namespace Scriptlet

namespace Token

/-- The tokens in front of the first end of the input, or all of them if there is
none. -/
def beforeEnd (tokens : List Token) : List Token :=
  tokens.takeWhile fun token => token.kind != .endOfInput

/-- Tokens are cut in front of the first end of the input if none before the cut
is such an end and the next one is. -/
theorem beforeEnd_append {tokens rest : List Token}
    (going : ∀ token ∈ tokens, token.kind ≠ .endOfInput)
    (stops : ∀ token ∈ rest.head?, token.kind = .endOfInput) :
    beforeEnd (tokens ++ rest) = tokens := by
  refine ((takeWhile_dropWhile_iff fun token : Token => token.kind != .endOfInput).mpr
    ⟨rfl, ?_, ?_⟩).1
  · intro token member
    exact bne_iff_ne.mpr (going token member)
  · intro token first
    exact bne_eq_false_iff_eq.mpr (stops token first)

/-- There are no more tokens in front of the end than there are tokens. -/
theorem length_beforeEnd_le (tokens : List Token) : (beforeEnd tokens).length ≤ tokens.length :=
  (List.takeWhile_prefix _).length_le

/-- Tokens without the end of the input all stand in front of it. -/
theorem beforeEnd_of_going {tokens : List Token}
    (going : ∀ token ∈ tokens, token.kind ≠ .endOfInput) : beforeEnd tokens = tokens := by
  have cut := @beforeEnd_append tokens [] going (fun _ absent => nomatch absent)
  rwa [List.append_nil] at cut

end Token

namespace TokenStream

/-- A stream whose next token is the end of the input has no other token in
front. -/
theorem head_ahead_of_peek {stream : TokenStream} (ended : stream.peek.kind = .endOfInput) :
    ∀ token ∈ stream.ahead.head?, token.kind = .endOfInput := by
  intro token first
  rw [peek, List.headD_eq_head?_getD, Option.mem_def.mp first] at ended
  exact ended

/-- The stream of some tokens is that of the tokens in front of the first end of
the input, and behind them it is at the end. -/
theorem ofList_eq_push (tokens : List Token) :
    ∃ stream : TokenStream,
      ofList tokens = stream.push (Token.beforeEnd tokens) ∧ stream.peek.kind = .endOfInput := by
  obtain ⟨split, _, stops⟩ :=
    (takeWhile_dropWhile_iff fun token : Token => token.kind != .endOfInput).mp
      ⟨rfl, (rfl : tokens.dropWhile _ = _)⟩
  refine ⟨⟨tokens.dropWhile fun token => token.kind != .endOfInput, endOf tokens⟩, ?_, ?_⟩
  · rw [ofList, push, TokenStream.mk.injEq]
    exact ⟨split, rfl⟩
  · cases behind : tokens.dropWhile fun token => token.kind != .endOfInput with
    | nil => rfl
    | cons token others =>
        have failing := stops token (by rw [behind]; rfl)
        exact bne_eq_false_iff_eq.mp failing

end TokenStream

open Grammar

/-- The parser either gives a program that the tokens in front of the first end
of the input derive, or complains about a token. -/
theorem parse_cases (tokens : List Token) :
    (∃ program, parse tokens = .ok program ∧ DerivesStmts (Token.beforeEnd tokens) program) ∨
      ∃ failure, parse tokens = .error failure ∧ failure ≠ .tooDeep := by
  have enough : tokens.length < tokens.length + 1 := Nat.lt_succ_self _
  have meets := meets_program enough (meets_statement enough enough)
  rcases meets (.ofList tokens) rfl (Nat.le_refl _) with
    ⟨taken, program, next, read, split, derived⟩ | ⟨failure, next, failed, other⟩
  · refine .inl ⟨program, congrArg Prod.fst read, ?_⟩
    have all : tokens = taken ++ next.ahead := congrArg TokenStream.ahead split
    rw [all, Token.beforeEnd_append derived.kind_ne_endOfInput
      (TokenStream.head_ahead_of_peek (program_stops read))]
    exact derived
  · exact .inr ⟨failure, congrArg Prod.fst failed, other⟩

/-- Parsing never runs out of depth. -/
theorem parse_ne_tooDeep (tokens : List Token) : parse tokens ≠ .error .tooDeep := by
  rcases parse_cases tokens with ⟨program, read, _⟩ | ⟨failure, failed, other⟩
  · rw [read]
    exact nofun
  · rw [failed]
    exact fun same => other (Except.error.inj same)

/-- The parser gives the program that the tokens in front of the first end of the
input derive. Its limits are one more than the number of tokens, which is enough
for every derivation. -/
theorem parse_of_derives {tokens : List Token} {program : Program}
    (derived : DerivesStmts (Token.beforeEnd tokens) program) : parse tokens = .ok program := by
  obtain ⟨stream, split, ended⟩ := TokenStream.ofList_eq_push tokens
  have fits : (Token.beforeEnd tokens).length < tokens.length + 1 :=
    Nat.lt_succ_of_le (Token.length_beforeEnd_le tokens)
  have read := derived.program_push (Nat.le_of_lt fits) (Nat.le_of_lt fits) fits ended
  rw [← split] at read
  exact congrArg Prod.fst read

/-- The parser gives exactly the programs that can be derived. -/
theorem parse_eq_ok_iff {tokens : List Token} {program : Program} :
    parse tokens = .ok program ↔ DerivesStmts (Token.beforeEnd tokens) program := by
  constructor
  · intro read
    rcases parse_cases tokens with ⟨other, given, derived⟩ | ⟨failure, failed, _⟩
    · cases given.symm.trans read
      exact derived
    · exact nomatch failed.symm.trans read
  · exact parse_of_derives

/-- **The parser and the grammar.** For every list of tokens, the parser gives
exactly the programs that the tokens in front of the first end of the input
derive; if they derive none it fails because of a token; and they derive at most
one, its positions included. -/
theorem parse_exactly_grammar (tokens : List Token) :
    (∀ program, parse tokens = .ok program ↔ DerivesStmts (Token.beforeEnd tokens) program) ∧
      ((∀ program, ¬ DerivesStmts (Token.beforeEnd tokens) program) →
        ∃ failure, parse tokens = .error failure ∧ failure ≠ .tooDeep) ∧
      ∀ first second, DerivesStmts (Token.beforeEnd tokens) first →
        DerivesStmts (Token.beforeEnd tokens) second → first = second := by
  refine ⟨fun program => parse_eq_ok_iff, ?_, ?_⟩
  · intro underivable
    rcases parse_cases tokens with ⟨program, _, derived⟩ | failed
    · exact absurd derived (underivable program)
    · exact failed
  · intro first second left right
    exact Except.ok.inj ((parse_of_derives left).symm.trans (parse_of_derives right))

end Scriptlet
