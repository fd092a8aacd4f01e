import Scriptlet.Proofs.Syntax.Rejection

/-! # The end of the input

A list of tokens may hold a token for its end, or just stop. Goals treat every such
token alike: they are met without it, or they complain about it in the same words
(`Grammar.offer_end`). So it does not matter for the parser how the end is written, nor
what stands behind it (`parse_append_end`).
-/

namespace Scriptlet

open Grammar

/-- Tokens of which none is the end, up to the end that follows them: the one that is
written there, or the one that stands behind all of them. -/
theorem Token.ended_append {tokens rest : List Token}
    (going : ∀ token ∈ tokens, token.kind ≠ .endOfInput)
    (stops : ∀ token ∈ rest.head?, token.kind = .endOfInput) :
    Token.ended (tokens ++ rest) = tokens ++ [rest.headD (TokenStream.endOf (tokens ++ rest))] := by
  have passed : (TokenStream.ofList (tokens ++ rest)).Passes tokens
      ⟨rest, TokenStream.endOf (tokens ++ rest)⟩ := ⟨rfl, going⟩
  obtain ⟨more, split, nothing⟩ := Token.exists_ended_eq passed
  have finished : (rest.headD (TokenStream.endOf (tokens ++ rest))).kind = .endOfInput := by
    cases rest with
    | nil => rfl
    | cons token others => exact stops token rfl
  rw [split, nothing finished]
  rfl

namespace Grammar

/-- Where tokens were rejected, more of them change nothing. -/
theorem run_append_of_error {goals : List Goal} {tokens : List Token} {failure : ParseFailure}
    (failed : run goals tokens = .error failure) (more : List Token) :
    run goals (tokens ++ more) = .error failure := by
  obtain ⟨taken, next, others, rfl, leads⟩ := exists_leads_of_run_eq_error failed
  rw [List.append_assoc]
  exact leads.run_eq_error (others ++ more)

/-- At the end of the input a goal is met without a token, or complains about the token
for the end, whatever that token is. -/
theorem Goal.meet_end (goal : Goal) :
    (∀ token : Token, token.kind = .endOfInput → goal.meet token = none) ∨
      ∃ expected rule, ∀ token : Token, token.kind = .endOfInput →
        goal.meet token = some (.error (.rejected ⟨expected, token, rule, ""⟩)) := by
  cases goal with
  | mark rule kind plain =>
      refine .inr ⟨[kind], rule, ?_⟩
      intro token ended
      have other : token.kind ≠ kind := by
        rintro rfl
        rw [ended] at plain
        exact absurd plain (by decide)
      rw [meet, if_neg other]
  | factor =>
      refine .inr ⟨[.integer, .identifier, .string, .leftParen], "expression", ?_⟩
      intro token ended
      rw [meet, openFactor, ended]
  | statement =>
      refine .inr ⟨[.printWord, .identifier, .ifWord, .whileWord], "statement", ?_⟩
      intro token ended
      rw [meet, openStatement, ended]
  | block rule =>
      refine .inr ⟨[.rightBrace], rule, ?_⟩
      intro token ended
      rw [meet, ended]
      rfl
  | _ =>
      refine .inl ?_
      intro token ended
      rw [meet, ended]
      rfl

/-- At the end of the input all goals are met, or the first one that is not complains
about the token for the end, whatever that token is. -/
theorem offer_end (goals : List Goal) :
    (∀ token : Token, token.kind = .endOfInput → offer token goals = .ok []) ∨
      ∃ expected rule, ∀ token : Token, token.kind = .endOfInput →
        offer token goals = .error (.rejected ⟨expected, token, rule, ""⟩) := by
  induction goals with
  | nil => exact .inl fun token ended => if_pos ended
  | cons goal rest ih =>
      rcases goal.meet_end with skipped | ⟨expected, rule, met⟩
      · rcases ih with accepted | ⟨expected, rule, rejected⟩
        · refine .inl ?_
          intro token ended
          rw [offer_of_skip (skipped token ended), accepted token ended]
        · refine .inr ⟨expected, rule, ?_⟩
          intro token ended
          rw [offer_of_skip (skipped token ended), rejected token ended]
      · refine .inr ⟨expected, rule, ?_⟩
        intro token ended
        rw [offer_of_meet (met token ended)]
        rfl

end Grammar

/-- Tokens that do not say where they end are rejected at one of them, with the same
complaint whatever follows; or at their end, with the same complaint about each token
that may stand for it. -/
theorem run_concat_cases {tokens : List Token} {first : Token} {failure : ParseFailure}
    (ended : first.kind = .endOfInput) (failed : run [] (tokens ++ [first]) = .error failure) :
    (∀ token, run [] (tokens ++ [token]) = .error failure) ∨
      ∃ error : ParseError, error.got = first ∧ failure = .rejected error ∧
        ∀ token : Token, token.kind = .endOfInput →
          run [] (tokens ++ [token]) = .error (.rejected { error with got := token }) := by
  cases read : run [] tokens with
  | error complaint =>
      cases (run_append_of_error read [first]).symm.trans failed
      exact .inl fun token => run_append_of_error read [token]
  | ok left =>
      have complains {token : Token} {failure : ParseFailure}
          (offered : offer token left = .error failure) :
          run [] (tokens ++ [token]) = .error failure := by
        rw [run_append read, run, offered]
      rcases offer_end left with accepted | ⟨expected, rule, rejected⟩
      · rw [run_append read, run_cons_of_ok (accepted first ended)] at failed
        cases failed
      · cases (complains (rejected first ended)).symm.trans failed
        refine .inr ⟨_, rfl, rfl, ?_⟩
        intro token finished
        exact complains (rejected token finished)

/-- **The end of the input and what follows it.** For all tokens without an end of the
input, every token for the end and all tokens behind it: with or without them, the parser
gives the same program, its positions included; or it fails in the same way; or it
complains about the end of the input both times, and only the token for the end
differs. -/
theorem parse_append_end {tokens : List Token}
    (going : ∀ token ∈ tokens, token.kind ≠ .endOfInput) {last : Token}
    (ended : last.kind = .endOfInput) (rest : List Token) :
    (∃ program, parse tokens = .ok program ∧ parse (tokens ++ last :: rest) = .ok program) ∨
      (∃ failure, failure ≠ .tooDeep ∧ parse tokens = .error failure ∧
        parse (tokens ++ last :: rest) = .error failure) ∨
      ∃ error : ParseError, error.got = TokenStream.endOf tokens ∧
        parse tokens = .error (.rejected error) ∧
        parse (tokens ++ last :: rest) = .error (.rejected { error with got := last }) := by
  have stops : ∀ token ∈ (last :: rest).head?, token.kind = .endOfInput := by
    rintro token ⟨⟩
    exact ended
  rcases parse_cases tokens with ⟨program, read, derived⟩ | ⟨failure, failed, other⟩
  · refine .inl ⟨program, read, parse_eq_ok_iff.mpr ?_⟩
    rw [Token.beforeEnd_append going stops]
    rwa [Token.beforeEnd_of_going going] at derived
  · have unwritten := @Token.ended_append tokens [] going (fun _ absent => nomatch absent)
    rw [List.append_nil] at unwritten
    have ran := parse_eq_error_iff.mp failed
    rw [unwritten] at ran
    have written : Token.ended (tokens ++ last :: rest) = tokens ++ [last] :=
      Token.ended_append going stops
    rcases run_concat_cases rfl ran with same | ⟨error, got, rfl, complains⟩
    · refine .inr (.inl ⟨failure, other, failed, parse_eq_error_iff.mpr ?_⟩)
      rw [written]
      exact same last
    · refine .inr (.inr ⟨error, got, failed, parse_eq_error_iff.mpr ?_⟩)
      rw [written]
      exact complains last ended

/-- `print (1 +`, which more tokens would complete. -/
def openSum : List Token :=
  [⟨.printWord, "print", {}⟩, ⟨.leftParen, "(", {}⟩, ⟨.integer, "1", {}⟩, ⟨.plus, "+", {}⟩]

/-- A sum that lacks its second operand. -/
theorem openSum_parse_append_end :
    let last : Token := ⟨.endOfInput, "?", .point ⟨7, 7, 7, "main.peri"⟩⟩
    let rest : List Token :=
      [⟨.integer, "2", {}⟩, ⟨.rightParen, ")", {}⟩, ⟨.semicolon, ";", {}⟩]
    (∀ token ∈ openSum, token.kind ≠ .endOfInput) ∧ last.kind = .endOfInput ∧
      ((∃ program, parse openSum = .ok program ∧ parse (openSum ++ last :: rest) = .ok program) ∨
        (∃ failure, failure ≠ .tooDeep ∧ parse openSum = .error failure ∧
          parse (openSum ++ last :: rest) = .error failure) ∨
        ∃ error : ParseError, error.got = TokenStream.endOf openSum ∧
          parse openSum = .error (.rejected error) ∧
          parse (openSum ++ last :: rest) = .error (.rejected { error with got := last })) := by
  intro last rest
  have going : ∀ token ∈ openSum, token.kind ≠ .endOfInput := by decide
  exact ⟨going, rfl, parse_append_end going rfl rest⟩

end Scriptlet
