import Scriptlet.Proofs.Syntax.Prediction

/-! # Where the parser complains

Goals can always be closed by more tokens, so what has been read without a
complaint can be completed to a program (`viable_of_run`). The parser therefore
complains about the first token behind which there is no program, whatever
follows it, and each kind that it names instead of that token would have been
fine (`parse_error_raisedAt`).
-/

namespace Scriptlet

open Grammar

/-- Tokens, none of them the end of the input, that more tokens complete to a
program. -/
structure Viable (tokens : List Token) : Prop where
  going : ∀ token ∈ tokens, token.kind ≠ .endOfInput
  completed : ∃ rest program, parse (tokens ++ rest) = .ok program

/-- A token of a given kind that no rule has anything against but its kind. -/
def TokenKind.sample (kind : TokenKind) : Token where
  kind := kind
  lexeme :=
    match kind with
    | .integer => "0"
    | .string => "\"\""
    | _ => ""

namespace Grammar

namespace Goal

/-- Tokens that meet a goal. -/
def closing : Goal → List Token
  | .mark _ kind _ => [kind.sample]
  | .factor => [TokenKind.identifier.sample]
  | .factors => []
  | .terms => []
  | .statement =>
    [TokenKind.printWord.sample, TokenKind.identifier.sample, TokenKind.semicolon.sample]
  | .otherwise => []
  | .block _ => [TokenKind.rightBrace.sample]

/-- A mark meets a token of its kind. -/
theorem meet_mark_sample {rule : String} {kind : TokenKind}
    (plain : kind ∈ [TokenKind.leftParen, .rightParen, .leftBrace, .equals, .semicolon]) :
    (mark rule kind plain).meet kind.sample = some (.ok []) :=
  congrArg some (if_pos rfl)

/-- The kinds that make something longer that could have ended before them. -/
def joining : List TokenKind :=
  [.star, .slash, .plus, .minus, .elseWord]

private theorem meet_eq_none_of_not_joining {token : Token} (quiet : token.kind ∉ joining) :
    factors.meet token = none ∧ terms.meet token = none ∧ otherwise.meet token = none := by
  simp only [joining, List.mem_cons, List.not_mem_nil, or_false, not_or] at quiet
  obtain ⟨notStar, notSlash, notPlus, notMinus, notElse⟩ := quiet
  simp [meet, notStar, notSlash, notPlus, notMinus, notElse]

/-- The closing tokens of a goal lead to the goals behind it. -/
theorem leads_closing (goal : Goal) (rest : List Goal) {next : Token}
    (quiet : next.kind ∉ joining) : Leads (goal :: rest) goal.closing next (offer next rest) := by
  have skips := meet_eq_none_of_not_joining quiet
  cases goal with
  | mark rule kind plain =>
      exact (Leads.here rest next).cons (offer_of_meet (meet_mark_sample plain) rest)
  | factor => exact (Leads.here rest next).cons rfl
  | factors => exact ⟨_, rfl, offer_of_skip skips.1 rest⟩
  | terms => exact ⟨_, rfl, offer_of_skip skips.2.1 rest⟩
  | statement => exact (((Leads.here rest next).cons rfl).cons rfl).cons rfl
  | otherwise => exact ⟨_, rfl, offer_of_skip skips.2.2 rest⟩
  | block rule => exact (Leads.here rest next).cons rfl

private theorem kind_of_mem_closing {goal : Goal} {token : Token} (member : token ∈ goal.closing) :
    token.kind ∉ joining ∧ token.kind ≠ .endOfInput := by
  cases goal with
  | mark rule kind plain =>
      obtain rfl := List.mem_singleton.mp member
      simp only [List.mem_cons, List.not_mem_nil, or_false] at plain
      rcases plain with rfl | rfl | rfl | rfl | rfl <;> decide
  | factor =>
      obtain rfl := List.mem_singleton.mp member
      decide
  | factors => cases member
  | terms => cases member
  | statement =>
      simp only [closing, List.mem_cons, List.not_mem_nil, or_false] at member
      rcases member with rfl | rfl | rfl <;> decide
  | otherwise => cases member
  | block rule =>
      obtain rfl := List.mem_singleton.mp member
      decide

/-- What closes goals joins nothing and is not the end of the input. -/
theorem kind_of_mem_flatMap_closing {goals : List Goal} {token : Token}
    (member : token ∈ goals.flatMap closing) :
    token.kind ∉ joining ∧ token.kind ≠ .endOfInput := by
  obtain ⟨goal, _, inside⟩ := List.mem_flatMap.mp member
  exact kind_of_mem_closing inside

/-- The closing tokens of all goals lead to the end of the input. -/
theorem leads_flatMap_closing (goals : List Goal) {last : Token}
    (ended : last.kind = .endOfInput) : Leads goals (goals.flatMap closing) last (.ok []) := by
  induction goals with
  | nil => exact ⟨[], rfl, if_pos ended⟩
  | cons goal rest ih =>
      have quiet : ((rest.flatMap closing).headD last).kind ∉ joining := by
        cases tokens : rest.flatMap closing with
        | nil =>
            rw [List.headD_nil, ended]
            decide
        | cons token others =>
            exact (kind_of_mem_flatMap_closing (tokens ▸ List.mem_cons_self)).1
      exact (leads_closing goal rest quiet).trans ih

end Goal

end Grammar

/-- What has been read without a complaint can be completed. -/
theorem viable_of_run {taken : List Token} {left : List Goal} (read : run [] taken = .ok left)
    (going : ∀ token ∈ taken, token.kind ≠ .endOfInput) : Viable taken := by
  refine ⟨going, left.flatMap Goal.closing, ?_⟩
  have whole : ∀ token ∈ taken ++ left.flatMap Goal.closing, token.kind ≠ .endOfInput := by
    intro token member
    rcases List.mem_append.mp member with before | behind
    · exact going token before
    · exact (Goal.kind_of_mem_flatMap_closing behind).2
  have all := Token.beforeEnd_of_going whole
  obtain ⟨last, closed, offered⟩ := Goal.leads_flatMap_closing left
    (Token.kind_finish (taken ++ left.flatMap Goal.closing))
  have accepted : run [] (Token.ended (taken ++ left.flatMap Goal.closing)) = .ok [] := by
    rw [Token.ended, all, List.append_assoc, run_append read, run_append closed,
      run_cons_of_ok offered]
    rfl
  rw [run_eq_parse] at accepted
  cases parsed : parse (taken ++ left.flatMap Goal.closing) with
  | error failure =>
      rw [parsed] at accepted
      cases accepted
  | ok program => exact ⟨program, rfl⟩

/-- A token that is rejected makes the parser fail, whatever stands behind it. -/
theorem parse_eq_error_of_leads {taken : List Token} {next : Token} {failure : ParseFailure}
    (rejected : Leads [] taken next (.error failure))
    (going : ∀ token ∈ taken, token.kind ≠ .endOfInput) (rest : List Token) :
    parse (taken ++ next :: rest) = .error failure := by
  have passed : (TokenStream.ofList (taken ++ next :: rest)).Passes taken
      ⟨next :: rest, TokenStream.endOf (taken ++ next :: rest)⟩ := ⟨rfl, going⟩
  obtain ⟨more, split, _⟩ := Token.exists_ended_eq passed
  refine parse_eq_error_iff.mpr ?_
  rw [split]
  exact rejected.run_eq_error more

/-- A failure is about a given token. If it names other kinds, a token of each of
them is fine instead; and it is about the size of the token only if that is a
string without room for its quotes. -/
def ParseFailure.Fair (token : Token) (fine : Token → Prop) : ParseFailure → Prop
  | .rejected error =>
    error.got = token ∧ ∀ kind ∈ error.expected, kind ≠ .endOfInput ∧ fine kind.sample
  | .shortString _ => token.kind = .string ∧ (Bytes.ofString token.lexeme).length < 2
  | .tooDeep => False

/-- A fair failure stays fair if more tokens are fine. -/
theorem ParseFailure.Fair.mono {token : Token} {fine other : Token → Prop}
    {failure : ParseFailure} (fair : failure.Fair token fine)
    (weaker : ∀ token, fine token → other token) : failure.Fair token other := by
  cases failure with
  | rejected error =>
      exact ⟨fair.1, fun kind member => ⟨(fair.2 kind member).1, weaker _ (fair.2 kind member).2⟩⟩
  | shortString size => exact fair
  | tooDeep => exact fair

namespace Grammar

namespace Goal

private theorem fair_openFactor {token : Token} {failure : ParseFailure}
    (failed : openFactor token = .error failure) :
    failure.Fair token fun other => ∃ left, openFactor other = .ok left := by
  unfold openFactor at failed
  split at failed
  · split at failed
    · cases failed
    · cases failed
      exact ⟨rfl, List.forall_mem_nil _⟩
  · cases failed
  · split at failed
    · cases failed
      exact ⟨‹_›, ‹_›⟩
    · cases failed
  · cases failed
  · cases failed
    refine ⟨rfl, ?_⟩
    intro kind member
    simp only [List.mem_cons, List.not_mem_nil, or_false] at member
    rcases member with rfl | rfl | rfl | rfl <;> exact ⟨by decide, _, rfl⟩

/-- A token that starts no statement is fairly rejected. -/
theorem fair_openStatement {token : Token} {failure : ParseFailure}
    (failed : openStatement token = .error failure) :
    failure.Fair token fun other =>
      other.kind ∉ [TokenKind.rightBrace, .endOfInput] ∧ ∃ left, openStatement other = .ok left := by
  unfold openStatement at failed
  split at failed
  · cases failed
  · cases failed
  · cases failed
  · cases failed
  · cases failed
    refine ⟨rfl, ?_⟩
    intro kind member
    simp only [List.mem_cons, List.not_mem_nil, or_false] at member
    rcases member with rfl | rfl | rfl | rfl <;> exact ⟨by decide, by decide, _, rfl⟩

/-- A goal that rejects a token is fair to it. -/
theorem fair_meet {goal : Goal} {token : Token} {failure : ParseFailure}
    (failed : goal.meet token = some (.error failure)) :
    failure.Fair token fun other => ∃ left, goal.meet other = some (.ok left) := by
  cases goal with
  | mark rule kind plain =>
      rw [meet] at failed
      split at failed
      · cases failed
      · cases failed
        refine ⟨rfl, ?_⟩
        intro other member
        obtain rfl := List.mem_singleton.mp member
        refine ⟨?_, [], meet_mark_sample plain⟩
        rintro rfl
        exact absurd plain (by decide)
  | factor =>
      refine (fair_openFactor (Option.some.inj failed)).mono ?_
      rintro other ⟨left, opened⟩
      exact ⟨left, congrArg some opened⟩
  | factors =>
      rw [meet] at failed
      split at failed <;> cases failed
  | terms =>
      rw [meet] at failed
      split at failed <;> cases failed
  | statement =>
      refine (fair_openStatement (Option.some.inj failed)).mono ?_
      rintro other ⟨_, left, opened⟩
      exact ⟨left, congrArg some opened⟩
  | otherwise =>
      rw [meet] at failed
      split at failed <;> cases failed
  | block rule =>
      have result := Option.some.inj failed
      split at result
      · cases result
      · split at result
        · cases result
          refine ⟨rfl, ?_⟩
          intro kind member
          obtain rfl := List.mem_singleton.mp member
          exact ⟨by decide, [], rfl⟩
        · cases opened : openStatement token with
          | ok left =>
              rw [opened] at result
              cases result
          | error complaint =>
              rw [opened] at result
              cases result
              refine (fair_openStatement opened).mono ?_
              rintro other ⟨inside, left, begun⟩
              simp only [List.mem_cons, List.not_mem_nil, or_false, not_or] at inside
              refine ⟨left ++ [.block rule], ?_⟩
              rw [meet, if_neg inside.1, if_neg inside.2, begun]
              rfl

/-- A goal that can do without some token rejects none. -/
theorem meet_ne_error_of_eq_none {goal : Goal} {token : Token} (skipped : goal.meet token = none)
    (other : Token) (failure : ParseFailure) : goal.meet other ≠ some (.error failure) := by
  intro failed
  cases goal with
  | mark rule kind plain => cases skipped
  | factor => cases skipped
  | statement => cases skipped
  | block rule => cases skipped
  | _ =>
      rw [meet] at failed
      split at failed <;> cases failed

end Goal

/-- What goals reject they reject fairly. -/
theorem fair_offer {token : Token} {goals : List Goal} {failure : ParseFailure}
    (failed : offer token goals = .error failure) :
    failure.Fair token fun other => ∃ left, offer other goals = .ok left := by
  induction goals with
  | nil =>
      rw [offer] at failed
      split at failed
      · cases failed
      · refine (Goal.fair_openStatement failed).mono ?_
        rintro other ⟨inside, left, opened⟩
        simp only [List.mem_cons, List.not_mem_nil, or_false, not_or] at inside
        exact ⟨left, by rw [offer, if_neg inside.2, opened]⟩
  | cons goal rest ih =>
      cases met : goal.meet token with
      | none =>
          rw [offer_of_skip met] at failed
          refine (ih failed).mono ?_
          rintro other ⟨left, offered⟩
          -- The goal is one that may be skipped, so it does not stand in the way.
          cases again : goal.meet other with
          | none => exact ⟨left, by rw [offer_of_skip again, offered]⟩
          | some result =>
              cases result with
              | error complaint =>
                  exact absurd again (Goal.meet_ne_error_of_eq_none met other complaint)
              | ok opened => exact ⟨opened ++ rest, offer_of_meet again rest⟩
      | some result =>
          rw [offer_of_meet met] at failed
          cases result with
          | ok opened => cases failed
          | error complaint =>
              cases failed
              refine (Goal.fair_meet met).mono ?_
              rintro other ⟨opened, again⟩
              exact ⟨opened ++ rest, offer_of_meet again rest⟩

end Grammar

/-- Where a list of tokens is cut at a token up to its end. -/
theorem Token.cut_of_ended_eq {tokens taken more : List Token} {next : Token}
    (split : Token.ended tokens = taken ++ next :: more) :
    (∀ token ∈ taken, token.kind ≠ .endOfInput) ∧
      ((∃ rest, tokens = taken ++ next :: rest) ∨
        tokens = taken ∧ next = TokenStream.endOf tokens) := by
  have parts : tokens = beforeEnd tokens ++ tokens.dropWhile fun token => token.kind != .endOfInput :=
    (List.takeWhile_append_dropWhile).symm
  have going : ∀ token ∈ beforeEnd tokens, token.kind ≠ .endOfInput := by
    intro token member
    have test := List.mem_takeWhile_imp member
    exact bne_iff_ne.mp test
  rw [Token.ended] at split
  rcases List.eq_nil_or_concat more with rfl | ⟨others, last, rfl⟩
  · obtain ⟨rfl, only⟩ := List.append_inj' split rfl
    obtain rfl := List.singleton_inj.mp only
    refine ⟨going, ?_⟩
    rw [finish]
    cases behind : tokens.dropWhile fun token => token.kind != .endOfInput with
    | nil =>
        rw [behind, List.append_nil] at parts
        exact .inr ⟨parts, rfl⟩
    | cons token rest =>
        rw [behind] at parts
        exact .inl ⟨rest, parts⟩
  · rw [List.concat_eq_append, ← List.cons_append, ← List.append_assoc] at split
    obtain ⟨before, _⟩ := List.append_inj' split rfl
    rw [before] at going parts
    rw [List.append_assoc] at parts
    exact ⟨fun token member => going token (List.mem_append_left _ member), .inl ⟨_, parts⟩⟩

/-- A complaint is about the token at some index, or about the end of the input
behind as many tokens, and rightly so. -/
structure ParseError.RaisedAt (error : ParseError) (tokens : List Token) (index : Nat) : Prop where
  within : index ≤ tokens.length
  got_eq : error.got = tokens.getD index (TokenStream.endOf tokens)
  /-- What stands in front of the token could have become a program. -/
  viable : Viable (tokens.take index)
  /-- With the token it cannot. -/
  earliest : error.got.kind ≠ .endOfInput → ¬ Viable (tokens.take (index + 1))
  /-- Nothing behind the token has a part in the complaint. -/
  settled : error.got.kind ≠ .endOfInput → ∀ others : List Token,
    others.take (index + 1) = tokens.take (index + 1) → parse others = .error (.rejected error)
  /-- With a token of an expected kind instead, it could become a program. -/
  expected_viable : ∀ kind ∈ error.expected, ∃ token : Token,
    token.kind = kind ∧ Viable (tokens.take index ++ [token])

/-- Each kind that is expected where goals reject a token could have stood there. -/
theorem exists_viable_of_expected {taken : List Token} {left : List Goal} {token : Token}
    {error : ParseError} (read : run [] taken = .ok left)
    (going : ∀ token ∈ taken, token.kind ≠ .endOfInput)
    (offered : offer token left = .error (.rejected error)) :
    ∀ kind ∈ error.expected, ∃ token : Token,
      token.kind = kind ∧ Viable (taken ++ [token]) := by
  intro kind member
  obtain ⟨inside, opened, accepted⟩ := (fair_offer offered).2 kind member
  have reads : run [] (taken ++ [kind.sample]) = .ok opened := by
    rw [run_append read, run_cons_of_ok accepted]
    rfl
  refine ⟨kind.sample, rfl, viable_of_run reads ?_⟩
  exact List.forall_mem_append.mpr ⟨going, List.forall_mem_singleton.mpr inside⟩

/-- A complaint about a token behind others that were accepted is raised there. -/
theorem ParseError.raisedAt_of_offer {taken : List Token} {left : List Goal} {error : ParseError}
    (read : run [] taken = .ok left) (going : ∀ token ∈ taken, token.kind ≠ .endOfInput)
    (offered : offer error.got left = .error (.rejected error)) (rest : List Token) :
    error.RaisedAt (taken ++ error.got :: rest) taken.length := by
  have viable := viable_of_run read going
  have suggested := exists_viable_of_expected read going offered
  have fails := parse_eq_error_of_leads ⟨left, read, offered⟩ going
  have front : (taken ++ error.got :: rest).take (taken.length + 1) = taken ++ [error.got] := by
    rw [List.take_length_add_append]
    rfl
  refine ⟨by simp, by simp, by simpa using viable, ?_, ?_, by simpa using suggested⟩
  · intro _ alive
    obtain ⟨others, program, parsed⟩ := alive.completed
    rw [front, List.append_assoc] at parsed
    exact nomatch parsed.symm.trans (fails others)
  · intro _ others same
    have begins := List.take_append_drop (taken.length + 1) others
    rw [same, front, List.append_assoc] at begins
    rw [← begins]
    exact fails _

/-- A complaint about the end of tokens that were accepted is raised behind
them. -/
theorem ParseError.raisedAt_length {tokens : List Token} {left : List Goal} {error : ParseError}
    (read : run [] tokens = .ok left) (going : ∀ token ∈ tokens, token.kind ≠ .endOfInput)
    (offered : offer error.got left = .error (.rejected error))
    (ends : error.got = TokenStream.endOf tokens) : error.RaisedAt tokens tokens.length := by
  have viable := viable_of_run read going
  have suggested := exists_viable_of_expected read going offered
  have finished : error.got.kind = .endOfInput := by
    rw [ends]
    rfl
  refine ⟨Nat.le_refl _, by simpa using ends, by simpa using viable, ?_, ?_,
    by simpa using suggested⟩
  · exact fun unfinished => absurd finished unfinished
  · exact fun unfinished => absurd finished unfinished

/-- **The parser complains as early as it can.** Of tokens whose strings have room
for their quotes, what is no program has a first token behind which there is no
program, or ends too early; the parser complains about that place, does so
whatever stands behind it, and what it expects there would have been fine. -/
theorem parse_error_raisedAt {tokens : List Token} {failure : ParseFailure}
    (quoted : ∀ token ∈ tokens, token.kind = .string → 2 ≤ (Bytes.ofString token.lexeme).length)
    (failed : parse tokens = .error failure) :
    ∃ error index, failure = .rejected error ∧ error.RaisedAt tokens index := by
  have ran : run [] (Token.ended tokens) = .error failure := by
    rw [run_eq_parse, failed]
    rfl
  obtain ⟨taken, next, more, split, left, read, offered⟩ := exists_leads_of_run_eq_error ran
  obtain ⟨going, place⟩ := Token.cut_of_ended_eq split
  have fair := fair_offer offered
  cases failure with
  | tooDeep => exact fair.elim
  | shortString size =>
      rcases place with ⟨rest, rfl⟩ | ⟨rfl, rfl⟩
      · have room := quoted next (by simp) fair.1
        exact absurd room (Nat.not_le.mpr fair.2)
      · exact nomatch fair.1
  | rejected error =>
      obtain rfl : error.got = next := fair.1
      refine ⟨error, taken.length, rfl, ?_⟩
      rcases place with ⟨rest, rfl⟩ | ⟨rfl, ends⟩
      · exact ParseError.raisedAt_of_offer read going offered rest
      · exact ParseError.raisedAt_length read going offered ends

/-- `if (1) { print "" + (2 * ; }` -/
def danglingProduct : List Token :=
  [⟨.ifWord, "if", {}⟩, ⟨.leftParen, "(", {}⟩, ⟨.integer, "1", {}⟩, ⟨.rightParen, ")", {}⟩,
    ⟨.leftBrace, braceOpen, {}⟩, ⟨.printWord, "print", {}⟩, ⟨.string, "\"\"", {}⟩, ⟨.plus, "+", {}⟩,
    ⟨.leftParen, "(", {}⟩, ⟨.integer, "2", {}⟩, ⟨.star, "*", {}⟩, ⟨.semicolon, ";", {}⟩,
    ⟨.rightBrace, braceClose, {}⟩, ⟨.endOfInput, "", {}⟩]

/-- A product that lacks its second operand. -/
theorem danglingProduct_parse_error_raisedAt :
    let failure : ParseFailure := .rejected
      ⟨[.integer, .identifier, .string, .leftParen], ⟨.semicolon, ";", {}⟩, "expression", ""⟩
    (∀ token ∈ danglingProduct,
        token.kind = .string → 2 ≤ (Bytes.ofString token.lexeme).length) ∧
      parse danglingProduct = .error failure ∧
      ∃ error index, failure = .rejected error ∧ error.RaisedAt danglingProduct index := by
  intro failure
  have quoted : ∀ token ∈ danglingProduct,
      token.kind = .string → 2 ≤ (Bytes.ofString token.lexeme).length := by decide
  have failed : parse danglingProduct = .error failure := rfl
  exact ⟨quoted, failed, parse_error_raisedAt quoted failed⟩

end Scriptlet
