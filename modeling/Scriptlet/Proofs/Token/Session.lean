import Mathlib.Data.Stream.Init
import Scriptlet.Token.Lexer

/-! # Taking tokens and looking ahead

A lexer serves calls: the next token can be taken, looked at, or asked for its kind.
Whatever calls are made, the results that they use up are those that taking alone
gives, one after the other; and a token that has been looked at is taken next.
-/

namespace Scriptlet

namespace Lexer

inductive Call where
  | next
  | peek
  | peekIs (kinds : List TokenKind)
deriving DecidableEq, Repr

inductive Reply where
  | token (token : Token)
  | verdict (holds : Bool)
  | failed (failure : LexFailure)
deriving DecidableEq, Repr

def Reply.ofResult {α : Type} (answer : α → Reply) : Except LexFailure α → Reply
  | .ok value => answer value
  | .error failure => .failed failure

/-- Answers a call. Gives the answer and the lexer behind the call. -/
def serve (lexer : Lexer) : Call → Reply × Lexer
  | .next => (.ofResult .token lexer.next.1, lexer.next.2)
  | .peek => (.ofResult .token lexer.peek.1, lexer.peek.2)
  | .peekIs kinds => (.ofResult .verdict (lexer.peekIs kinds).1, (lexer.peekIs kinds).2)

def serveAll (lexer : Lexer) : List Call → Lexer
  | [] => lexer
  | call :: calls => (lexer.serve call).2.serveAll calls

/-- What a call shows of the next token. -/
def Call.view : Call → Token → Reply
  | .next, token => .token token
  | .peek, token => .token token
  | .peekIs kinds, token => .verdict (kinds.contains token.kind)

/-- The result that a call uses up: a token that is taken, or a failure. -/
def Call.used : Call → Reply → List (Except LexFailure Token)
  | .next, .token token => [.ok token]
  | _, .failed failure => [.error failure]
  | _, _ => []

/-- Every call makes use of a failure. -/
theorem Call.used_failed (call : Call) (failure : LexFailure) :
    call.used (.failed failure) = [.error failure] := by
  cases call <;> rfl

/-- A look uses no token up. -/
theorem Call.used_view (call : Call) (looking : call ≠ .next) (token : Token) :
    call.used (call.view token) = [] := by
  cases call with
  | next => exact absurd rfl looking
  | peek => rfl
  | peekIs kinds => rfl

/-- The results that some calls use up, in the order of the calls. -/
def used (lexer : Lexer) : List Call → List (Except LexFailure Token)
  | [] => []
  | call :: calls =>
    call.used (lexer.serve call).1 ++ (lexer.serve call).2.used calls

/-- The endless sequence of results that taking alone gives. -/
def results : Lexer → Stream' (Except LexFailure Token) :=
  Stream'.corec' next

/-- The results start with the next one. -/
theorem results_eq (lexer : Lexer) :
    lexer.results = Stream'.cons lexer.next.1 lexer.next.2.results :=
  Stream'.corec'_eq next lexer

def hold (lexer : Lexer) (token : Token) : Lexer :=
  { lexer with peeked := some token }

private theorem peeked_scan (lexer : Lexer) : lexer.scan.2.peeked = lexer.peeked := by
  unfold scan
  cases lexer.ahead.dropWhile fun glyph => Lexical.isBlank glyph.char with
  | nil => rfl
  | cons first text => rfl

/-- Behind a token that was taken, nothing is held. -/
theorem peeked_next (lexer : Lexer) : lexer.next.2.peeked = none := by
  unfold next
  cases held : lexer.peeked with
  | some token => rfl
  | none => exact lexer.peeked_scan.trans held

/-- A token that is held is the next one. -/
theorem next_hold {lexer : Lexer} (free : lexer.peeked = none) (token : Token) :
    (lexer.hold token).next = (.ok token, lexer) := by
  obtain ⟨ahead, position, fault, peeked⟩ := lexer
  cases free
  rfl

/-- Looking is taking and putting back, and a failure is not put back. -/
theorem peek_cases (lexer : Lexer) :
    (∃ token, lexer.next.1 = .ok token ∧ lexer.peek = (.ok token, lexer.next.2.hold token)) ∨
      ∃ failure, lexer.next.1 = .error failure ∧
        lexer.peek = (.error failure, lexer.next.2) := by
  obtain ⟨ahead, position, fault, peeked⟩ := lexer
  cases peeked with
  | some token => exact .inl ⟨token, rfl, rfl⟩
  | none =>
      simp only [next, peek]
      rcases scan _ with ⟨failure | token, behind⟩
      · exact .inr ⟨failure, rfl, rfl⟩
      · exact .inl ⟨token, rfl, rfl⟩

/-- Calls other than taking differ only in what they show. -/
theorem serve_of_ne_next (lexer : Lexer) {call : Call} (looking : call ≠ .next) :
    lexer.serve call = (.ofResult call.view lexer.peek.1, lexer.peek.2) := by
  cases call with
  | next => exact absurd rfl looking
  | peek => rfl
  | peekIs kinds =>
      rw [serve, peekIs]
      rcases lexer.peek with ⟨failure | token, behind⟩
      · rfl
      · rfl

/-- The step of `results_serveAll`: a call uses up the first result or none. -/
theorem results_serve (lexer : Lexer) (call : Call) :
    call.used (lexer.serve call).1 ++ₛ (lexer.serve call).2.results = lexer.results := by
  rw [results_eq lexer]
  by_cases looking : call = .next
  · subst looking
    rw [serve]
    cases lexer.next.1 with
    | error failure => rfl
    | ok token => rfl
  · rw [serve_of_ne_next lexer looking]
    rcases lexer.peek_cases with ⟨token, taken, seen⟩ | ⟨failure, taken, seen⟩
    · rw [seen, taken, Reply.ofResult, call.used_view looking, Stream'.nil_append_stream,
        results_eq, next_hold lexer.peeked_next]
    · rw [seen, taken, Reply.ofResult, call.used_failed]
      rfl

private theorem results_serveAll (lexer : Lexer) (calls : List Call) :
    lexer.used calls ++ₛ (lexer.serveAll calls).results = lexer.results := by
  induction calls generalizing lexer with
  | nil => rfl
  | cons call calls ih =>
      rw [used, serveAll, Stream'.append_append_stream, ih]
      exact lexer.results_serve call

private theorem serveAll_append (lexer : Lexer) (first second : List Call) :
    lexer.serveAll (first ++ second) = (lexer.serveAll first).serveAll second := by
  induction first generalizing lexer with
  | nil => rfl
  | cons call calls ih => exact ih (lexer.serve call).2

/-- Looking at a token that has been looked at before changes nothing. -/
theorem serveAll_hold (lexer : Lexer) (token : Token) {calls : List Call}
    (looking : .next ∉ calls) : (lexer.hold token).serveAll calls = lexer.hold token := by
  induction calls with
  | nil => rfl
  | cons call calls ih =>
      obtain ⟨differs, others⟩ := not_or.mp (mt List.mem_cons.mpr looking)
      rw [serveAll, serve_of_ne_next _ (Ne.symm differs)]
      exact ih others

/-- A look that does not fail shows the token that is taken next. -/
theorem exists_view_of_serve (lexer : Lexer) {look : Call} {between : List Call}
    (looking : .next ∉ look :: between)
    (shown : ∀ failure, (lexer.serve look).1 ≠ .failed failure) :
    ∃ token, (lexer.serve look).1 = look.view token ∧
      ((lexer.serveAll (look :: between)).serve .next).1 = .token token := by
  obtain ⟨differs, others⟩ := not_or.mp (mt List.mem_cons.mpr looking)
  rw [serve_of_ne_next lexer (Ne.symm differs)] at shown
  rw [serveAll, serve_of_ne_next lexer (Ne.symm differs)]
  rcases lexer.peek_cases with ⟨token, _, seen⟩ | ⟨failure, _, seen⟩
  · refine ⟨token, by rw [seen]; rfl, ?_⟩
    rw [seen, serveAll_hold _ token others, serve, next_hold lexer.peeked_next]
    rfl
  · rw [seen] at shown
    exact absurd rfl (shown failure)

/-- **Looking ahead changes nothing.** For every source, whether reading it ends or
fails, and for all calls: what the calls use up, followed by what taking alone still
gives behind them, is what taking alone gives from the start. And what a further call
shows without failing is the token that is taken next, however often one looks at it
in between. -/
theorem looking_transparent (input : Input) (file : String) (calls : List Call) :
    (ofInput input file).used calls ++ₛ ((ofInput input file).serveAll calls).results =
        (ofInput input file).results ∧
      ∀ look between, .next ∉ look :: between →
        (∀ failure, (((ofInput input file).serveAll calls).serve look).1 ≠ .failed failure) →
        ∃ token, (((ofInput input file).serveAll calls).serve look).1 = look.view token ∧
          (((ofInput input file).serveAll (calls ++ look :: between)).serve .next).1 =
            .token token := by
  refine ⟨results_serveAll _ calls, ?_⟩
  intro look between looking shown
  rw [serveAll_append]
  exact exists_view_of_serve _ looking shown

/-- A character that starts no token stands between two tokens, and reading fails
behind them. -/
def brokenOff : Input where
  bytes := Bytes.ofString "a @ 7;"
  fault := some "closed"

/-- Looks at a source that breaks off. -/
theorem brokenOff_looking_transparent :
    let fresh := ofInput brokenOff "main.peri"
    let calls := [.peek, .next, .peekIs [.identifier]]
    let look := Call.peekIs [.integer]
    .next ∉ [look, .peek] ∧ (∀ failure, ((fresh.serveAll calls).serve look).1 ≠ .failed failure) ∧
      fresh.used calls ++ₛ (fresh.serveAll calls).results = fresh.results ∧
      ∃ token, ((fresh.serveAll calls).serve look).1 = look.view token ∧
        ((fresh.serveAll (calls ++ [look, .peek])).serve .next).1 = .token token := by
  intro fresh calls look
  have looking : .next ∉ [look, .peek] := by decide
  have shown : ((fresh.serveAll calls).serve look).1 = .verdict true := by decide +kernel
  have passed (failure : LexFailure) :
      ((fresh.serveAll calls).serve look).1 ≠ .failed failure := by
    rw [shown]
    exact nofun
  obtain ⟨segment, foreseen⟩ := looking_transparent brokenOff "main.peri" calls
  exact ⟨looking, passed, segment, foreseen look [.peek] looking passed⟩

end Lexer

end Scriptlet
