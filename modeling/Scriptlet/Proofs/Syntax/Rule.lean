import Scriptlet.Proofs.Syntax.Derivation

/-! # Rules and what they take

A rule meets a specification if, on every stream that is not too long, it takes
tokens that the specification allows for the value it gives, or fails because of
a token. Rules that meet specifications can be put one after another
(`Rule.Meets.bind`).
-/

namespace Scriptlet

namespace TokenStream

/-- The stream with some more tokens in front. -/
def push (tokens : List Token) (stream : TokenStream) : TokenStream :=
  { stream with ahead := tokens ++ stream.ahead }

@[simp]
theorem push_nil (stream : TokenStream) : stream.push [] = stream :=
  rfl

@[simp]
theorem push_append (left right : List Token) (stream : TokenStream) :
    stream.push (left ++ right) = (stream.push right).push left := by
  simp only [push, List.append_assoc]

@[simp]
theorem last_push (tokens : List Token) (stream : TokenStream) :
    (stream.push tokens).last = stream.last :=
  rfl

@[simp]
theorem ahead_push (tokens : List Token) (stream : TokenStream) :
    (stream.push tokens).ahead = tokens ++ stream.ahead :=
  rfl

@[simp]
theorem peek_push_cons (token : Token) (tokens : List Token) (stream : TokenStream) :
    (stream.push (token :: tokens)).peek = token :=
  rfl

/-- A look for kinds succeeds for the kind of the next token. -/
theorem peekIs_iff {stream : TokenStream} {kinds : List TokenKind} :
    stream.peekIs kinds = true ↔ stream.peek.kind ∈ kinds :=
  List.contains_iff_mem

/-- A token in front is passed, unless it is the end of the input. -/
theorem advance_push_cons {token : Token} (going : token.kind ≠ .endOfInput)
    (tokens : List Token) (stream : TokenStream) :
    (stream.push (token :: tokens)).advance = stream.push tokens := by
  rw [advance, peek_push_cons, if_neg going]
  rfl

/-- A stream whose next token is not the end of the input has that token ahead,
if the token behind all others is the end. -/
theorem eq_push_advance {stream : TokenStream} (ended : stream.last.kind = .endOfInput)
    (going : stream.peek.kind ≠ .endOfInput) :
    stream = stream.advance.push [stream.peek] := by
  obtain ⟨ahead, last⟩ := stream
  cases ahead with
  | nil => exact absurd ended going
  | cons token tokens =>
      have moved : advance ⟨token :: tokens, last⟩ = ⟨tokens, last⟩ := if_neg going
      rw [moved]
      rfl

end TokenStream

namespace Rule

variable {α β : Type}

/-- A rule meets a specification on streams of at most some number of tokens: it
takes tokens that the specification allows for the value given, or it fails for
another reason than its limits. -/
def Meets (bound : Nat) (spec : List Token → α → Prop) (rule : Rule α) : Prop :=
  ∀ stream : TokenStream, stream.last.kind = .endOfInput → stream.ahead.length ≤ bound →
    (∃ tokens value next, rule stream = (.ok value, next) ∧ stream = next.push tokens ∧
      spec tokens value) ∨
    ∃ failure next, rule stream = (.error failure, next) ∧ failure ≠ .tooDeep

/-- A look at the next token chooses how to go on. -/
theorem check_bind_apply (kinds : List TokenKind) (choose : Bool → Rule α) (stream : TokenStream) :
    (check kinds >>= choose) stream = choose (stream.peekIs kinds) stream :=
  rfl

/-- A rule that meets a specification meets a weaker one with less room. -/
theorem Meets.mono {bound smaller : Nat} {spec post : List Token → α → Prop} {rule : Rule α}
    (meets : rule.Meets bound spec) (below : smaller ≤ bound)
    (weaker : ∀ tokens value, spec tokens value → post tokens value) :
    rule.Meets smaller post := by
  intro stream ended short
  rcases meets stream ended (Nat.le_trans short below) with
    ⟨tokens, value, next, given, taken, holds⟩ | failed
  · exact .inl ⟨tokens, value, next, given, taken, weaker tokens value holds⟩
  · exact .inr failed

/-- A value that is given meets a specification of no tokens. -/
theorem Meets.give {bound : Nat} {spec : List Token → α → Prop} {value : α}
    (holds : spec [] value) : (pure value : Rule α).Meets bound spec :=
  fun stream _ _ => .inl ⟨[], value, stream, rfl, rfl, holds⟩

/-- A rule that fails meets any specification. -/
theorem Meets.fail {bound : Nat} {spec : List Token → α → Prop} {failure : ParseFailure}
    (other : failure ≠ .tooDeep) : (Rule.fail failure : Rule α).Meets bound spec :=
  fun stream _ _ => .inr ⟨failure, stream, rfl, other⟩

/-- One rule and then another take the tokens of both. -/
theorem Meets.bind {bound : Nat} {spec : List Token → α → Prop} {post : List Token → β → Prop}
    {first : Rule α} {second : α → Rule β} (head : first.Meets bound spec)
    (tail : ∀ tokens value, tokens.length ≤ bound → spec tokens value →
      (second value).Meets (bound - tokens.length)
        fun others result => post (tokens ++ others) result) :
    (first >>= second).Meets bound post := by
  intro stream ended short
  rcases head stream ended short with
    ⟨tokens, value, next, given, rfl, holds⟩ | ⟨failure, next, failed, other⟩
  · rw [TokenStream.ahead_push, List.length_append] at short
    have rest : next.ahead.length ≤ bound - tokens.length := by omega
    rcases tail tokens value (by omega) holds next ended rest with
      ⟨others, result, last, continued, rfl, holds⟩ | ⟨failure, last, failed, other⟩
    · refine .inl ⟨tokens ++ others, result, last, ?_, ?_, holds⟩
      · rw [bind_apply, given]
        exact continued
      · rw [TokenStream.push_append]
    · refine .inr ⟨failure, last, ?_, other⟩
      rw [bind_apply, given]
      exact failed
  · refine .inr ⟨failure, next, ?_, other⟩
    rw [bind_apply, failed]

/-- An expected token is the one that was taken. -/
theorem Meets.expect {bound : Nat} {name : String} {kinds : List TokenKind}
    (named : TokenKind.endOfInput ∉ kinds) :
    (Rule.expect name kinds).Meets bound fun tokens token =>
      tokens = [token] ∧ token.kind ∈ kinds := by
  intro stream ended _
  by_cases member : stream.peek.kind ∈ kinds
  · have going : stream.peek.kind ≠ .endOfInput :=
      Grammar.kind_ne_endOfInput_of_mem member named
    refine .inl ⟨[stream.peek], stream.peek, stream.advance, ?_, ?_, rfl, member⟩
    · simp only [Rule.expect, List.contains_iff_mem.mpr member, ↓reduceIte]
    · exact TokenStream.eq_push_advance ended going
  · refine .inr ⟨.rejected ⟨kinds, stream.peek, name, ""⟩, stream.advance, ?_, nofun⟩
    simp only [Rule.expect, List.contains_iff_mem, member, ↓reduceIte]

/-- A choice by a look meets what both branches meet. -/
theorem Meets.check {bound : Nat} {kinds : List TokenKind} {spec : List Token → α → Prop}
    {yes no : Rule α} (accepted : yes.Meets bound spec) (declined : no.Meets bound spec) :
    (Rule.check kinds >>= fun found => if found then yes else no).Meets bound spec := by
  intro stream ended short
  rw [check_bind_apply]
  by_cases found : stream.peekIs kinds
  · rw [if_pos found]
    exact accepted stream ended short
  · rw [if_neg found]
    exact declined stream ended short

/-- A choice by a token that is taken meets what both branches meet. -/
theorem Meets.checkTake {bound : Nat} {kinds : List TokenKind} {spec : List Token → α → Prop}
    {yes : Token → Rule α} {no : Rule α} (named : TokenKind.endOfInput ∉ kinds)
    (accepted : ∀ token, token.kind ∈ kinds → 1 ≤ bound →
      (yes token).Meets (bound - 1) fun others value => spec (token :: others) value)
    (declined : no.Meets bound spec) :
    (Rule.check kinds >>= fun found => if found then Rule.take >>= yes else no).Meets
      bound spec := by
  intro stream ended short
  rw [check_bind_apply]
  by_cases found : stream.peekIs kinds
  · rw [if_pos found]
    have member : stream.peek.kind ∈ kinds := TokenStream.peekIs_iff.mp found
    have here := TokenStream.eq_push_advance ended
      (Grammar.kind_ne_endOfInput_of_mem member named)
    have length : stream.ahead.length = 1 + stream.advance.ahead.length := by
      rw [here, TokenStream.ahead_push, List.length_append, ← here]
      rfl
    have last : stream.advance.last.kind = .endOfInput := by
      rw [here, TokenStream.last_push] at ended
      exact ended
    rcases accepted stream.peek member (by omega) stream.advance last (by omega) with
      ⟨tokens, value, next, given, taken, holds⟩ | ⟨failure, next, failed, other⟩
    · refine .inl ⟨stream.peek :: tokens, value, next, given, ?_, holds⟩
      rw [here, taken]
      rfl
    · exact .inr ⟨failure, next, failed, other⟩
  · rw [if_neg found]
    exact declined stream ended short

end Rule

end Scriptlet
