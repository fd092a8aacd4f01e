import Scriptlet.Diagnostic

/-!
# Token streams and rules

A rule of the grammar reads tokens from a stream. It gives a value or fails, and
in both cases the stream stays where the rule left it. The end of the input is
never passed: it can be read again and again.
-/

namespace Scriptlet

/-- The tokens ahead, and the token that stands for the end behind all of them. -/
structure TokenStream where
  ahead : List Token
  last : Token
deriving DecidableEq, Repr

namespace TokenStream

/-- The token for the end of a list of tokens that does not say where it ends:
it stands where the last token stops. -/
def endOf (tokens : List Token) : Token where
  kind := .endOfInput
  span :=
    match tokens.getLast? with
    | some token => .point token.span.finish
    | none => {}

/-- The stream of a list of tokens. -/
def ofList (tokens : List Token) : TokenStream where
  ahead := tokens
  last := endOf tokens

/-- The next token. -/
def peek (stream : TokenStream) : Token :=
  stream.ahead.headD stream.last

/-- Whether the next token has one of some kinds. -/
def peekIs (stream : TokenStream) (kinds : List TokenKind) : Bool :=
  kinds.contains stream.peek.kind

/-- The stream behind the next token, or the same stream at the end. -/
def advance (stream : TokenStream) : TokenStream :=
  if stream.peek.kind = .endOfInput then
    stream
  else
    { stream with ahead := stream.ahead.tail }

end TokenStream

/-- Why a list of tokens is no program. -/
inductive ParseFailure where
  /-- A token is not allowed where it stands. -/
  | rejected (error : ParseError)
  /-- The spelling of a string has no room for two quotes; its bytes are counted. -/
  | shortString (size : Nat)
  /-- The rules are nested deeper than the limit set for them. -/
  | tooDeep
deriving DecidableEq, Repr

namespace ParseFailure

def message : ParseFailure → String
  | .rejected error => error.message
  | .shortString 0 => "runtime error: slice bounds out of range [:-1]"
  | .shortString _ => "runtime error: slice bounds out of range [1:0]"
  | .tooDeep => "nested too deeply"

end ParseFailure

/-- A rule of the grammar: what it makes of a stream and where it leaves it. -/
def Rule (α : Type) : Type :=
  TokenStream → Except ParseFailure α × TokenStream

namespace Rule

/-- The rule that reads nothing and gives a value. -/
def give {α : Type} (value : α) : Rule α :=
  fun stream => (.ok value, stream)

/-- The rule that reads nothing and fails. -/
def fail {α : Type} (failure : ParseFailure) : Rule α :=
  fun stream => (.error failure, stream)

/-- One rule and then another that depends on what the first one gave. -/
def andThen {α β : Type} (first : Rule α) (second : α → Rule β) : Rule β :=
  fun stream =>
    match first stream with
    | (.ok value, stream) => second value stream
    | (.error failure, stream) => (.error failure, stream)

instance : Monad Rule where
  pure := give
  bind := andThen

/-- Whether the next token has one of some kinds. -/
def check (kinds : List TokenKind) : Rule Bool :=
  fun stream => (.ok (stream.peekIs kinds), stream)

/-- Takes the next token, whatever it is. -/
def take : Rule Token :=
  fun stream => (.ok stream.peek, stream.advance)

/-- Takes the next token, which must have one of some kinds. It is taken either
way. -/
def expect (rule : String) (kinds : List TokenKind) : Rule Token :=
  fun stream =>
    let token := stream.peek
    if kinds.contains token.kind then
      (.ok token, stream.advance)
    else
      (.error (.rejected ⟨kinds, token, rule, ""⟩), stream.advance)

@[simp]
theorem give_apply {α : Type} (value : α) (stream : TokenStream) :
    give value stream = (.ok value, stream) :=
  rfl

@[simp]
theorem pure_apply {α : Type} (value : α) (stream : TokenStream) :
    (pure value : Rule α) stream = (.ok value, stream) :=
  rfl

@[simp]
theorem fail_apply {α : Type} (failure : ParseFailure) (stream : TokenStream) :
    (fail failure : Rule α) stream = (.error failure, stream) :=
  rfl

theorem bind_apply {α β : Type} (first : Rule α) (second : α → Rule β) (stream : TokenStream) :
    (first >>= second) stream =
      match first stream with
      | (.ok value, stream) => second value stream
      | (.error failure, stream) => (.error failure, stream) :=
  rfl

end Rule

end Scriptlet
