import Scriptlet.Token.Basic

/-!
# Diagnostics

What can be wrong with a source or its run, and the one sentence that reports
it. Every sentence ends with the place that it is about.
-/

namespace Scriptlet

/-- A character that cannot stand where it does. The code is that of the
character; a diagnostic made by hand may hold any number. -/
structure LexError where
  code : Int
  reason : String := ""
  position : Position
deriving DecidableEq, Repr

namespace LexError

def message (error : LexError) : String :=
  let reason := if error.reason = "" then "unexpected character" else error.reason
  reason ++ " " ++ Quoted.char (Quoted.charOfCode error.code) ++ " at byte " ++
    Decimal.text error.position.offset ++ ". " ++ error.position.describe

end LexError

/-- A token that a grammar rule does not allow. When a reason is given, the kind
of the token was right and the reason says what else is wrong with it. -/
structure ParseError where
  expected : List TokenKind := []
  got : Token
  rule : String
  reason : String := ""
deriving DecidableEq, Repr

namespace ParseError

/-- The kinds that would have been allowed. -/
def describeExpected : List TokenKind → String
  | [kind] => "a " ++ kind.name
  | kinds => "one of [" ++ " ".intercalate (kinds.map TokenKind.name) ++ "]"

def message (error : ParseError) : String :=
  let complaint :=
    if error.reason = "" then
      "got " ++ error.got.describe ++ ", expected " ++ describeExpected error.expected
    else
      error.reason
  error.rule ++ ": " ++ complaint ++ ". " ++ error.got.span.describe

end ParseError

/-- The kinds of errors of a running program. Numbers that name no kind are kept
as they are. -/
inductive RuntimeErrorKind where
  | divisionByZero
  | typeMismatch
  | undefinedVariable
  | unknown (code : Int)
deriving DecidableEq, Repr

namespace RuntimeErrorKind

/-- The kind with a given number. -/
def ofCode : Int → RuntimeErrorKind
  | 0 => .divisionByZero
  | 1 => .typeMismatch
  | 2 => .undefinedVariable
  | code => .unknown code

def name : RuntimeErrorKind → String
  | .divisionByZero => "division by zero"
  | .typeMismatch => "type mismatch"
  | .undefinedVariable => "undefined variable"
  | .unknown code => "RuntimeErrorKind(" ++ Decimal.text code ++ ")"

end RuntimeErrorKind

/-- An error of a running program. -/
structure RuntimeError where
  kind : RuntimeErrorKind
  detail : String := ""
  span : Span
deriving DecidableEq, Repr

namespace RuntimeError

def message (error : RuntimeError) : String :=
  let detail := if error.detail = "" then "" else ": " ++ error.detail
  error.kind.name ++ detail ++ ". " ++ error.span.describe

end RuntimeError

end Scriptlet
