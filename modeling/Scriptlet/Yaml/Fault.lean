import Scriptlet.Text.Chars
import Scriptlet.Text.Decimal
import Scriptlet.Yaml.Type

/-!
# Faults of documents

Why a text is no YAML document, or none that makes sense. A fault in the words of
a document is shown with the number of its line, counted from one. A fault in the
way words are put together is shown with the number of the line before it. Neither
number is shown for the first line.
-/

namespace Scriptlet

namespace Yaml

/-- Why bytes are no text of a document. -/
inductive EncodingProblem where
  | badLead
  | cutOff
  | badTrail
  | badLength
  | badCharacter
  | controlCharacter
deriving DecidableEq, Repr

namespace EncodingProblem

def message : EncodingProblem → String
  | .badLead => "invalid leading UTF-8 octet"
  | .cutOff => "incomplete UTF-8 octet sequence"
  | .badTrail => "invalid trailing UTF-8 octet"
  | .badLength => "invalid length of a UTF-8 sequence"
  | .badCharacter => "invalid Unicode character"
  | .controlCharacter => "control characters are not allowed"

end EncodingProblem

/-- Why a text has no next word. -/
inductive WordProblem where
  | noWord
  | noKeyMark
  | misplacedItem
  | misplacedKey
  | misplacedValue
  | tabInIndentation
  | tabForIndentation
  | documentMarkInside
  | noClosingQuote
  | badEscape
  | noHexadecimal
  | badEscapeCode
  | zeroIndentation
  | noLineEnd
  | noAnchorName
  | noTagStart
  | noTag
  | noTagClosing
  | noTagEnd
  | noEscapedByte
  | badEscapedLead
  | badEscapedTrail
  | noDirectiveName
  | badDirectiveName
  | unknownDirective
  | noVersion
  | noVersionPoint
  | longVersion
  | noDirectiveBlank
deriving DecidableEq, Repr

namespace WordProblem

def message : WordProblem → String
  | .noWord => "found character that cannot start any token"
  | .noKeyMark => "could not find expected ':'"
  | .misplacedItem => "block sequence entries are not allowed in this context"
  | .misplacedKey => "mapping keys are not allowed in this context"
  | .misplacedValue => "mapping values are not allowed in this context"
  | .tabInIndentation => "found a tab character that violates indentation"
  | .tabForIndentation => "found a tab character where an indentation space is expected"
  | .documentMarkInside => "found unexpected document indicator"
  | .noClosingQuote => "found unexpected end of stream"
  | .badEscape => "found unknown escape character"
  | .noHexadecimal => "did not find expected hexdecimal number"
  | .badEscapeCode => "found invalid Unicode character escape code"
  | .zeroIndentation => "found an indentation indicator equal to 0"
  | .noLineEnd => "did not find expected comment or line break"
  | .noAnchorName => "did not find expected alphabetic or numeric character"
  | .noTagStart => "did not find expected '!'"
  | .noTag => "did not find expected tag URI"
  | .noTagClosing => "did not find the expected '>'"
  | .noTagEnd => "did not find expected whitespace or line break"
  | .noEscapedByte => "did not find URI escaped octet"
  | .badEscapedLead => "found an incorrect leading UTF-8 octet"
  | .badEscapedTrail => "found an incorrect trailing UTF-8 octet"
  | .noDirectiveName => "could not find expected directive name"
  | .badDirectiveName => "found unexpected non-alphabetical character"
  | .unknownDirective => "found unknown directive name"
  | .noVersion => "did not find expected version number"
  | .noVersionPoint => "did not find expected digit or '.' character"
  | .longVersion => "found extremely long version number"
  | .noDirectiveBlank => "did not find expected whitespace"

end WordProblem

/-- Why words make up no node. -/
inductive GrammarProblem where
  | noDocumentStart
  | noContent
  | noItem
  | noKey
  | noListEnd
  | noTableEnd
  | unknownHandle
  | secondVersion
  | otherVersion
  | secondHandle
  | tooDeep
deriving DecidableEq, Repr

namespace GrammarProblem

def message : GrammarProblem → String
  | .noDocumentStart => "did not find expected <document start>"
  | .noContent => "did not find expected node content"
  | .noItem => "did not find expected '-' indicator"
  | .noKey => "did not find expected key"
  | .noListEnd => "did not find expected ',' or ']'"
  | .noTableEnd => "did not find expected ',' or '" ++ braceClose ++ "'"
  | .unknownHandle => "found undefined tag handle"
  | .secondVersion => "found duplicate %YAML directive"
  | .otherVersion => "found incompatible YAML document"
  | .secondHandle => "found duplicate %TAG directive"
  | .tooDeep => "exceeded max depth"

end GrammarProblem

/-- Why a text cannot be used as a document. -/
inductive Fault where
  | encoding (problem : EncodingProblem)
  | word (line : Nat) (problem : WordProblem)
  | grammar (line : Nat) (problem : GrammarProblem)
  /-- An alias names nothing. -/
  | unknownAnchor (name : String)
  /-- A table is to take up itself. -/
  | endlessAnchor (name : String)
  /-- A table is to take up something that is no table. -/
  | badMerge
  /-- A scalar is not of the type that its tag gives it. -/
  | wrongType (found : ScalarType) (content tag : String)
  /-- A scalar that is to be read as bytes does not spell any. -/
  | badBytes
deriving DecidableEq, Repr

namespace Fault

/-- The number of a line in a message. -/
def place (line shown : Nat) : String :=
  if line = 0 then "" else "line " ++ Decimal.text shown ++ ": "

def message : Fault → String
  | .encoding problem => problem.message
  | .word line problem => place line (line + 1) ++ problem.message
  | .grammar line problem => place line line ++ problem.message
  | .unknownAnchor name => "unknown anchor '" ++ name ++ "' referenced"
  | .endlessAnchor name => "anchor '" ++ name ++ "' value contains itself"
  | .badMerge => "map merge requires map or sequence of maps as the value"
  | .wrongType found content tag =>
    "cannot decode " ++ found.tag ++ " " ++ inBackquotes content ++ " as a " ++ tag
  | .badBytes => "!!binary value contains invalid base64 data"

end Fault

end Yaml

end Scriptlet
