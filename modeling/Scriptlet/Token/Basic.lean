import Scriptlet.Source.Position
import Scriptlet.Text.Quoted

/-!
# Tokens

The words of the language. A token keeps its kind, the characters it is spelled
with, and where it stands.
-/

namespace Scriptlet

/-- The kinds of tokens. Numbers that name no kind are kept as they are. -/
inductive TokenKind where
  | endOfInput
  | leftParen
  | rightParen
  | leftBrace
  | rightBrace
  | equals
  | plus
  | minus
  | star
  | slash
  | semicolon
  | integer
  | identifier
  | string
  | ifWord
  | elseWord
  | whileWord
  | printWord
  | unknown (code : Int)
deriving DecidableEq, Repr, Inhabited

namespace TokenKind

/-- The kinds that have a name, in the order of their numbers from zero. -/
def named : List TokenKind :=
  [.endOfInput, .leftParen, .rightParen, .leftBrace, .rightBrace, .equals, .plus,
    .minus, .star, .slash, .semicolon, .integer, .identifier, .string, .ifWord,
    .elseWord, .whileWord, .printWord]

/-- The kind with a given number. -/
def ofCode (code : Int) : TokenKind :=
  if code < 0 then .unknown code else named.getD code.toNat (.unknown code)

/-- The name of a kind in messages and dumps. -/
def name : TokenKind → String
  | .endOfInput => "EOF"
  | .leftParen => "LPAREN"
  | .rightParen => "RPAREN"
  | .leftBrace => "LBRACE"
  | .rightBrace => "RBRACE"
  | .equals => "EQUALS"
  | .plus => "PLUS"
  | .minus => "MINUS"
  | .star => "STAR"
  | .slash => "SLASH"
  | .semicolon => "SEMICOLON"
  | .integer => "INT"
  | .identifier => "IDENT"
  | .string => "STRING"
  | .ifWord => "IF"
  | .elseWord => "ELSE"
  | .whileWord => "WHILE"
  | .printWord => "PRINT"
  | .unknown code => "TokenKind(" ++ Decimal.text code ++ ")"

/-- The kind of a token that is one punctuation character. -/
def ofPunctuation? : Char → Option TokenKind
  | '=' => some .equals
  | '+' => some .plus
  | '-' => some .minus
  | '*' => some .star
  | '/' => some .slash
  | '(' => some .leftParen
  | ')' => some .rightParen
  | '{' => some .leftBrace
  | '}' => some .rightBrace
  | ';' => some .semicolon
  | _ => none

/-- The kind of a word: a keyword's own kind, otherwise an identifier. -/
def ofWord : String → TokenKind
  | "if" => .ifWord
  | "else" => .elseWord
  | "while" => .whileWord
  | "print" => .printWord
  | _ => .identifier

end TokenKind

/-- A token of a source or of a list made by hand. -/
structure Token where
  kind : TokenKind
  lexeme : String := ""
  span : Span := {}
deriving DecidableEq, Repr, Inhabited

namespace Token

/-- A token in a message. -/
def describe (token : Token) : String :=
  if token.kind = .endOfInput then
    "end of input"
  else
    token.kind.name ++ " " ++ Quoted.text token.lexeme

end Token

end Scriptlet
