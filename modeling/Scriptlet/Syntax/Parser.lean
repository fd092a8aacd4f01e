import Scriptlet.Syntax.Stream
import Scriptlet.Syntax.Tree

/-!
# Parser

The grammar as rules:

* a program is a list of statements up to the end of the input;
* a statement prints, assigns, branches or loops;
* an expression is a sum of terms, a term a product of factors, and both group
  to the left;
* a factor is a number, a string, a variable or an expression in parentheses.

Rules call each other, so each takes a limit on how deep that may go. A list of
tokens bounds the depth that its rules can reach, and `Parser.parse` sets the
limit above that bound.
-/

namespace Scriptlet

namespace Grammar

/-- The operator that a token kind stands for. -/
def operatorOf : TokenKind → Operator
  | .minus => .sub
  | .star => .mul
  | .slash => .div
  | _ => .add

/-- A number literal must fit in 64 bits. -/
def number (token : Token) : Rule Expr :=
  match Decimal.readInt64? token.lexeme.toList with
  | some value => pure (.number value token.span)
  | none => .fail (.rejected ⟨[], token, "expression", "integer literal out of range"⟩)

/-- A string literal denotes its bytes without the first and the last one. -/
def string (token : Token) : Rule Expr :=
  let bytes := Bytes.ofString token.lexeme
  if bytes.length < 2 then
    .fail (.shortString bytes.length)
  else
    pure (.string bytes.tail.dropLast token.span)

/-- A factor, given the rule for the expression inside parentheses. -/
def factor (inner : Rule Expr) : Rule Expr := do
  let token ← .expect "expression" [.integer, .identifier, .string, .leftParen]
  match token.kind with
  | .integer => number token
  | .string => string token
  | .leftParen =>
    let value ← inner
    let _ ← .expect "parenthesized expression" [.rightParen]
    pure value
  | _ => pure (.variableRef token.lexeme token.span)

/-- What follows an operand in a chain of operators: as many operators and
operands as there are, each taken together with all that stands before it. -/
def chainTail (operand : Rule Expr) (kinds : List TokenKind) : Nat → Expr → Rule Expr
  | 0, _ => .fail .tooDeep
  | limit + 1, left => do
    if ← .check kinds then
      let sign ← .take
      let right ← operand
      chainTail operand kinds limit
        (.binary left (operatorOf sign.kind) right (left.span.join right.span))
    else
      pure left

/-- Operands with operators of some kinds between them. -/
def chain (operand : Rule Expr) (kinds : List TokenKind) (limit : Nat) : Rule Expr := do
  let left ← operand
  chainTail operand kinds limit left

/-- A product of factors, given the rule for expressions inside parentheses. -/
def term (inner : Rule Expr) (limit : Nat) : Rule Expr :=
  chain (factor inner) [.star, .slash] limit

/-- A sum of terms. Each pair of parentheses takes one level of depth. -/
def expression (limit : Nat) : Nat → Rule Expr
  | 0 => .fail .tooDeep
  | depth + 1 => chain (term (expression limit depth) limit) [.plus, .minus] limit

/-- An expression in parentheses, as it stands behind `if` and `while`. -/
def condition (rule : String) (limit : Nat) : Rule Expr := do
  let _ ← .expect rule [.leftParen]
  let value ← expression limit limit
  let _ ← .expect rule [.rightParen]
  pure value

/-- The statements of a block up to its closing brace, which is given too. -/
def blockTail (rule : String) (statement : Rule Stmt) : Nat → Rule (List Stmt × Token)
  | 0 => .fail .tooDeep
  | limit + 1 => do
    if ← .check [.rightBrace, .endOfInput] then
      let brace ← .expect rule [.rightBrace]
      pure ([], brace)
    else
      let first ← statement
      let (others, brace) ← blockTail rule statement limit
      pure (first :: others, brace)

/-- Statements between braces, and the closing brace. -/
def block (rule : String) (statement : Rule Stmt) (limit : Nat) :
    Rule (List Stmt × Token) := do
  let _ ← .expect rule [.leftBrace]
  blockTail rule statement limit

/-- What follows the word `print`. -/
def printStatement (word : Token) (limit : Nat) : Rule Stmt := do
  let value ← expression limit limit
  let stop ← .expect "print statement" [.semicolon]
  pure (.print value (word.span.join stop.span))

/-- What follows the name of an assigned variable. -/
def assignment (name : Token) (limit : Nat) : Rule Stmt := do
  let _ ← .expect "assignment" [.equals]
  let value ← expression limit limit
  let stop ← .expect "assignment" [.semicolon]
  pure (.assign name.lexeme value (name.span.join stop.span))

/-- What follows the word `if`, given the rule for the statements inside. -/
def ifStatement (word : Token) (inner : Rule Stmt) (limit : Nat) : Rule Stmt := do
  let test ← condition "if statement" limit
  let (body, brace) ← block "if statement" inner limit
  if ← .check [.elseWord] then
    let _ ← .take
    let (otherwise, brace) ← block "else branch" inner limit
    pure (.ifElse test body otherwise (word.span.join brace.span))
  else
    pure (.ifThen test body (word.span.join brace.span))

/-- What follows the word `while`, given the rule for the statements inside. -/
def whileStatement (word : Token) (inner : Rule Stmt) (limit : Nat) : Rule Stmt := do
  let test ← condition "while statement" limit
  let (body, brace) ← block "while statement" inner limit
  pure (.whileDo test body (word.span.join brace.span))

/-- A statement. Each pair of braces takes one level of depth. -/
def statement (limit : Nat) : Nat → Rule Stmt
  | 0 => .fail .tooDeep
  | depth + 1 => do
    let token ← .expect "statement" [.printWord, .identifier, .ifWord, .whileWord]
    match token.kind with
    | .printWord => printStatement token limit
    | .ifWord => ifStatement token (statement limit depth) limit
    | .whileWord => whileStatement token (statement limit depth) limit
    | _ => assignment token limit

/-- Statements up to the end of the input. -/
def program (inner : Rule Stmt) : Nat → Rule Program
  | 0 => .fail .tooDeep
  | limit + 1 => do
    if ← .check [.endOfInput] then
      pure []
    else
      let first ← inner
      let others ← program inner limit
      pure (first :: others)

end Grammar

/-- A parser in the middle of its work: all tokens, and the stream of those that
are still ahead. -/
structure Parser where
  tokens : List Token
  stream : TokenStream
deriving DecidableEq, Repr

namespace Parser

/-- A parser at the first of some tokens. -/
def ofTokens (tokens : List Token) : Parser where
  tokens := tokens
  stream := .ofList tokens

/-- How many tokens have been taken. -/
def position (parser : Parser) : Nat :=
  parser.tokens.length - parser.stream.ahead.length

/-- Applies a rule to the tokens ahead. -/
def apply {α : Type} (parser : Parser) (rule : Rule α) : Except ParseFailure α × Parser :=
  let (result, stream) := rule parser.stream
  (result, { parser with stream := stream })

/-- The rule for the whole of a list of tokens. -/
def programRule (tokens : List Token) : Rule Program :=
  let limit := tokens.length + 1
  Grammar.program (Grammar.statement limit limit) limit

/-- Parses all tokens, from the first one again. -/
def parse (parser : Parser) : Except ParseFailure Program × Parser :=
  (ofTokens parser.tokens).apply (programRule parser.tokens)

end Parser

/-- The program that a list of tokens spells. -/
def parse (tokens : List Token) : Except ParseFailure Program :=
  (Parser.ofTokens tokens).parse.1

end Scriptlet
