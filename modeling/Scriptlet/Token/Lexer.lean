import Scriptlet.Diagnostic
import Scriptlet.Text.Bytes

/-!
# Lexer

Splits a source into tokens. Blanks separate tokens and are skipped; words and
numbers take as many characters as they can; a string runs from one double quote
to the next and knows no escapes.

A lexer hands out one token at a time and can look one token ahead. After a
failure it can be used on: the characters that caused the failure count as read.
-/

namespace Scriptlet

namespace Lexical

/-- Whether a character only separates tokens. -/
def isBlank (char : Char) : Bool :=
  char = ' ' || char = '\t' || char = '\n' || char = '\r'

/-- Whether a character can start a word. -/
def startsWord (char : Char) : Bool :=
  char = '_' || char.isAlpha

/-- Whether a character can stand in a word behind its first one. -/
def continuesWord (char : Char) : Bool :=
  startsWord char || char.isDigit

/-- What the text from the first character of a token on turns out to be. -/
inductive Form where
  /-- A token whose last character ends it. -/
  | closed (kind : TokenKind)
  /-- A token that goes on as far as the characters allow. -/
  | longest (kind : TokenKind)
  /-- A string without closing quote. -/
  | unclosed
  /-- A character that starts no token. -/
  | stray
deriving DecidableEq, Repr

/-- A piece of text cut off at its front: what it is, the characters behind the
first that belong to it, and the text that remains. -/
structure Piece where
  form : Form
  body : List Glyph
  rest : List Glyph
deriving DecidableEq, Repr

namespace Piece

/-- Cuts off the longest body of characters that pass a test. -/
def longest (kind : List Glyph → TokenKind) (test : Char → Bool) (text : List Glyph) : Piece :=
  let body := text.takeWhile fun glyph => test glyph.char
  ⟨.longest (kind body), body, text.dropWhile fun glyph => test glyph.char⟩

/-- Cuts off a string behind its opening quote. -/
def string (text : List Glyph) : Piece :=
  let content := text.takeWhile fun glyph => glyph.char != '"'
  match text.dropWhile fun glyph => glyph.char != '"' with
  | [] => ⟨.unclosed, content, []⟩
  | quote :: rest => ⟨.closed .string, content ++ [quote], rest⟩

/-- Cuts off the piece of text that starts with a given character. -/
def cut (first : Glyph) (text : List Glyph) : Piece :=
  match TokenKind.ofPunctuation? first.char with
  | some kind => ⟨.closed kind, [], text⟩
  | none =>
    if first.char = '"' then
      string text
    else if first.char.isDigit then
      longest (fun _ => .integer) Char.isDigit text
    else if startsWord first.char then
      longest (fun body => .ofWord (Glyph.spelling (first :: body))) continuesWord text
    else
      ⟨.stray, [], text⟩

end Piece

end Lexical

/-- Why no token could be had: the text is wrong, or it could not be read. -/
inductive LexFailure where
  | lexical (error : LexError)
  | unreadable (fault : String)
deriving DecidableEq, Repr

namespace LexFailure

def message : LexFailure → String
  | .lexical error => error.message
  | .unreadable fault => fault

end LexFailure

/-- A lexer in the middle of its work: the text ahead, where it starts, the fault
that waits behind it, and the token that has been looked at but not taken. -/
structure Lexer where
  ahead : List Glyph
  position : Position
  fault : Option String := none
  peeked : Option Token := none
deriving DecidableEq, Repr

namespace Lexer

open Lexical

/-- A lexer at the start of a source. -/
def ofInput (input : Input) (file : String) : Lexer where
  ahead := Glyph.decode input.bytes
  position := .start file
  fault := input.fault

/-- What the end of the text gives: the token that says so, or the fault. -/
def atEnd (fault : Option String) (position : Position) : Except LexFailure Token :=
  match fault with
  | none => .ok ⟨.endOfInput, "", .point position⟩
  | some fault => .error (.unreadable fault)

/-- What a piece of text gives. The end of a word or number shows only in what
follows it, and an unclosed string shows only at the end of the text, so there a
fault behind the text is met first. -/
def judge (fault : Option String) (first : Glyph) (piece : Piece) (span : Span) :
    Except LexFailure Token :=
  let lexeme := Glyph.spelling (first :: piece.body)
  match piece.form, piece.rest, fault with
  | .closed kind, _, _ => .ok ⟨kind, lexeme, span⟩
  | .longest _, [], some fault => .error (.unreadable fault)
  | .longest kind, _, _ => .ok ⟨kind, lexeme, span⟩
  | .unclosed, _, some fault => .error (.unreadable fault)
  | .unclosed, _, none => .error (.lexical ⟨'"'.toNat, "unterminated string", span.start⟩)
  | .stray, _, _ => .error (.lexical ⟨first.char.toNat, "", span.start⟩)

/-- Reads the next token from the text ahead. -/
def scan (lexer : Lexer) : Except LexFailure Token × Lexer :=
  let blanks := lexer.ahead.takeWhile fun glyph => isBlank glyph.char
  let start := lexer.position.afterAll blanks
  match lexer.ahead.dropWhile fun glyph => isBlank glyph.char with
  | [] => (atEnd lexer.fault start, { lexer with ahead := [], position := start })
  | first :: text =>
    let piece := Piece.cut first text
    let finish := start.afterAll (first :: piece.body)
    (judge lexer.fault first piece ⟨start, finish⟩,
      { lexer with ahead := piece.rest, position := finish })

/-- Takes the next token. Behind the last token every call gives the end of the
input. -/
def next (lexer : Lexer) : Except LexFailure Token × Lexer :=
  match lexer.peeked with
  | some token => (.ok token, { lexer with peeked := none })
  | none => lexer.scan

/-- Looks at the next token. A failure is not remembered: its characters are read
and the next call goes on behind them. -/
def peek (lexer : Lexer) : Except LexFailure Token × Lexer :=
  match lexer.peeked with
  | some token => (.ok token, lexer)
  | none =>
    match lexer.scan with
    | (.ok token, lexer) => (.ok token, { lexer with peeked := some token })
    | (.error failure, lexer) => (.error failure, lexer)

/-- Whether the next token has one of some kinds. -/
def peekIs (lexer : Lexer) (kinds : List TokenKind) : Except LexFailure Bool × Lexer :=
  match lexer.peek with
  | (.ok token, lexer) => (.ok (kinds.contains token.kind), lexer)
  | (.error failure, lexer) => (.error failure, lexer)

/-- Takes tokens up to the end of the input, which is the last of them, or up to
a limit that no text is long enough to reach. -/
def drain : Nat → Lexer → Except LexFailure (List Token)
  | 0, _ => .ok []
  | limit + 1, lexer =>
    match lexer.next with
    | (.error failure, _) => .error failure
    | (.ok token, lexer) =>
      if token.kind = .endOfInput then
        .ok [token]
      else
        (drain limit lexer).map (token :: ·)

end Lexer

/-- The tokens of a source, the end of the input last. -/
def tokenize (input : Input) (file : String) : Except LexFailure (List Token) :=
  let lexer := Lexer.ofInput input file
  lexer.drain (lexer.ahead.length + 1)

end Scriptlet
