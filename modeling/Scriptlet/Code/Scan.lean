import Scriptlet.Code.Literal
import Scriptlet.Code.Symbol
import Scriptlet.Text.Chars
import Scriptlet.Text.Escape

/-!
# Reading symbols

Go code is cut into symbols character by character. The scan remembers what it is in
the middle of.
-/

namespace Scriptlet

namespace Code

/-- What the scan of code is in the middle of. The characters of a symbol that is
not yet complete are kept with the last one first. -/
inductive Stage where
  | between
  | name (chars : List Char)
  | number (chars : List Char)
  | sign (chars : List Char)
  | quoted (quote : Char) (escaped : Bool) (chars : List Char)
  | raw (chars : List Char)
  /-- Behind a slash, which may start a comment. -/
  | slash
  /-- In a comment up to the end of the line. -/
  | comment (chars : List Char)
  /-- In a comment up to a star and a slash. A line may have ended in it. -/
  | block (star : Bool) (lineEnd : Option Place) (chars : List Char)
deriving DecidableEq, Repr

/-- A scan of code: where it stands, where the symbol at hand starts, and what has
been found up to there, the last first. -/
structure Scan where
  stage : Stage := .between
  place : Place := {}
  start : Place := {}
  comments : List Comment := []
  found : List Lexeme := []
deriving DecidableEq, Repr

namespace Comment

/-- The largest number of a line or a column. -/
def maxNumber : Nat := Nat.pow 2 30

/-- The text in front of the last colon, and the number behind it if it is one. -/
def lastNumber? (text : List Char) : Option (List Char × Option Nat) :=
  match (splitAt ':' text).reverse with
  | last :: part :: parts =>
    let digits := if !last.isEmpty && last.all Char.isDigit then Escape.number? 10 last else none
    let number := digits.filter (· < Nat.pow 2 64)
    some (List.intercalate [':'] (part :: parts).reverse, number)
  | _ => none

/-- Whether a comment that states a line states a possible one, and a possible column if
there is one. Without a colon it states nothing. -/
def isAccurate (comment : Comment) : Bool :=
  let isPossible (number : Nat) : Bool := 0 < number && number ≤ maxNumber
  let text := comment.text.toList.drop "//line ".length
  let text := if comment.fillsLine then text else text.dropLast.dropLast
  match lastNumber? text with
  | none => true
  | some (_, none) => false
  | some (front, some number) =>
    match lastNumber? front with
    | some (_, some line) => isPossible number && isPossible line
    | _ => isPossible number

/-- The characters of a comment behind its opening, without carriage returns. One between a star
and a slash is kept, because the comment would end without it. -/
def innerText (behindStar : Bool) : List Char → List Char
  | [] => []
  | '\r' :: rest =>
    if behindStar && rest.head? = some '/' then
      '\r' :: innerText false rest
    else
      innerText behindStar rest
  | char :: rest => char :: innerText (char = '*') rest

/-- The characters of a comment, without carriage returns. -/
def withoutReturns : List Char → List Char
  | '/' :: '*' :: rest => '/' :: '*' :: innerText false rest
  | chars => chars.filter (· ≠ '\r')

end Comment

namespace Scan

def isBlank (char : Char) : Bool :=
  char = ' ' || char = '\t' || char = '\n' || char = '\r'

/-- Adds the symbol at hand. -/
def emit (scan : Scan) (symbol : Symbol) : Scan :=
  { scan with
    stage := .between
    comments := []
    found := ⟨symbol, scan.start, scan.comments.reverse⟩ :: scan.found }

/-- Adds the comment at hand. Carriage returns do not belong to it. A line of other code
that it states has to be one. -/
def remark (scan : Scan) (chars : List Char) : Option Scan :=
  let text := String.ofList (Comment.withoutReturns chars)
  let comment : Comment := ⟨text, scan.start⟩
  if comment.statesLine && !comment.isAccurate then
    none
  else
    some { scan with stage := .between, comments := comment :: scan.comments }

/-- Ends a line at a place. -/
def endLine (scan : Scan) (place : Place) : Scan :=
  if (scan.found.head?.map (·.symbol.canEnd)).getD false then
    { scan with start := place }.emit .lineEnd
  else
    { scan with stage := .between }

/-- Starts with a character between two symbols. -/
def start? (scan : Scan) (char : Char) : Option Scan :=
  let scan := { scan with start := scan.place }
  if char = '\n' then
    some (scan.endLine scan.place)
  else if isBlank char then
    some { scan with stage := .between }
  else if startsName char then
    some { scan with stage := .name [char] }
  else if char.isDigit then
    some { scan with stage := .number [char] }
  else if char = '"' ∨ char = '\'' then
    some { scan with stage := .quoted char false [] }
  else if char = '\x60' then
    some { scan with stage := .raw [] }
  else if char = '/' then
    some { scan with stage := .slash }
  else if Symbol.signs.contains (String.singleton char) then
    some { scan with stage := .sign [char] }
  else
    none

/-- Goes on with a sign if a character continues it, and ends it otherwise. -/
def nextSign (scan : Scan) (chars : List Char) (char : Char) : Option Scan :=
  if Symbol.signs.contains (String.ofList (char :: chars).reverse) then
    some { scan with stage := .sign (char :: chars) }
  else if chars = ['.'] ∧ char.isDigit then
    some { scan with stage := .number (char :: chars) }
  else
    (scan.emit (.sign (String.ofList chars.reverse))).start? char

/-- The symbol of a text between two quotes. -/
def quotedSymbol (quote : Char) (content : List Char) : Symbol :=
  let spelling := String.ofList (quote :: content ++ [quote])
  if quote = '"' then .text spelling else .char spelling

/-- Goes on with a character at the place. -/
def step (scan : Scan) (char : Char) : Option Scan :=
  match scan.stage with
  | .between => scan.start? char
  | .name chars =>
    if continuesName char then
      some { scan with stage := .name (char :: chars) }
    else
      (scan.emit (.ofWord (String.ofList chars.reverse))).start? char
  | .number chars =>
    if Numeral.continues chars char then
      some { scan with stage := .number (char :: chars) }
    else do
      (scan.emit (.number (← Numeral.spelling? chars.reverse))).start? char
  | .sign chars => scan.nextSign chars char
  | .quoted quote escaped chars =>
    if char = '\n' then
      none
    else if char = quote ∧ !escaped then
      let content := chars.reverse
      if Literal.isWellFormed quote content then
        some (scan.emit (quotedSymbol quote content))
      else
        none
    else
      some { scan with stage := .quoted quote (char = '\\' ∧ !escaped) (char :: chars) }
  | .raw chars =>
    if char = '\x60' then
      some (scan.emit (.text ("\x60" ++ String.ofList chars.reverse ++ "\x60")))
    else
      some { scan with stage := .raw (if char = '\r' then chars else char :: chars) }
  | .slash =>
    if char = '/' then
      some { scan with stage := .comment ['/', '/'] }
    else if char = '*' then
      some { scan with stage := .block false none ['*', '/'] }
    else
      scan.nextSign ['/'] char
  | .comment chars =>
    if char = '\n' then
      (scan.remark chars.reverse).map (·.endLine scan.place)
    else
      some { scan with stage := .comment (char :: chars) }
  | .block star lineEnd chars =>
    if star ∧ char = '/' then
      (scan.remark (char :: chars).reverse).map fun scan =>
        match lineEnd with
        | some place => scan.endLine place
        | none => scan
    else
      let lineEnd := if char = '\n' then lineEnd <|> some scan.place else lineEnd
      some { scan with stage := .block (char = '*') lineEnd (char :: chars) }

/-- Goes on with a character and passes it. -/
def next (scan : Scan) (char : Char) : Option Scan :=
  (scan.step char).map fun scan => { scan with place := scan.place.after char }

end Scan

namespace Lexemes

/-- The characters that no code holds, not even in a text or a comment: the null
character and the byte order mark. -/
def excluded : List Char :=
  ['\x00', '\ufeff']

/-- The symbols of some lines of code that start at a place. -/
def scan (start : Place) (lines : String) : Option Lexemes := do
  let chars := lines.toList
  if chars.any excluded.contains then
    none
  else
    let reading ← (chars ++ ['\n']).foldlM Scan.next { place := start, start }
    if reading.stage = .between then
      some { list := reading.found.reverse, comments := reading.comments.reverse }
    else
      none

end Lexemes

end Code

end Scriptlet
