import Scriptlet.Text.Escape
import Scriptlet.Text.Glyph
import Scriptlet.Text.Letter

/-!
# Words of a description

A description is cut into names, quoted texts and single characters. Blanks and
comments stand between them. Reading goes through the characters one by one and
remembers what it is in the middle of.
-/

namespace Scriptlet

namespace SumType

/-- A word of a description. Quoted texts come without their quotes. -/
inductive Word where
  | name (spelling : String)
  | text (content : String)
  | raw (content : String)
  | char (content : String)
  | symbol (char : Char)
deriving DecidableEq, Repr

namespace Word

/-- What a word says, no matter how it was quoted. -/
def spelling : Word → String
  | .name spelling => spelling
  | .text content => content
  | .raw content => content
  | .char content => content
  | .symbol sign => String.singleton sign

end Word

/-- What reading is in the middle of. The characters of a word that is not yet
complete are kept with the last one first. -/
inductive Mode where
  | between
  | name (chars : List Char)
  | quoted (quote : Char) (escaped : Bool) (chars : List Char)
  | raw (chars : List Char)
  /-- Behind a slash, which may start a comment. -/
  | slash
  /-- In a comment up to the end of the line. -/
  | line
  /-- In a comment up to a star and a slash. -/
  | block (star : Bool)
deriving DecidableEq, Repr

namespace Mode

def isBlank (char : Char) : Bool :=
  char = ' ' || char = '\t' || char = '\n' || char = '\r'

/-- What a character between two words starts, and the word that it is by itself. -/
def start (char : Char) : List Word × Mode :=
  if isBlank char then
    ([], .between)
  else if startsName char then
    ([], .name [char])
  else if char = '"' ∨ char = '\'' then
    ([], .quoted char false [])
  else if char = '\x60' then
    ([], .raw [])
  else if char = '/' then
    ([], .slash)
  else
    ([.symbol char], .between)

/-- A name with all its characters. -/
def nameWord (chars : List Char) : Word :=
  .name (String.ofList chars.reverse)

/-- A text with all its characters. Between single quotes, one character is not
enough for a text. -/
def quotedWord (quote : Char) (chars : List Char) : Option Word := do
  let content := Glyph.spelling (Glyph.decode (← Escape.resolve quote chars.reverse))
  if quote = '"' ∨ 1 < content.length then
    pure (.text content)
  else
    pure (.char content)

/-- Goes on with a character: the words that it completes, and what comes next.
A quoted text must end on its line. -/
def next (mode : Mode) (char : Char) : Option (List Word × Mode) :=
  match mode with
  | .between => some (start char)
  | .name chars =>
    if continuesName char then
      some ([], .name (char :: chars))
    else
      let (words, mode) := start char
      some (nameWord chars :: words, mode)
  | .quoted quote escaped chars =>
    if char = '\n' then
      none
    else if escaped then
      some ([], .quoted quote false (char :: chars))
    else if char = quote then do
      let word ← quotedWord quote chars
      some ([word], .between)
    else
      some ([], .quoted quote (char = '\\') (char :: chars))
  | .raw chars =>
    if char = '\x60' then
      some ([.raw (String.ofList chars.reverse)], .between)
    else
      some ([], .raw (char :: chars))
  | .slash =>
    if char = '/' then
      some ([], .line)
    else if char = '*' then
      some ([], .block false)
    else
      let (words, mode) := start char
      some (.symbol '/' :: words, mode)
  | .line => some ([], if char = '\n' then .between else .line)
  | .block star =>
    some ([], if star ∧ char = '/' then .between else .block (char = '*'))

/-- The words that are complete at the end. Texts and comments must have been
closed. -/
def finish : Mode → Option (List Word)
  | .between => some []
  | .name chars => some [nameWord chars]
  | .slash => some [.symbol '/']
  | .line => some []
  | _ => none

/-- The words of the characters that follow. -/
def words (mode : Mode) : List Char → Option (List Word)
  | [] => mode.finish
  | char :: rest => do
    let (found, mode) ← mode.next char
    pure (found ++ (← mode.words rest))

end Mode

namespace Word

/-- The words of a description. It must be well-formed UTF-8 without a null
character; a byte order mark in front is passed over. -/
def scan (source : Bytes) : Option (List Word) := do
  let chars := (← source.toString?).toList
  if chars.contains '\x00' then
    none
  else
    match chars with
    | '\ufeff' :: rest => Mode.between.words rest
    | _ => Mode.between.words chars

end Word

end SumType

end Scriptlet
