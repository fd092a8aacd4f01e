import Scriptlet.Text.Quoted
import Scriptlet.Yaml.Mark
import Scriptlet.Yaml.Scalar
import Scriptlet.Yaml.Type

/-!
# Writing scalars

A text is written bare where that is possible. One that would be taken for
something else than a text is written in double quotes; one that would be taken for
punctuation is written in single quotes; one with line feeds is written as a block;
and one with characters that cannot stand in a line is written in double quotes
with escapes.

Lines are not to grow beyond some width, so a text is continued in the next line at
the first single blank beyond it. Reading turns the line break back into a blank.
-/

namespace Scriptlet

namespace Yaml

namespace Style

/-- The column from which on a line is broken. -/
def width : Nat := 80

/-- The indentation of a line that continues another. -/
def indentation : Nat := 2

/-- The start of a line that continues another. -/
def margin : List Char := List.replicate indentation ' '

/-- Whether a character can be written as it is. -/
def isPlain (char : Char) : Bool :=
  let code := char.toNat
  code = 0x0a || decide (0x20 ≤ code ∧ code ≤ 0x7e) ||
    (decide (0xa0 ≤ code ∧ code ≤ 0xfffd) && char ≠ byteOrderMark)

/-! ## Properties of texts -/

/-- Whether a text is at its end or goes on with a blank. -/
def startsBlank : List Char → Bool
  | [] => true
  | char :: _ => isBlank char

/-- The characters that cannot start a bare text. -/
def indicators : List Char :=
  ['#', ',', '[', ']', '{', '}', '&', '*', '!', '|', '>', '\'', '"', '%', '@', '\x60']

/-- Whether a text holds a colon before a blank or the end. -/
def hasKeyMark : List Char → Bool
  | [] => false
  | char :: rest => (char = ':' && startsBlank rest) || hasKeyMark rest

/-- Whether two characters follow each other somewhere in a text. -/
def hasPair (first second : Char → Bool) : List Char → Bool
  | [] => false
  | [_] => false
  | one :: two :: rest => (first one && second two) || hasPair first second (two :: rest)

/-- Whether the start of a text would be taken for punctuation. -/
def startsIndicator : List Char → Bool
  | [] => false
  | first :: rest =>
    indicators.contains first || ((first = '?' || first = '-') && startsBlank rest)

/-- Whether a text would be taken for punctuation. -/
def hasIndicator (chars : List Char) : Bool :=
  startsIndicator chars || hasKeyMark chars || hasPair isSpace (· = '#') chars ||
    ['-', '-', '-'].isPrefixOf chars || ['.', '.', '.'].isPrefixOf chars

/-- Whether a text starts or ends with a blank. -/
def hasOuterBlank (chars : List Char) : Bool :=
  chars.head? = some ' ' || chars.getLast? = some ' '

/-- Whether a text can be written bare. -/
def allowsBare (chars : List Char) : Bool :=
  chars.all isPlain && !chars.any isBreak && !hasOuterBlank chars && !hasIndicator chars

/-- Whether a text can be written in single quotes: its characters are written as
they are, and no blank stands next to a line break. -/
def allowsSingle (chars : List Char) : Bool :=
  chars.all isPlain && !hasPair (· = ' ') isBreak chars && !hasPair isBreak (· = ' ') chars

/-- Whether a text can be written as a block: its characters are written as they are,
and no line ends with a blank. -/
def allowsBlock (chars : List Char) : Bool :=
  chars.all isPlain && !hasPair (· = ' ') isBreak chars && chars.getLast? ≠ some ' '

/-! ## Texts in one line or several -/

/-- Whether a line is broken at a blank: it is long enough, and no blank stands before
it. -/
def breaksAt (column : Nat) (blankBefore : Bool) : Bool :=
  !blankBefore && width < column

/-- A bare text from a column on. -/
def bare (column : Nat) (blankBefore : Bool) : List Char → List Char
  | [] => []
  | char :: rest =>
    if char = ' ' then
      if breaksAt column blankBefore && rest.head? ≠ some ' ' then
        '\n' :: margin ++ bare indentation true rest
      else
        ' ' :: bare (column + 1) true rest
    else
      char :: bare (column + 1) false rest

/-- The inside of a text in single quotes from a column on. A quote is doubled, and a
line break is followed by a margin. -/
def single (column : Nat) (blankBefore broken : Bool) : List Char → List Char
  | [] => []
  | char :: rest =>
    if char = ' ' then
      if breaksAt column blankBefore && !rest.isEmpty && rest.head? ≠ some ' ' then
        '\n' :: margin ++ single indentation true false rest
      else
        ' ' :: single (column + 1) true broken rest
    else if isBreak char then
      char :: single 0 blankBefore true rest
    else
      let front := if broken then margin else []
      let column := if broken then indentation else column
      if char = '\'' then
        front ++ ['\'', '\''] ++ single (column + 2) false false rest
      else
        front ++ char :: single (column + 1) false false rest

/-- A number in uppercase hexadecimal, filled with zeros up to a width. -/
def hex (width number : Nat) : List Char :=
  (Quoted.hex width number).map Char.toUpper

/-- Whether a character is escaped between double quotes. -/
def isEscaped (char : Char) : Bool :=
  !isPlain char || isBreak char || char = '"' || char = '\\'

/-- An escaped character. -/
def escape (char : Char) : List Char :=
  match escapeLetters.lookup char with
  | some letter => ['\\', letter]
  | none =>
    if char.toNat ≤ 0xff then
      '\\' :: 'x' :: hex 2 char.toNat
    else if char.toNat ≤ 0xffff then
      '\\' :: 'u' :: hex 4 char.toNat
    else
      '\\' :: 'U' :: hex 8 char.toNat

/-- The inside of a text in double quotes from a column on. If a blank follows the one
at which a line is broken, it is escaped. -/
def double (column : Nat) (blankBefore : Bool) : List Char → List Char
  | [] => []
  | char :: rest =>
    if isEscaped char then
      escape char ++ double (column + (escape char).length) false rest
    else if char = ' ' then
      if breaksAt column blankBefore && !rest.isEmpty then
        if rest.head? = some ' ' then
          '\n' :: margin ++ '\\' :: double (indentation + 1) true rest
        else
          '\n' :: margin ++ double indentation true rest
      else
        ' ' :: double (column + 1) true rest
    else
      char :: double (column + 1) false rest

/-- A text in double quotes. Behind a byte order mark at its start, all characters are
escaped. -/
def doubleQuoted (column : Nat) (chars : List Char) : List Char :=
  let inside :=
    if chars.head? = some byteOrderMark then chars.flatMap escape
    else double (column + 1) false chars
  '"' :: inside ++ ['"']

/-! ## Blocks -/

/-- The lines of a block. -/
def blockLines (broken : Bool) : List Char → List Char
  | [] => []
  | char :: rest =>
    if isBreak char then
      char :: blockLines true rest
    else
      (if broken then margin else []) ++ char :: blockLines false rest

/-- The indentation of a block, which is said if its first line does not show it. -/
def blockIndentation (chars : List Char) : List Char :=
  if chars.head?.any fun char => char = ' ' || isBreak char then
    Decimal.digits indentation
  else
    []

/-- What becomes of the line breaks at the end of a block. One is usual. -/
def blockChomping (chars : List Char) : List Char :=
  match chars.reverse with
  | [] => ['-']
  | [last] => if isBreak last then ['+'] else ['-']
  | last :: previous :: _ =>
    if !isBreak last then
      ['-']
    else if isBreak previous then
      ['+']
    else
      []

/-- A text as a block. -/
def block (chars : List Char) : List Char :=
  '|' :: blockIndentation chars ++ blockChomping chars ++ '\n' :: blockLines true chars

/-- Whether a line that holds a text has not been ended by it. -/
def leavesLineOpen (chars : List Char) : Bool :=
  !(chars.contains '\n' && allowsBlock chars && chars.getLast?.any isBreak)

/-! ## All styles -/

/-- Whether a text that is written bare is read as a text. -/
def isText (content : String) : Bool :=
  Scalar.typeOf true content = .text && !Scalar.isSexagesimal content

/-- A text as it is written from a column on. -/
def write (column : Nat) (content : String) : List Char :=
  let chars := content.toList
  if chars.contains '\n' ∧ allowsBlock chars then
    block chars
  else if chars.contains '\n' ∨ ¬isText content ∨ ¬(allowsBare chars ∨ allowsSingle chars) then
    doubleQuoted column chars
  else if allowsBare chars then
    bare column false chars
  else
    '\'' :: single (column + 1) false false chars ++ ['\'']

end Style

end Yaml

end Scriptlet
