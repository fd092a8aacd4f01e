import Scriptlet.Yaml.Fault
import Scriptlet.Yaml.Mark

/-!
# Spellings of scalars

A scalar is spelled bare, between single quotes, between double quotes with
escapes, or as a block of indented lines. All but blocks may be spread over lines:
a line break between two words stands for a blank, and of several line breaks all
but the first stand for themselves.
-/

namespace Scriptlet

namespace Yaml

/-- A scalar that has been read, and where reading goes on behind it. -/
structure Spelled where
  content : List Char
  mark : Mark
  rest : List Char
deriving DecidableEq, Repr

namespace Spelled

/-- A scalar with more characters in front. -/
def behind (spelled : Spelled) (chars : List Char) : Spelled :=
  { spelled with content := chars ++ spelled.content }

end Spelled

/-- What the blanks and line breaks between two words stand for. -/
def joinWords (gap : List Char) : List Char :=
  match gap.filter isBreak with
  | [] => gap
  | first :: more =>
    if first = '\n' then
      if more.isEmpty then [' '] else more
    else
      first :: more

/-- Whether a document starts or ends at a place. -/
def isDocumentMark (mark : Mark) (chars : List Char) : Bool :=
  mark.column = 0 && (startsOpening chars || startsClosing chars)

/-! ## Bare scalars -/

/-- The characters that end a bare scalar between brackets. -/
def isFlowMark (char : Char) : Bool :=
  char = ',' || char = '?' || char = '[' || char = ']' || char = '{' || char = '}'

/-- Whether a bare scalar ends before a character that is no blank. Behind a gap it
ends before a comment, before the mark of a document and, outside brackets, if the
line is not indented far enough. -/
def endsBare (flow : Bool) (indent : Int) (gap : List Char) (mark : Mark) (char : Char)
    (rest : List Char) : Bool :=
  (!gap.isEmpty &&
    (char = '#' || isDocumentMark mark (char :: rest) || (!flow && mark.column < indent))) ||
    (char = ':' && startsSpace rest) || (flow && isFlowMark char)

/-- A bare scalar that has been read. -/
structure Bare extends Spelled where
  /-- Whether a line break was passed behind its last word. -/
  lineEnded : Bool
deriving DecidableEq, Repr

/-- Reads a bare scalar, behind a gap that is part of it if another word follows. -/
def readBare (flow : Bool) (indent : Int) (gap : List Char) (mark : Mark) :
    List Char → Except Fault Bare
  | [] => .ok { content := [], mark := mark, rest := [], lineEnded := gap.any isBreak }
  | char :: rest =>
    if isSpace char then
      if char = '\t' ∧ gap.any isBreak ∧ mark.column < indent then
        .error (.word mark.line .tabInIndentation)
      else
        readBare flow indent (gap ++ [char]) (mark.after char) rest
    else if endsBare flow indent gap mark char rest then
      .ok { content := [], mark := mark, rest := char :: rest, lineEnded := gap.any isBreak }
    else
      (readBare flow indent [] (mark.after char) rest).map fun bare =>
        { bare with toSpelled := bare.toSpelled.behind (joinWords gap ++ [char]) }

/-! ## Quoted scalars -/

/-- Reads a scalar in single quotes behind the opening one. A quote in it is
doubled. -/
def readSingle (gap : List Char) (mark : Mark) : List Char → Except Fault Spelled
  | [] => .error (.word mark.line .noClosingQuote)
  | char :: rest =>
    if isSpace char then
      readSingle (gap ++ [char]) (mark.after char) rest
    else if isDocumentMark mark (char :: rest) then
      .error (.word mark.line .documentMarkInside)
    else if char = '\'' then
      match rest with
      | [] => .ok ⟨joinWords gap, mark.right 1, []⟩
      | next :: more =>
        if next = '\'' then
          (readSingle [] (mark.right 2) more).map (·.behind (joinWords gap ++ ['\'']))
        else
          .ok ⟨joinWords gap, mark.right 1, next :: more⟩
    else
      (readSingle [] (mark.after char) rest).map (·.behind (joinWords gap ++ [char]))

/-- The character that stands behind a backslash for another one. -/
def escapeLetters : List (Char × Char) :=
  [('\x00', '0'), ('\x07', 'a'), ('\x08', 'b'), ('\t', 't'), ('\n', 'n'), ('\x0b', 'v'),
    ('\x0c', 'f'), ('\r', 'r'), ('\x1b', 'e'), ('"', '"'), ('\\', '\\'), ('\u0085', 'N'),
    ('\u00a0', '_'), (lineSeparator, 'L'), (paragraphSeparator, 'P')]

/-- The character that a letter stands for behind a backslash. A blank, a tab and a
single quote stand for themselves. -/
def unescape? (letter : Char) : Option Char :=
  if letter = ' ' ∨ letter = '\t' ∨ letter = '\'' then
    some letter
  else
    (escapeLetters.find? fun pair => pair.2 = letter).map (·.1)

/-- The number of hexadecimal digits behind a letter that announces a code. -/
def codeWidth? : Char → Option Nat
  | 'x' => some 2
  | 'u' => some 4
  | 'U' => some 8
  | _ => none

/-- Where reading stands in a scalar in double quotes. -/
inductive Quoting where
  /-- Behind a gap. If it starts with an escaped line break, blanks in it count for
  nothing and line breaks for themselves. -/
  | gap (escaped : Bool) (chars : List Char)
  /-- Behind a backslash. -/
  | escape
  /-- In the code of a character, with digits missing. -/
  | code (missing value : Nat)
deriving DecidableEq, Repr

namespace Quoting

/-- Where reading stands behind a character. -/
def text : Quoting := .gap false []

/-- What a gap stands for. -/
def gapText (escaped : Bool) (chars : List Char) : List Char :=
  if escaped then chars.filter isBreak else joinWords chars

end Quoting

/-- Reads a scalar in double quotes behind the opening one. -/
def readDouble : Quoting → Mark → List Char → Except Fault Spelled
  | .gap _ _, mark, [] => .error (.word mark.line .noClosingQuote)
  | .escape, mark, [] => .error (.word mark.line .badEscape)
  | .code _ _, mark, [] => .error (.word mark.line .noHexadecimal)
  | .gap escaped chars, mark, char :: rest =>
    let text := Quoting.gapText escaped chars
    if isSpace char then
      readDouble (.gap escaped (chars ++ [char])) (mark.after char) rest
    else if isDocumentMark mark (char :: rest) then
      .error (.word mark.line .documentMarkInside)
    else if char = '"' then
      .ok ⟨text, mark.right 1, rest⟩
    else if char = '\\' then
      (readDouble .escape (mark.right 1) rest).map (·.behind text)
    else
      (readDouble .text (mark.right 1) rest).map (·.behind (text ++ [char]))
  | .escape, mark, char :: rest =>
    if isBreak char then
      readDouble (.gap true []) (mark.after char) rest
    else
      match codeWidth? char, unescape? char with
      | some width, _ => readDouble (.code width 0) (mark.right 1) rest
      | none, some meant => (readDouble .text (mark.right 1) rest).map (·.behind [meant])
      | none, none => .error (.word mark.line .badEscape)
  | .code missing value, mark, char :: rest =>
    match Scalar.digitValue? char with
    | none => .error (.word mark.line .noHexadecimal)
    | some digit =>
      let value := 16 * value + digit
      if 1 < missing then
        readDouble (.code (missing - 1) value) (mark.right 1) rest
      else if value.isValidChar then
        (readDouble .text (mark.right 1) rest).map (·.behind [Char.ofNat value])
      else
        .error (.word mark.line .badEscapeCode)

/-! ## Blocks -/

/-- What becomes of the line breaks at the end of a block: none, the first or all of
them stay. -/
inductive Chomping where
  | strip
  | clip
  | keep
deriving DecidableEq, Repr

namespace Chomping

/-- What stays of the line break behind the last line and of those behind it. -/
def tail (chomping : Chomping) (first more : List Char) : List Char :=
  match chomping with
  | .strip => []
  | .clip => first
  | .keep => first ++ more

/-- The chomping that a sign asks for. -/
def ofChar? : Char → Option Chomping
  | '-' => some .strip
  | '+' => some .keep
  | _ => none

end Chomping

/-- The line behind the sign of a block. -/
structure BlockHeader where
  chomping : Chomping := .clip
  /-- How much further than their surroundings the lines are indented, if it is
  said. -/
  indentation : Option Nat := none

namespace BlockHeader

/-- Reads the chomping of a block. -/
def readChomping (header : BlockHeader) : List Char → BlockHeader × List Char
  | [] => (header, [])
  | char :: rest =>
    match Chomping.ofChar? char with
    | some chomping => ({ header with chomping := chomping }, rest)
    | none => (header, char :: rest)

/-- Reads the indentation of a block. -/
def readIndentation (line : Nat) (header : BlockHeader) :
    List Char → Except Fault (BlockHeader × List Char)
  | [] => .ok (header, [])
  | char :: rest =>
    if char = '0' then
      .error (.word line .zeroIndentation)
    else if char.isDigit then
      .ok ({ header with indentation := some (char.toNat - '0'.toNat) }, rest)
    else
      .ok (header, char :: rest)

/-- Reads the chomping and the indentation of a block, in either order. -/
def read (line : Nat) (chars : List Char) : Except Fault (BlockHeader × List Char) :=
  match readChomping {} chars with
  | (header, rest) =>
    if rest.length < chars.length then
      readIndentation line header rest
    else
      (readIndentation line header rest).map fun (header, rest) =>
        if rest.length < chars.length then readChomping header rest else (header, rest)

end BlockHeader

/-- The text behind blanks and a comment, which must be the end of the line. -/
def skipLineEnd (line : Nat) (chars : List Char) : Except Fault (List Char) :=
  let rest :=
    match chars.dropWhile isBlank with
    | '#' :: comment => comment.dropWhile fun char => !isBreak char
    | rest => rest
  if startsBreak rest then .ok rest else .error (.word line .noLineEnd)

/-- A block as far as it has been read. -/
structure Block where
  folded : Bool
  chomping : Chomping
  /-- The indentation of the surroundings. -/
  outer : Int
  /-- The column of the lines, once it is known. -/
  indent : Option Nat
  /-- The line break behind the last line. -/
  first : List Char := []
  /-- The line breaks behind it. -/
  more : List Char := []
  /-- The furthest column that the blanks in front of a line reach. -/
  reach : Nat := 0
  /-- Whether the last line started with a blank. -/
  blank : Bool := false
  /-- Whether reading stands inside a line. -/
  inside : Bool := false
deriving DecidableEq, Repr

namespace Block

/-- The column of the lines. If it is not said, the first line tells it, but it is
further than the surroundings. -/
def column (block : Block) : Nat :=
  block.indent.getD (max 1 (max block.reach (block.outer + 1).toNat))

/-- Whether a column is still in front of the lines. -/
def isBefore (block : Block) (column : Nat) : Bool :=
  match block.indent with
  | none => true
  | some indent => column < indent

/-- What the line breaks in front of a line stand for. Folding turns one of them into
a blank, unless one of the lines around it starts with a blank. -/
def joint (block : Block) (char : Char) : List Char :=
  if block.folded ∧ ¬block.blank ∧ ¬isBlank char ∧ block.first = ['\n'] then
    if block.more.isEmpty then [' '] else block.more
  else
    block.first ++ block.more

/-- The block at the start of a line. -/
def enter (block : Block) (char : Char) : Block :=
  { block with
    indent := some block.column
    first := []
    more := []
    blank := isBlank char
    inside := true }

end Block

/-- Reads the lines of a block. -/
def readBlock (block : Block) (mark : Mark) : List Char → Except Fault Spelled
  | [] => .ok ⟨block.chomping.tail block.first block.more, mark, []⟩
  | char :: rest =>
    if block.inside then
      if isBreak char then
        readBlock { block with first := [char], reach := 0, inside := false } (mark.after char) rest
      else
        (readBlock block (mark.after char) rest).map (·.behind [char])
    else if char = ' ' ∧ block.isBefore mark.column then
      readBlock { block with reach := max block.reach (mark.column + 1) } (mark.after char) rest
    else if char = '\t' ∧ block.isBefore mark.column then
      .error (.word mark.line .tabForIndentation)
    else if isBreak char then
      readBlock { block with more := block.more ++ [char] } (mark.after char) rest
    else if mark.column = block.column then
      (readBlock (block.enter char) (mark.after char) rest).map
        (·.behind (block.joint char ++ [char]))
    else
      .ok ⟨block.chomping.tail block.first block.more, mark, char :: rest⟩

/-- Reads a block behind its sign. -/
def readBlockScalar (folded : Bool) (outer : Int) (mark : Mark) (chars : List Char) :
    Except Fault Spelled := do
  let (header, rest) ← BlockHeader.read mark.line chars
  let rest ← skipLineEnd mark.line rest
  let indent := header.indentation.map fun count => (max outer 0).toNat + count
  let block : Block := { folded, chomping := header.chomping, outer, indent }
  match rest with
  | [] => readBlock block (mark.right chars.length) []
  | char :: lines => readBlock block (mark.after char) lines

end Yaml

end Scriptlet
