import Scriptlet.Code.Symbol
import Scriptlet.Text.Chars
import Scriptlet.Text.Letter

/-!
# Comments in their form

A comment on several lines loses the margin that its lines share. A comment in front
of a declaration is a text with paragraphs, lists, headings and code, and it is
written as one.
-/

namespace Scriptlet

namespace Code

namespace Comment

/-! ## Blanks -/

/-- Whether a character is a blank of any kind. -/
def isSpace (char : Char) : Bool :=
  ('\t' ≤ char && char ≤ '\r') || ('\u2000' ≤ char && char ≤ '\u200a') ||
    [' ', '\u0085', '\u00a0', '\u1680', '\u2028', '\u2029', '\u202f', '\u205f',
      '\u3000'].contains char

/-- Some characters without the blanks behind them. -/
def trimEnd (chars : List Char) : List Char :=
  (chars.reverse.dropWhile isSpace).reverse

/-- Some characters without the blanks around them. -/
def trimBoth (chars : List Char) : List Char :=
  trimEnd (chars.dropWhile isSpace)

/-- Some characters without others behind them, if those are there. -/
def withoutEnd (chars last : List Char) : List Char :=
  if last.isSuffixOf chars then chars.take (chars.length - last.length) else chars

/-! ## Margins -/

/-- Whether there are only blanks and control characters. -/
def isHollow (chars : List Char) : Bool :=
  chars.all (· ≤ ' ')

/-- The blanks and stars that two lines start with. -/
def sharedMargin : List Char → List Char → List Char
  | first :: rest, other :: others =>
    if first = other ∧ (first ≤ ' ' ∨ first = '*') then
      first :: sharedMargin rest others
    else
      []
  | _, _ => []

/-- The margin that some lines share, or else that of the last line. -/
def marginOf (lines : List (List Char)) (last : List Char) : List Char :=
  match lines.filter (!isHollow ·) with
  | [] => sharedMargin last last
  | line :: rest => rest.foldl sharedMargin (sharedMargin line line)

/-- A margin without three blanks or a tabulator at its end. -/
def withoutIndent (margin : List Char) : List Char :=
  let blanks := (margin.reverse.take 3).takeWhile (· = ' ')
  if blanks.isEmpty && margin.getLast? = some '\t' then
    margin.dropLast
  else
    margin.take (margin.length - blanks.length)

/-- The margin behind which the text stands, if the first line goes on with some
characters. The text may be indented. -/
def textMargin (start margin : List Char) : List Char :=
  if isHollow start then
    withoutIndent margin
  else
    let blanks := start.takeWhile (· ≤ ' ')
    withoutEnd margin (if blanks.head? = some '\t' then blanks else ' ' :: ' ' :: blanks)

/-- The last line of a comment. If it only ends the comment, it stands at the margin,
or under the stars. -/
def lastLine (margin : List Char) (hasStars : Bool) (last : List Char) : List Char :=
  if !isHollow (last.take (last.length - 2)) then
    last.drop (sharedMargin margin last).length
  else if hasStars then
    [' ', '*', '/']
  else
    ['*', '/']

/-- The lines of a comment without the margin that they share. -/
def dedent (lines : List (List Char)) : List (List Char) :=
  match lines with
  | [] => []
  | first :: others =>
    match others.getLast? with
    | none => lines
    | some last =>
      let inner := others.dropLast
      let shared := marginOf inner last
      let hasStars := shared.contains '*'
      let margin :=
        if hasStars then
          withoutEnd (shared.takeWhile (· ≠ '*')) [' ']
        else
          textMargin (first.drop 2) shared
      let closes := isHollow (last.take (last.length - 2))
      let drop := if closes then margin.length else (sharedMargin margin last).length
      let inner := inner.map fun line => if isHollow line then [] else line.drop drop
      first :: inner ++ [lastLine margin hasStars last]

/-- The lines of a comment. If it starts in the first column and gets indented, it is
taken to have been indented before. -/
def lines (comment : Comment) (isIndented : Bool) : List String :=
  let lines :=
    if comment.fillsLine then
      [comment.text.toList]
    else
      match splitAt '\n' comment.text.toList with
      | [] => []
      | first :: rest =>
        let margin := if comment.place.column = 0 && isIndented then [' ', ' ', ' '] else []
        dedent (first :: rest.map (margin ++ ·))
  lines.map fun line => String.ofList (trimEnd line)

/-! ## Texts -/

/-- A part of a text in front of a declaration. -/
inductive Block where
  | paragraph (lines : List (List Char))
  | heading (line : List Char)
  | code (lines : List (List Char))
  /-- Items with their numbers and paragraphs. They may be apart from what stands before
  and from each other. -/
  | list (apart loose : Bool) (items : List (List Char × List (List (List Char))))
  /-- Names of addresses on lines of their own. -/
  | links (entries : List (List Char × List Char))
deriving DecidableEq, Repr

/-- Whether a line is indented. -/
def isIndented (line : List Char) : Bool :=
  line.head?.any fun char => char = ' ' || char = '\t'

/-- The number in front of an item of a list, which may be empty, and the rest of the
line. -/
def itemStart? (line : List Char) : Option (List Char × List Char) :=
  let line := trimBoth line
  let found :=
    match line with
    | [] => none
    | first :: rest =>
      if ['\u2022', '*', '+', '-'].contains first then
        some ([], rest)
      else
        match line.span Char.isDigit with
        | (digit :: digits, point :: rest) =>
          if point = '.' ∨ point = ')' then some (digit :: digits, rest) else none
        | _ => none
  found.filter fun (_, rest) => isIndented rest && !(trimBoth rest).isEmpty

/-- Whether a line starts an item of a list. -/
def isItem (line : List Char) : Bool :=
  (itemStart? line).isSome

/-- Whether a line is a heading. -/
def isHeading (line : List Char) : Bool :=
  match line with
  | '#' :: rest => isIndented rest && !(trimBoth rest).isEmpty
  | _ => false

/-- What stands behind the occurrences of a character. -/
def behindEach (mark : Char) : List Char → List (List Char)
  | [] => []
  | char :: rest => if char = mark then rest :: behindEach mark rest else behindEach mark rest

/-- Whether a line can be a heading without a mark: it starts with a capital letter, ends
with a letter or a digit, and holds only what titles hold. A point stands inside of a
word, and an apostrophe in front of a last `s`. -/
def isTitle (line : List Char) : Bool :=
  let line := trimBoth line
  line.head?.any Char.isUpper &&
    line.getLast?.any (fun char => isLetter char || isDecimalDigit char) &&
    !line.any ['{', '}'].contains &&
    !line.any ";:!?+*/=[]_^\u00b0&\u00a7~%#@<\">\\".toList.contains &&
    (behindEach '\'' line).all (fun rest => rest = ['s'] || ['s', ' '].isPrefixOf rest) &&
    (behindEach '.' line).all (fun rest => !rest.isEmpty && rest.head? ≠ some ' ')

/-- Whether a heading can stand behind some lines and in front of others: there are empty
lines around it, and what follows is not indented. -/
def isSetOff (before after : List (List Char)) : Bool :=
  !before.isEmpty &&
    match after with
    | [] :: next :: _ => !isIndented next
    | _ => false

/-- The kinds of addresses that can have names. -/
def schemes : List String :=
  ["file", "ftp", "gopher", "http", "https", "mailto", "nntp"]

/-- The name between brackets at the front of a line, and what stands behind the brackets
and a colon. -/
def named? : List Char → Option (List Char × List Char)
  | ']' :: ':' :: rest => some ([], rest)
  | char :: rest => (named? rest).map fun (name, rest) => (char :: name, rest)
  | [] => none

/-- The address that a line gives a name to, behind the name. -/
def link? (line : List Char) : Option (List Char × List Char) := do
  let '[' :: line := line | none
  let (name, blank :: rest) ← named? line | none
  let address := trimBoth rest
  let isKnown := schemes.any fun scheme => (scheme ++ "://").toList.isPrefixOf address
  if isIndented [blank] && isKnown then some (name, address) else none

/-- Lines without empty ones around them. -/
def trimLines (lines : List (List Char)) : List (List Char) :=
  ((lines.dropWhile List.isEmpty).reverse.dropWhile List.isEmpty).reverse

/-- Lines without the blanks that all of them start with. -/
def unindent (lines : List (List Char)) : List (List Char) :=
  let lines := trimLines (lines.map fun line => if (trimBoth line).isEmpty then [] else line)
  let margins := (lines.filter (!·.isEmpty)).map (·.takeWhile fun char => isIndented [char])
  match margins with
  | [] => lines
  | margin :: rest =>
    let margin := rest.foldl sharedMargin margin
    lines.map (·.drop margin.length)

/-- The lines at the front that are indented or empty, and the rest. Some are taken to be
indented, and so may be items of a list up to an empty line. -/
def indentedLines (forced : Nat) (items : Bool) :
    List (List Char) → List (List Char) × List (List Char)
  | [] => ([], [])
  | line :: rest =>
    if line.isEmpty || 0 < forced || isIndented line || (items && isItem line) then
      let (part, others) := indentedLines (forced - 1) (items && !line.isEmpty) rest
      (line :: part, others)
    else
      ([], line :: rest)

/-- The lines at the front that are indented, and the rest. A brace right behind them
belongs to them. -/
def indentedPart (forced : Nat) (lines : List (List Char)) :
    List (List Char) × List (List Char) :=
  let (part, rest) := indentedLines forced (0 < forced && lines.head?.any isItem) lines
  let (blanks, reversed) := part.reverse.span List.isEmpty
  match rest with
  | line :: others =>
    if blanks.isEmpty && line.head? = some '}' then
      (part ++ [line], others)
    else
      (reversed.reverse, blanks ++ rest)
  | [] => (reversed.reverse, blanks)

/-- How many lines of a paragraph belong to the indented lines right behind it: items of a
list, or a line that opens something. -/
def borrowed (part rest : List (List Char)) : Nat :=
  match rest, part.getLast? with
  | next :: _, some last =>
    if next.isEmpty || isItem next then 0
    else if isItem last then (part.reverse.takeWhile isItem).length
    else if last.getLast? = some '{' || last.getLast? = some '\\' then 1
    else 0
  | _, _ => 0

/-- The paragraphs of an item: lines with empty ones between them. -/
def paragraphs (lines : List (List Char)) : List (List (List Char)) :=
  (lines.splitBy fun line next => line.isEmpty == next.isEmpty).filter fun part =>
    !part.all List.isEmpty

/-- The items of a list. Those of one list either have numbers or have none. -/
def items (numbered : Bool) (lines : List (List Char)) :
    List (List Char × List (List Char)) :=
  let add (found : List (List Char × List (List Char))) (line : List Char) :=
    match (itemStart? line).filter fun (number, _) => number.isEmpty ≠ numbered with
    | some (number, text) => (number, [trimBoth text]) :: found
    | none =>
      match found with
      | (number, lines) :: rest => (number, lines ++ [trimBoth line]) :: rest
      | [] => []
  (lines.foldl add []).reverse

/-- A list, which may be apart from what stands before. -/
def listBlock (apart : Bool) (lines : List (List Char)) : Block :=
  let numbered := ((lines.head?.bind itemStart?).map (!·.1.isEmpty)).getD false
  let loose := lines.any fun line => (trimBoth line).isEmpty
  .list (apart || loose) loose
    ((items numbered lines).map fun (number, lines) => (number, paragraphs lines))

/-- A paragraph, or the links that it consists of. -/
def paragraphBlock (lines : List (List Char)) : Block :=
  ((lines.mapM link?).map Block.links).getD (.paragraph lines)

/-- A line that stands alone between some lines and others. -/
def lineBlock (before after : List (List Char)) (line : List Char) : Block :=
  if isHeading line then .heading (trimBoth (line.drop 1))
  else if isSetOff before after && isTitle line then .heading (trimBoth line)
  else paragraphBlock [line]

/-- The parts of a text. Some lines at its front are taken to be indented. The limit is
not less than the number of lines. -/
def blocks (forced : Nat) (isFirst : Bool) (lines : List (List Char)) : Nat → List Block
  | 0 => []
  | limit + 1 =>
    let (blanks, lines) := lines.span List.isEmpty
    let forced := forced - blanks.length
    match lines with
    | [] => []
    | line :: _ =>
      if 0 < forced || isIndented line then
        let (part, rest) := indentedPart forced lines
        let apart := !isFirst && !blanks.isEmpty
        let block := if isItem line then listBlock apart part else .code (unindent part)
        block :: blocks (forced - part.length) false rest limit
      else
        let (part, rest) := lines.span fun line => !line.isEmpty && !isIndented line
        let count := borrowed part rest
        let own := part.take (part.length - count)
        let rest := part.drop own.length ++ rest
        let further := blocks count (isFirst && own.isEmpty) rest limit
        match own with
        | [] => further
        | [line] => lineBlock blanks rest line :: further
        | _ => paragraphBlock own :: further

/-- A line with typographic quotes in place of doubled ones. -/
def withQuotes : List Char → List Char
  | '\x60' :: '\x60' :: '\x60' :: rest => '\x60' :: '\x60' :: '\x60' :: withQuotes rest
  | '\x60' :: '\x60' :: rest => '\u201c' :: withQuotes rest
  | '\'' :: '\'' :: rest => '\u201d' :: withQuotes rest
  | char :: rest => char :: withQuotes rest
  | [] => []

/-- The lines of an item of a list. -/
def itemLines (number : List Char) (paragraphs : List (List (List Char))) : List (List Char) :=
  let mark := if number.isEmpty then [' ', ' ', '-', ' '] else ' ' :: number ++ ['.', ' ']
  let indent := List.replicate 4 ' '
  let lines := (List.intersperse [[]] paragraphs).flatten.map withQuotes
  match lines with
  | [] => [mark]
  | first :: rest =>
    (mark ++ first) :: rest.map fun line => if line.isEmpty then [] else indent ++ line

namespace Block

/-- The lines of a part of a text. -/
def lines : Block → List (List Char)
  | .paragraph lines => lines.map withQuotes
  | .heading line => [['#', ' '] ++ line]
  | .code lines => lines.map fun line => if line.isEmpty then [] else '\t' :: line
  | .list _ loose items =>
    let lines := items.map fun (number, paragraphs) => itemLines number paragraphs
    (if loose then List.intersperse [[]] lines else lines).flatten
  | .links entries => entries.map fun (name, address) => '[' :: name ++ [']', ':', ' '] ++ address

/-- Whether an empty line stands before a part of a text. -/
def isApart : Block → Bool
  | .list apart _ _ => apart
  | _ => true

/-- The links of a part of a text. -/
def linkList : Block → List (List Char × List Char)
  | .links entries => entries
  | _ => []

/-- The paragraphs in which links can be used. -/
def paragraphList : Block → List (List (List Char))
  | .paragraph lines => [lines]
  | .list _ _ items => items.flatMap (·.2)
  | _ => []

end Block

/-- What stands between brackets in a paragraph, where no bracket stands inside. -/
def bracketed (opened : Option (List Char)) : List Char → List (List Char)
  | [] => []
  | '[' :: rest => bracketed (some []) rest
  | ']' :: rest => (opened.map List.reverse).toList ++ bracketed none rest
  | char :: rest =>
    let char := if char = '\n' || char = '\t' then ' ' else char
    bracketed (opened.map (char :: ·)) rest

/-- The links of a text: those that are used, and the others. Of several with one name
the first one is used. -/
def sortLinks (used : List (List Char)) (links : List (List Char × List Char)) :
    List Block :=
  let add (parts : List (List Char × List Char) × List (List Char × List Char))
      (link : List Char × List Char) :=
    if used.contains link.1 && !(parts.1.map (·.1)).contains link.1 then
      (parts.1 ++ [link], parts.2)
    else
      (parts.1, parts.2 ++ [link])
  let (first, second) := links.foldl add ([], [])
  ([first, second].filter (!·.isEmpty)).map .links

/-- The lines of a text in its form. Links come last. -/
def textLines (lines : List (List Char)) : List (List Char) :=
  let lines := unindent lines
  let (links, blocks) := (blocks 0 true lines (2 * lines.length + 1)).partition fun block =>
    !block.linkList.isEmpty
  let used := (blocks.flatMap (·.paragraphList)).flatMap fun lines =>
    bracketed none (List.intercalate ['\n'] lines)
  let links := sortLinks used (links.flatMap (·.linkList))
  let apart (block : Block) : List (List Char) :=
    (if block.isApart then [[]] else []) ++ block.lines
  let texts :=
    match blocks with
    | [] => []
    | first :: rest => first.lines ++ rest.flatMap apart
  texts ++ links.flatMap apart

/-! ## Comments in front of declarations -/

/-- Whether a comment is meant for a tool, from what stands behind the slashes. -/
def isDirective (chars : List Char) : Bool :=
  let isWord (char : Char) : Bool := char.isLower || char.isDigit
  ["line ", "extern ", "export "].any (·.toList.isPrefixOf chars) ||
    match chars.span (· ≠ ':') with
    | (front, _ :: next :: _) => !front.isEmpty && (next :: front).all isWord
    | _ => false

/-- Whether each line of a comment but the first starts with a star. -/
def hasOnlyStars (lines : List (List Char)) : Bool :=
  (lines.drop 1).all fun line =>
    (line.dropWhile fun char => isIndented [char]).head? = some '*'

/-- A line of a text as a comment. -/
def ofLine (place : Place) (line : List Char) : Comment :=
  let text := if line.isEmpty || line.head? = some '\t' then line else ' ' :: line
  ⟨"//" ++ String.ofList text, place⟩

/-- Comments that go on to the ends of their lines, as one text. Those for tools come
last. -/
def lineText (place : Place) (comments : List Comment) : List Comment :=
  let contents := comments.map (·.text.toList.drop 2)
  let texts := contents.filter (!isDirective ·)
  if texts.isEmpty then
    comments
  else
    let lines := textLines (texts.map fun text =>
      match text with
      | ' ' :: rest => rest
      | _ => text)
    let directives := contents.filter isDirective
    let further := if directives.isEmpty then [] else [] :: directives
    lines.map (ofLine place) ++ further.map fun text => ⟨"//" ++ String.ofList text, place⟩

/-- A comment on several lines as a text. One with stars at the left stays as it is. -/
def blockText (comment : Comment) : Comment :=
  let lines := splitAt '\n' comment.text.toList
  if lines.length ≤ 1 || hasOnlyStars lines then
    comment
  else
    let inner := (comment.text.toList.drop 2).dropLast.dropLast
    let lines := textLines (splitAt '\n' inner)
    let text := lines.flatMap (· ++ ['\n'])
    { comment with text := "/*\n" ++ String.ofList text ++ "*/" }

/-- The comments that document a declaration, in their form. -/
def documentation (comments : List Comment) : List Comment :=
  match comments with
  | [] => []
  | [comment] => if comment.fillsLine then lineText comment.place comments else [blockText comment]
  | first :: _ => if comments.all fillsLine then lineText first.place comments else comments

end Comment

end Code

end Scriptlet
