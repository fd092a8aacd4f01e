import Scriptlet.Yaml.Scalar
import Scriptlet.Yaml.Source
import Scriptlet.Yaml.Window

/-!
# Tokens of documents

A document is cut into tokens: scalars, the marks between them, and marks for the
start and the end of lists and tables that only indentation shows. A key needs no
mark in front of it; that something is a key becomes clear from the colon behind
it, so its mark is put in afterwards. A key without mark stands on one line and is
no longer than some thousand characters.

Tokens in front of a fault can be used, but not from the place on where a key may
have started that the fault keeps from being recognised.
-/

namespace Scriptlet

namespace Yaml

/-- The kinds of tokens. -/
inductive TokenKind where
  | streamEnd
  /-- There is no further token. -/
  | broken (fault : Fault)
  | version (major minor : Nat)
  | handle (name expansion : String)
  | documentStart
  | documentEnd
  | listStart
  | tableStart
  /-- The end of a list or a table that is shown by indentation. -/
  | blockEnd
  | openList
  | closeList
  | openTable
  | closeTable
  | item
  | comma
  | key
  | value
  | alias (name : String)
  | anchor (name : String)
  | tag (handle suffix : String)
  | scalar (bare : Bool) (content : String)
deriving DecidableEq, Repr

/-- A token and the line where it starts. -/
structure Token where
  kind : TokenKind
  line : Nat
deriving DecidableEq, Repr

/-- The start of something that may turn out to be a key. -/
structure KeyStart where
  /-- The number of tokens in front of it. -/
  position : Nat
  mark : Mark
  /-- Whether it must be a key because nothing else can stand there. -/
  required : Bool
deriving DecidableEq, Repr

namespace KeyStart

/-- The number of characters that a key can have. -/
def limit : Nat := 1024

/-- Whether a colon at a place comes too late for a key. -/
def isStale (start : KeyStart) (mark : Mark) : Bool :=
  start.mark.line < mark.line || start.mark.column + limit < mark.column

end KeyStart

/-- A document that is being cut into tokens. -/
structure Scanner where
  chars : List Char
  window : Window := {}
  mark : Mark := {}
  tokens : List Token := []
  /-- What may turn out to be a key, for each pair of brackets around the place, from
  the inside to the outside, and for the document itself. -/
  keys : List (Option KeyStart) := [none]
  /-- The column of the list or table at hand that is shown by indentation. -/
  indent : Int := -1
  /-- The columns of those around it. -/
  indents : List Int := []
  /-- Whether a key without mark can start at the place. -/
  keyAllowed : Bool := true
deriving DecidableEq, Repr

namespace Scanner

/-- Whether the place is between brackets. -/
def inFlow (scanner : Scanner) : Bool :=
  scanner.keys.length > 1

/-- Goes on behind some characters of the line. -/
def skip (scanner : Scanner) (count : Nat) : Scanner :=
  { scanner with chars := scanner.chars.drop count, mark := scanner.mark.right count }

/-- Adds a token that starts at a line. -/
def push (scanner : Scanner) (line : Nat) (kind : TokenKind) : Scanner :=
  { scanner with tokens := scanner.tokens ++ [⟨kind, line⟩] }

/-- Adds a token for some characters at the place. -/
def pushMark (scanner : Scanner) (count : Nat) (kind : TokenKind) : Scanner :=
  (scanner.push scanner.mark.line kind).skip count

/-- A fault at the place. -/
def fail {α : Type} (scanner : Scanner) (problem : WordProblem) : Except Fault α :=
  .error (.word scanner.mark.line problem)

/-! ## Blanks and comments -/

/-- Goes on to the next token, over blanks, line breaks and comments. Tabs are no
blanks where a key can start. In a marked window, the first character of a line is
passed over. -/
def skipBlanks (marked comment flow keyAllowed : Bool) (mark : Mark) :
    List Char → Bool × Mark × List Char
  | [] => (keyAllowed, mark, [])
  | char :: rest =>
    if marked && mark.column = 0 then
      skipBlanks marked comment flow keyAllowed (mark.right 1) rest
    else if isBreak char then
      skipBlanks marked false flow (keyAllowed || !flow) (mark.after char) rest
    else if comment || char = ' ' || (char = '\t' && (flow || !keyAllowed)) then
      skipBlanks marked comment flow keyAllowed (mark.after char) rest
    else if char = '#' then
      skipBlanks marked true flow keyAllowed (mark.after char) rest
    else
      (keyAllowed, mark, char :: rest)

/-- Goes on to the next token or to the end. -/
def toNext (scanner : Scanner) : Scanner :=
  let window := scanner.window.pass scanner.chars
  let (keyAllowed, mark, chars) :=
    skipBlanks window.isMarked false scanner.inFlow scanner.keyAllowed scanner.mark scanner.chars
  let atEnd := chars.isEmpty && mark.column = 0 && window.passesEnd
  { scanner with
    keyAllowed
    mark := if atEnd then mark.right 1 else mark
    chars
    window := window.look chars }

/-! ## Keys without mark -/

/-- Forgets what can no longer be a key. -/
def dropStale (scanner : Scanner) : Except Fault Scanner := do
  let keys ← scanner.keys.mapM fun
    | none => pure none
    | some start =>
      if start.isStale scanner.mark then
        if start.required then scanner.fail .noKeyMark else pure none
      else
        pure (some start)
  pure { scanner with keys := keys }

/-- Sets what may turn out to be a key between the innermost brackets. -/
def setKey (scanner : Scanner) (start : Option KeyStart) : Scanner :=
  { scanner with keys := start :: scanner.keys.tail }

/-- What may turn out to be a key between the innermost brackets. -/
def key? (scanner : Scanner) : Option KeyStart :=
  scanner.keys.head?.join

/-- Forgets what may turn out to be a key. -/
def dropKey (scanner : Scanner) : Except Fault Scanner :=
  if scanner.key?.any (·.required) then
    scanner.fail .noKeyMark
  else
    pure (scanner.setKey none)

/-- Remembers that a key may start at the place. -/
def saveKey (scanner : Scanner) : Except Fault Scanner := do
  if scanner.keyAllowed then
    let start : KeyStart :=
      { position := scanner.tokens.length
        mark := scanner.mark
        required := !scanner.inFlow && scanner.indent = scanner.mark.column }
    pure ((← scanner.dropKey).setKey (some start))
  else
    pure scanner

/-- Sets whether a key without mark can start behind the next token. -/
def allowKey (scanner : Scanner) (allowed : Bool) : Scanner :=
  { scanner with keyAllowed := allowed }

/-! ## Indentation -/

/-- Starts a list or a table at a column, unless one has started there already. Its
token gets a given position. -/
def indentTo (scanner : Scanner) (mark : Mark) (position : Nat) (kind : TokenKind) : Scanner :=
  if !scanner.inFlow && scanner.indent < mark.column then
    { scanner with
      tokens := scanner.tokens.insertIdx position ⟨kind, mark.line⟩
      indent := mark.column
      indents := scanner.indent :: scanner.indents }
  else
    scanner

/-- The columns that are left behind on the way back to a column: their number, and
what remains. -/
def outdent (column : Int) : Int → List Int → Nat × Int × List Int
  | indent, [] => (0, indent, [])
  | indent, outer :: rest =>
    if column < indent then
      match outdent column outer rest with
      | (count, result) => (count + 1, result)
    else
      (0, indent, outer :: rest)

/-- Ends the lists and tables that are indented further than a column. -/
def unindentTo (scanner : Scanner) (column : Int) : Scanner :=
  if scanner.inFlow then
    scanner
  else
    match outdent column scanner.indent scanner.indents with
    | (count, indent, indents) =>
      { scanner with
        tokens := scanner.tokens ++ List.replicate count ⟨.blockEnd, scanner.mark.line⟩
        indent := indent
        indents := indents }

/-! ## Marks -/

/-- The end of the document and of all that is in it. -/
def fetchEnd (scanner : Scanner) : Except Fault Scanner := do
  let scanner := { scanner with mark := scanner.mark.closeLine }
  let scanner ← (scanner.unindentTo (-1)).dropKey
  pure ((scanner.allowKey false).push scanner.mark.line .streamEnd)

/-- A mark that starts or ends a document. -/
def fetchDocumentMark (scanner : Scanner) (kind : TokenKind) : Except Fault Scanner := do
  let scanner ← (scanner.unindentTo (-1)).dropKey
  pure ((scanner.allowKey false).pushMark 3 kind)

/-- An opening bracket. -/
def fetchOpening (scanner : Scanner) (kind : TokenKind) : Except Fault Scanner := do
  let scanner ← scanner.saveKey
  pure (({ scanner with keys := none :: scanner.keys }.allowKey true).pushMark 1 kind)

/-- A closing bracket. -/
def fetchClosing (scanner : Scanner) (kind : TokenKind) : Except Fault Scanner := do
  let scanner ← scanner.dropKey
  let keys := if scanner.inFlow then scanner.keys.tail else scanner.keys
  pure (({ scanner with keys := keys }.allowKey false).pushMark 1 kind)

/-- A comma between brackets. -/
def fetchComma (scanner : Scanner) : Except Fault Scanner := do
  pure (((← scanner.dropKey).allowKey true).pushMark 1 .comma)

/-- The dash in front of an item. -/
def fetchItem (scanner : Scanner) : Except Fault Scanner := do
  if !scanner.inFlow && !scanner.keyAllowed then
    scanner.fail .misplacedItem
  else
    let scanner := scanner.indentTo scanner.mark scanner.tokens.length .listStart
    pure (((← scanner.dropKey).allowKey true).pushMark 1 .item)

/-- The question mark in front of a key. -/
def fetchKey (scanner : Scanner) : Except Fault Scanner := do
  if !scanner.inFlow && !scanner.keyAllowed then
    scanner.fail .misplacedKey
  else
    let scanner := scanner.indentTo scanner.mark scanner.tokens.length .tableStart
    let scanner ← scanner.dropKey
    pure ((scanner.allowKey !scanner.inFlow).pushMark 1 .key)

/-- The colon in front of a value. What stands before it is a key if it can be one. -/
def fetchValue (scanner : Scanner) : Except Fault Scanner := do
  match scanner.key? with
  | some start =>
    let tokens := scanner.tokens.insertIdx start.position ⟨.key, start.mark.line⟩
    let scanner := { scanner with tokens := tokens }
    let scanner := scanner.indentTo start.mark start.position .tableStart
    pure (((scanner.setKey none).allowKey false).pushMark 1 .value)
  | none =>
    if !scanner.inFlow && !scanner.keyAllowed then
      scanner.fail .misplacedValue
    else
      let scanner := scanner.indentTo scanner.mark scanner.tokens.length .tableStart
      pure ((scanner.allowKey !scanner.inFlow).pushMark 1 .value)

/-! ## Names of nodes -/

/-- Whether a character can stand in the name of an anchor. -/
def isNameChar (char : Char) : Bool :=
  char.isAlphanum || char = '_' || char = '-'

/-- Whether the name of an anchor can end before a text. -/
def endsName : List Char → Bool
  | [] => true
  | char :: _ => isSpace char || ['?', ':', ',', ']', '}', '%', '@', '\x60'].contains char

/-- An anchor or an alias. -/
def fetchAnchor (scanner : Scanner) (kind : String → TokenKind) : Except Fault Scanner := do
  let scanner := (← scanner.saveKey).allowKey false
  let (name, rest) := (scanner.chars.drop 1).span isNameChar
  if name.isEmpty || !endsName rest then
    scanner.fail .noAnchorName
  else
    pure (scanner.pushMark (name.length + 1) (kind (String.ofList name)))

/-! ## Tags -/

/-- Whether a character can stand in a tag. -/
def isTagChar (char : Char) : Bool :=
  isNameChar char ||
    [';', '/', '?', ':', '@', '&', '=', '+', '$', ',', '.', '!', '~', '*', '\'', '(', ')', '[',
      ']', '%'].contains char

/-- The byte that is written in two hexadecimal digits behind a percent sign. -/
def escapedByte? : List Char → Option UInt8
  | '%' :: high :: low :: _ => do
    let high ← Scalar.digitValue? high
    let low ← Scalar.digitValue? low
    pure (16 * high + low).toUInt8
  | _ => none

/-- Reads the characters of a tag as bytes. A percent sign introduces a byte; the
number of bytes that are missing to a character is counted, and so are the
characters to be passed over. -/
def readTagBytes (line : Nat) : Nat → Nat → List Char → Except Fault (Bytes × List Char)
  | _, missing, [] =>
    if missing = 0 then .ok ([], []) else .error (.word line .noEscapedByte)
  | skip + 1, missing, _ :: rest => readTagBytes line skip missing rest
  | 0, missing, char :: rest =>
    if missing = 0 ∧ ¬isTagChar char then
      .ok ([], char :: rest)
    else if missing = 0 ∧ char ≠ '%' then
      (readTagBytes line 0 0 rest).map fun (bytes, rest) =>
        (String.utf8EncodeChar char ++ bytes, rest)
    else
      match escapedByte? (char :: rest) with
      | none => .error (.word line .noEscapedByte)
      | some byte =>
        let length := if missing = 0 then (sequenceLength? byte).getD 0 else missing
        if length = 0 then
          .error (.word line .badEscapedLead)
        else if missing ≠ 0 ∧ (byte < 0x80 ∨ 0xc0 ≤ byte) then
          .error (.word line .badEscapedTrail)
        else
          (readTagBytes line 2 (length - 1) rest).map fun (bytes, rest) => (byte :: bytes, rest)

/-- Reads the characters of a tag. -/
def readTagChars (line : Nat) (chars : List Char) : Except Fault (List Char × List Char) :=
  (readTagBytes line 0 0 chars).map fun (bytes, rest) =>
    (Glyph.chars (Glyph.decode bytes), rest)

/-- Reads the handle in front of a tag: an exclamation mark, and a name with another
one if there is such. -/
def readHandle (line : Nat) : List Char → Except Fault (List Char × List Char)
  | '!' :: rest =>
    match rest.span isNameChar with
    | (name, '!' :: rest) => .ok ('!' :: name ++ ['!'], rest)
    | (name, rest) => .ok ('!' :: name, rest)
  | _ => .error (.word line .noTagStart)

/-- The handle and the rest of a tag, with what follows. -/
def readTag (line : Nat) (chars : List Char) :
    Except Fault (List Char × List Char × List Char) := do
  match chars with
  | '!' :: '<' :: rest =>
    let (suffix, rest) ← readTagChars line rest
    match suffix, rest with
    | [], _ => .error (.word line .noTag)
    | _, '>' :: rest => pure ([], suffix, rest)
    | _, _ => .error (.word line .noTagClosing)
  | _ =>
    let (handle, rest) ← readHandle line chars
    let (suffix, rest) ← readTagChars line rest
    if handle.length > 1 ∧ handle.getLast? = some '!' then
      if suffix.isEmpty then .error (.word line .noTag) else pure (handle, suffix, rest)
    else
      match handle.drop 1 ++ suffix with
      | [] => pure ([], ['!'], rest)
      | suffix => pure (['!'], suffix, rest)

/-- A tag. -/
def fetchTag (scanner : Scanner) : Except Fault Scanner := do
  let scanner := (← scanner.saveKey).allowKey false
  let (handle, suffix, rest) ← readTag scanner.mark.line scanner.chars
  if startsSpace rest then
    pure (scanner.pushMark (scanner.chars.length - rest.length)
      (.tag (String.ofList handle) (String.ofList suffix)))
  else
    scanner.fail .noTagEnd

/-! ## Directives -/

/-- Reads a number of at most two digits. -/
def readVersionNumber (line : Nat) (chars : List Char) : Except Fault (Nat × List Char) :=
  match chars.span Char.isDigit with
  | ([], _) => .error (.word line .noVersion)
  | (digits, rest) =>
    if digits.length > 2 then
      .error (.word line .longVersion)
    else
      .ok (Decimal.natOfDigits digits, rest)

/-- Reads the version of a document. -/
def readVersion (line : Nat) (chars : List Char) : Except Fault (TokenKind × List Char) := do
  let (major, rest) ← readVersionNumber line (chars.dropWhile isBlank)
  match rest with
  | '.' :: rest =>
    let (minor, rest) ← readVersionNumber line rest
    pure (.version major minor, rest)
  | _ => .error (.word line .noVersionPoint)

/-- Reads what a handle stands for. -/
def readExpansion (line : Nat) (chars : List Char) : Except Fault (TokenKind × List Char) := do
  let (handle, rest) ← readHandle line (chars.dropWhile isBlank)
  if handle.getLast? ≠ some '!' then
    .error (.word line .noTagStart)
  else
    match rest with
    | [] => .error (.word line .noDirectiveBlank)
    | char :: _ =>
      if isBlank char then
        let (expansion, rest) ← readTagChars line (rest.dropWhile isBlank)
        if expansion.isEmpty then
          .error (.word line .noTag)
        else if startsSpace rest then
          pure (.handle (String.ofList handle) (String.ofList expansion), rest)
        else
          .error (.word line .noTagEnd)
      else
        .error (.word line .noDirectiveBlank)

/-- Reads a directive behind the percent sign. -/
def readDirective (line : Nat) (chars : List Char) : Except Fault (TokenKind × List Char) :=
  match chars.span isNameChar with
  | ([], _) => .error (.word line .noDirectiveName)
  | (name, rest) =>
    if !startsSpace rest then
      .error (.word line .badDirectiveName)
    else if name = ['Y', 'A', 'M', 'L'] then
      readVersion line rest
    else if name = ['T', 'A', 'G'] then
      readExpansion line rest
    else
      .error (.word line .unknownDirective)

/-- A directive, which fills its line. -/
def fetchDirective (scanner : Scanner) : Except Fault Scanner := do
  let scanner := (← (scanner.unindentTo (-1)).dropKey).allowKey false
  let line := scanner.mark.line
  let (kind, rest) ← readDirective line (scanner.chars.drop 1)
  let rest ← skipLineEnd line rest
  let scanner := scanner.pushMark (scanner.chars.length - rest.length) kind
  match rest with
  | [] => pure scanner
  | char :: rest => pure { scanner with chars := rest, mark := scanner.mark.after char }

/-! ## Scalars -/

/-- Adds a scalar that has been read and goes on behind it. -/
def pushScalar (scanner : Scanner) (bare : Bool) (spelled : Spelled) : Scanner :=
  { scanner.push scanner.mark.line (.scalar bare (String.ofList spelled.content)) with
    mark := spelled.mark
    chars := spelled.rest }

/-- A block of lines. -/
def fetchBlock (scanner : Scanner) (folded : Bool) : Except Fault Scanner := do
  let scanner := (← scanner.dropKey).allowKey true
  let spelled ←
    readBlockScalar folded scanner.indent (scanner.mark.right 1) (scanner.chars.drop 1)
  pure (scanner.pushScalar false spelled)

/-- A quoted scalar. -/
def fetchQuoted (scanner : Scanner) (read : Mark → List Char → Except Fault Spelled) :
    Except Fault Scanner := do
  let scanner := (← scanner.saveKey).allowKey false
  let spelled ← read (scanner.mark.right 1) (scanner.chars.drop 1)
  pure (scanner.pushScalar false spelled)

/-- A bare scalar. A key can start in the line behind it. -/
def fetchBare (scanner : Scanner) : Except Fault Scanner := do
  let scanner := (← scanner.saveKey).allowKey false
  let bare ← readBare scanner.inFlow (scanner.indent + 1) [] scanner.mark scanner.chars
  pure ((scanner.pushScalar true bare.toSpelled).allowKey bare.lineEnded)

/-! ## All tokens -/

/-- The characters that no bare scalar starts with. A dash, a question mark and a colon
can start one before some characters. -/
def isIndicator (char : Char) : Bool :=
  ['-', '?', ':', ',', '[', ']', '{', '}', '#', '&', '*', '!', '|', '>', '\'', '"', '%',
    '@', '\x60'].contains char

/-- Whether a bare scalar starts with a character. -/
def startsBare (flow : Bool) (char : Char) (rest : List Char) : Bool :=
  (!isSpace char && !isIndicator char) ||
    (char = '-' && !(rest.head?.any isBlank)) ||
    (!flow && (char = '?' || char = ':') && !startsSpace rest)

/-- The token that starts with a character. -/
def fetchAt (scanner : Scanner) (char : Char) (rest : List Char) : Except Fault Scanner :=
  let flow := scanner.inFlow
  let lineStart := scanner.mark.column = 0
  if lineStart ∧ char = '%' then
    scanner.fetchDirective
  else if lineStart ∧ startsOpening (char :: rest) then
    scanner.fetchDocumentMark .documentStart
  else if lineStart ∧ startsClosing (char :: rest) then
    scanner.fetchDocumentMark .documentEnd
  else if char = '-' ∧ startsSpace rest then
    scanner.fetchItem
  else if char = '?' ∧ (flow ∨ startsSpace rest) then
    scanner.fetchKey
  else if char = ':' ∧ (flow ∨ startsSpace rest) then
    scanner.fetchValue
  else
    match char with
    | '[' => scanner.fetchOpening .openList
    | '{' => scanner.fetchOpening .openTable
    | ']' => scanner.fetchClosing .closeList
    | '}' => scanner.fetchClosing .closeTable
    | ',' => scanner.fetchComma
    | '*' => scanner.fetchAnchor .alias
    | '&' => scanner.fetchAnchor .anchor
    | '!' => scanner.fetchTag
    | '\'' => scanner.fetchQuoted (readSingle [])
    | '"' => scanner.fetchQuoted (readDouble .text)
    | _ =>
      if char = '|' ∧ ¬flow then
        scanner.fetchBlock false
      else if char = '>' ∧ ¬flow then
        scanner.fetchBlock true
      else if startsBare flow char rest then
        scanner.fetchBare
      else
        scanner.fail .noWord

/-- The next token, with the ends of what ended before it. -/
def fetch (scanner : Scanner) : Except Fault Scanner := do
  let scanner ← scanner.toNext.dropStale
  let scanner := scanner.unindentTo scanner.mark.column
  let scanner ←
    match scanner.chars with
    | [] => scanner.fetchEnd
    | char :: rest => scanner.fetchAt char rest
  scanner.dropStale

/-- The tokens that can be used before a fault: those in front of everything that may
turn out to be a key. -/
def usable (scanner : Scanner) : List Token :=
  scanner.keys.foldl (fun tokens start => tokens.take ((start.map (·.position)).getD tokens.length))
    scanner.tokens

/-- Whether the last token is the end. -/
def isFinished (scanner : Scanner) : Bool :=
  scanner.tokens.getLast?.any fun token => token.kind = .streamEnd

/-- All tokens. Each step takes at least one character, except for the last one. -/
def finish : Nat → Scanner → List Token
  | 0, scanner => scanner.tokens
  | steps + 1, scanner =>
    match scanner.fetch with
    | .error fault => scanner.usable ++ [⟨.broken fault, scanner.mark.line⟩]
    | .ok next => if next.isFinished then next.tokens else finish steps next

end Scanner

/-- The tokens of a document. The last one is its end or tells why there is none. -/
def tokenize (chars : List Char) : List Token :=
  Scanner.finish (chars.length + 1) { chars, window := .ofText chars }

end Yaml

end Scriptlet
