import Scriptlet.Text.Chars

/-!
# Symbols of Go code

Go code is made of names, keywords, numbers, quoted texts and signs. The end of a
line is a symbol of its own where something can end. Comments are kept with the
symbol behind them.
-/

namespace Scriptlet

namespace Code

/-- A symbol of Go code. Texts keep their quotes. -/
inductive Symbol where
  | name (spelling : String)
  | keyword (spelling : String)
  | number (spelling : String)
  | text (spelling : String)
  | char (spelling : String)
  | sign (spelling : String)
  | lineEnd
deriving DecidableEq, Repr

namespace Symbol

/-- The keywords of Go. They cannot be used as names. -/
def keywords : List String :=
  ["break", "default", "func", "interface", "select", "case", "defer", "go", "map", "struct",
    "chan", "else", "goto", "package", "switch", "const", "fallthrough", "if", "range", "type",
    "continue", "for", "import", "return", "var"]

/-- The signs of Go. Two dots are no sign by themselves, but three are. -/
def signs : List String :=
  ["+", "-", "*", "/", "%", "&", "|", "^", "<<", ">>", "&^", "+=", "-=", "*=", "/=", "%=", "&=",
    "|=", "^=", "<<=", ">>=", "&^=", "&&", "||", "<-", "++", "--", "==", "<", ">", "=", "!", "~",
    "!=", "<=", ">=", ":=", "..", "...", "(", "[", braceOpen, ",", ".", ")", "]", braceClose, ";", ":"]

/-- Whether a line that ends behind a symbol ends what the symbol belongs to. -/
def canEnd : Symbol → Bool
  | .name _ | .number _ | .text _ | .char _ => true
  | .keyword spelling => ["break", "continue", "fallthrough", "return"].contains spelling
  | .sign spelling => [")", "]", braceClose, "++", "--"].contains spelling
  | .lineEnd => false

/-- The symbol that a word is. -/
def ofWord (word : String) : Symbol :=
  if keywords.contains word then .keyword word else .name word

/-- A symbol as it is written. -/
def spelling : Symbol → String
  | .name spelling | .keyword spelling | .number spelling | .text spelling | .char spelling
  | .sign spelling => spelling
  | .lineEnd => ""

end Symbol

/-- A place in code: the number of bytes in front of it, its line, and its column in
bytes. -/
structure Place where
  offset : Nat := 0
  line : Nat := 0
  column : Nat := 0
deriving DecidableEq, Repr

namespace Place

/-- The place behind a character. -/
def after (place : Place) (char : Char) : Place :=
  let offset := place.offset + char.utf8Size
  if char = '\n' then
    { offset, line := place.line + 1, column := 0 }
  else
    { offset, line := place.line, column := place.column + char.utf8Size }

/-- The place behind a text. -/
def afterText (place : Place) (text : String) : Place :=
  text.toList.foldl after place

end Place

/-- A comment with its place. -/
structure Comment where
  text : String
  place : Place
deriving DecidableEq, Repr

namespace Comment

/-- Whether a comment goes on to the end of its line. -/
def fillsLine (comment : Comment) : Bool :=
  ['/', '/'].isPrefixOf comment.text.toList

/-- The place behind a comment. -/
def finish (comment : Comment) : Place :=
  comment.place.afterText comment.text

/-- Whether a comment states the line of other code that the code behind it comes from. -/
def statesLine (comment : Comment) : Bool :=
  "line ".toList.isPrefixOf (comment.text.toList.drop 2) &&
    (!comment.fillsLine || comment.place.column = 0)

/-- Comments that belong together, because there is no empty line between them. -/
def joined : List Comment → List (List Comment)
  | [] => []
  | comment :: rest =>
    match joined rest with
    | [] => [[comment]]
    | group :: groups =>
      if group.head?.any fun next => next.place.line ≤ comment.finish.line + 1 then
        (comment :: group) :: groups
      else
        [comment] :: group :: groups

/-- Comments that start on a line, or on the line where the one before ends, and those
behind them. -/
def onLine (line : Nat) : List Comment → List Comment × List Comment
  | [] => ([], [])
  | comment :: rest =>
    if comment.place.line = line then
      let (same, others) := onLine comment.finish.line rest
      (comment :: same, others)
    else
      ([], comment :: rest)

/-- Comments behind a symbol on a line. Those on the same line belong together. -/
def groupsBehind (line : Nat) (comments : List Comment) : List (List Comment) :=
  let (same, others) := onLine line comments
  (if same.isEmpty then [] else [same]) ++ joined others

end Comment

/-- A symbol with its place, and the comments between it and the symbol before. -/
structure Lexeme where
  symbol : Symbol
  place : Place
  comments : List Comment := []
deriving DecidableEq, Repr

namespace Lexeme

/-- The place behind a symbol. -/
def finish (lexeme : Lexeme) : Place :=
  lexeme.place.afterText lexeme.symbol.spelling

end Lexeme

/-- Some code as symbols, and the comments behind the last one. -/
structure Lexemes where
  list : List Lexeme
  comments : List Comment := []
deriving DecidableEq, Repr

namespace Lexemes

/-- Comments of some symbols behind a line, and some more behind the last one. -/
def groupsFrom (line : Nat) (comments : List Comment) : List Lexeme → List (List Comment)
  | [] => Comment.groupsBehind line comments
  | lexeme :: rest =>
    Comment.groupsBehind line lexeme.comments ++ groupsFrom lexeme.place.line comments rest

/-- All comments of some code that starts on a line. -/
def groups (line : Nat) (lexemes : Lexemes) : List (List Comment) :=
  groupsFrom line lexemes.comments lexemes.list

end Lexemes

end Code

end Scriptlet
