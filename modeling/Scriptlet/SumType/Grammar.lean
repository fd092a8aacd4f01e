import Scriptlet.SumType.Basic
import Scriptlet.SumType.Word

/-!
# Reading descriptions

The grammar of descriptions. The words that structure a description are known by
what they say, so they may also be quoted, and they may serve as names elsewhere.
-/

namespace Scriptlet

namespace SumType

/-- Reads something from the front of a list of words, or fails. -/
abbrev Reader (α : Type) : Type := StateT (List Word) Option α

namespace Reader

/-- Takes a word that passes a test. -/
def take {α : Type} (test : Word → Option α) : Reader α
  | [] => none
  | word :: rest => (test word).map fun value => (value, rest)

/-- Takes a word that says something given. -/
def exactly (spelling : String) : Reader Unit :=
  take fun word => if word.spelling = spelling then some () else none

def name : Reader String :=
  take fun
    | .name spelling => some spelling
    | _ => none

def text : Reader String :=
  take fun
    | .text content => some content
    | _ => none

/-- Takes a type, which is a name or a quoted text. -/
def kind : Reader String :=
  take fun
    | .name spelling => some spelling
    | .text content => some content
    | .raw content => some content
    | _ => none

/-- Reads the same thing as often as possible, up to a limit. -/
def atMost {α : Type} (reader : Reader α) : Nat → Reader (List α)
  | 0 => pure []
  | limit + 1 =>
    (do
      let first ← reader
      let rest ← atMost reader limit
      pure (first :: rest))
    <|> pure []

/-- Reads the same thing as often as possible. No reader that takes a word each
time can do so more often than there are words. -/
def many {α : Type} (reader : Reader α) : Reader (List α) :=
  fun words => atMost reader words.length words

/-- Reads an imported package. -/
def imported : Reader String := do
  exactly "import"
  let path ← text
  exactly ";"
  pure path

def field : Reader Field := do
  let name ← name
  let kind ← kind
  exactly ";"
  pure ⟨name, kind⟩

/-- Reads fields between braces. -/
def record : Reader Content := do
  exactly braceOpen
  let fields ← many field
  exactly braceClose
  pure (.record fields)

def variant : Reader Variant := do
  exactly "|"
  let name ← name
  exactly "of"
  let content ← (do pure (.value (← kind))) <|> record
  pure ⟨name, content⟩

/-- Reads a type, or else variants. There may be none of them. -/
def meaning : Reader Meaning :=
  (do pure (.plain (← kind)))
  <|> (do pure (.sum (← many variant)))

def declaration : Reader Declaration := do
  exactly "type"
  let name ← name
  exactly "="
  let meaning ← meaning
  exactly ";"
  pure ⟨name, meaning⟩

/-- Reads imports and then declarations. -/
def description : Reader Description := do
  let imports ← many imported
  let declarations ← many declaration
  pure ⟨imports, declarations⟩

end Reader

namespace Description

/-- The description that some words make up, all of them and at least one. -/
def ofWords? (words : List Word) : Option Description :=
  match words, Reader.description words with
  | _ :: _, some (description, []) => some description
  | _, _ => none

/-- Reads a description. -/
def read? (source : Bytes) : Option Description := do
  ofWords? (← Word.scan source)

end Description

end SumType

end Scriptlet
