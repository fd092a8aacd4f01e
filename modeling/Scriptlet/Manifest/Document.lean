import Scriptlet.Manifest.Basic
import Scriptlet.Text.Chars
import Scriptlet.Yaml.Node
import Scriptlet.Yaml.Tag

/-!
# Reading manifests

A manifest is stored as a YAML document that is a table. Unknown keys are passed
over, and of two values for one key the later one counts. The entries of another
table can be taken up under a special key.

A value must be a scalar, and any scalar will do: a number or a date counts as
the text that spells it, and nothing as the empty text.
-/

namespace Scriptlet

open Yaml (Fault Node)

/-- A part of a document that is not what is asked for: a list or a table in place
of a text, or anything but a table in place of the whole manifest. -/
structure Mismatch where
  line : Nat
  tag : String
  /-- The spelling of a scalar. Lists and tables show none. -/
  content : Option String := none
  wanted : String
deriving DecidableEq, Repr

namespace Mismatch

/-- The number of bytes of a scalar that a message shows in full. -/
def longest : Nat := 10

/-- The number of bytes that are left of a longer one. -/
def shortest : Nat := 7

/-- A scalar in a message. A long one is cut, wherever a character ends. -/
def shorten (content : String) : Bytes :=
  let bytes := Bytes.ofString content
  if bytes.length > longest then
    bytes.take shortest ++ Bytes.ofString "..."
  else
    bytes

def message (mismatch : Mismatch) : Bytes :=
  let shown :=
    match mismatch.content with
    | some content => Bytes.ofString " " ++ Bytes.ofString "\x60" ++ shorten content ++ Bytes.ofString "\x60"
    | none => []
  Bytes.ofString ("line " ++ Decimal.text mismatch.line ++ ": cannot unmarshal " ++ mismatch.tag) ++
    shown ++ Bytes.ofString (" into " ++ mismatch.wanted)

end Mismatch

/-- Why a stored text is no manifest. -/
inductive ManifestError where
  /-- The text is no document, or one without a meaning. -/
  | malformed (fault : Fault)
  /-- The document holds other things than it should. -/
  | mismatched (mismatches : List Mismatch)
deriving DecidableEq, Repr

namespace ManifestError

def message : ManifestError → Bytes
  | .malformed fault => Bytes.ofString ("yaml: " ++ fault.message)
  | .mismatched mismatches =>
    Bytes.ofString "yaml: unmarshal errors:" ++
      mismatches.flatMap fun mismatch => Bytes.ofString "\n  " ++ mismatch.message

end ManifestError

namespace Manifest

/-- What the messages call a manifest. -/
def typeName : String := "main.periModule"

/-- Enters a value into a manifest. Unknown keys have no place in it. -/
def enter (manifest : Manifest) (key value : String) : Manifest :=
  match key with
  | "package" => { manifest with package := value }
  | "entry" => { manifest with entry := value }
  | "log-level" => { manifest with logLevel := value }
  | _ => manifest

/-- Whether a key has a place in a manifest. -/
def isKnown (key : String) : Bool :=
  key = "package" || key = "entry" || key = "log-level"

/-- The key under which the entries of another table are taken up. -/
def mergeKey : String := "<<"

/-- Whether a key takes up the entries of another table. -/
def isMergeKey : Node → Bool
  | .scalar _ tag bare content =>
    content = mergeKey && (bare || tag = Yaml.longTag "!!merge")
  | _ => false

/-- A manifest as far as a document has been looked at, and what is wrong so far. -/
structure Draft where
  manifest : Manifest := {}
  mismatches : List Mismatch := []
deriving DecidableEq, Repr

namespace Draft

/-- Adds what is wrong. -/
def complain (draft : Draft) (mismatch : Mismatch) : Draft :=
  { draft with mismatches := draft.mismatches ++ [mismatch] }

/-- The text that a node stands for. A list or a table stands for none. -/
def textOf (node : Node) : Except Fault (Except Mismatch String) := do
  match node.resolved with
  | .list line _ => pure (.error { line := line + 1, tag := "!!seq", wanted := "string" })
  | .table line _ => pure (.error { line := line + 1, tag := "!!map", wanted := "string" })
  | .scalar _ tag bare content => do
    pure (.ok ((← Yaml.scalarText? tag bare content).getD ""))
  | .alias _ _ _ => pure (.ok "")

/-- Adds an entry whose key takes up nothing. -/
def addEntry (draft : Draft) (key value : Node) : Except Fault Draft := do
  match ← textOf key with
  | .error mismatch => pure (draft.complain mismatch)
  | .ok key =>
    if isKnown key then
      match ← textOf value with
      | .error mismatch => pure (draft.complain mismatch)
      | .ok value => pure { draft with manifest := draft.manifest.enter key value }
    else
      pure draft

mutual

/-- Adds the entries of a table. -/
def addTable (draft : Draft) : Node → Except Fault Draft
  | .table _ entries => addEntries draft entries
  | .alias name inside target =>
    if inside ∧ target matches .table _ _ then
      .error (.endlessAnchor name)
    else
      addTable draft target
  | _ => .error .badMerge

/-- Adds entries. -/
def addEntries (draft : Draft) : List (Node × Node) → Except Fault Draft
  | [] => .ok draft
  | (key, value) :: rest => do
    let draft ← if isMergeKey key then addMerged draft value else draft.addEntry key value
    addEntries draft rest

/-- Adds the entries of a table or of all tables in a list. -/
def addMerged (draft : Draft) : Node → Except Fault Draft
  | .list _ items => addTables draft items
  | node => addTable draft node

/-- Adds the entries of tables, from the last to the first. -/
def addTables (draft : Draft) : List Node → Except Fault Draft
  | [] => .ok draft
  | node :: rest => do
    let draft ← addTables draft rest
    addTable draft node

end

end Draft

/-- The manifest that a document describes. A document that says nothing describes
an empty one. -/
def ofNode (root : Node) : Except ManifestError Manifest := do
  let mismatch (line : Nat) (tag : String) (content : Option String) : ManifestError :=
    .mismatched [{ line := line + 1, tag, content, wanted := typeName }]
  match root with
  | .list line _ => .error (mismatch line "!!seq" none)
  | .scalar line tag bare content =>
    match ← (Yaml.scalarText? tag bare content).mapError .malformed with
    | none => .ok {}
    | some _ =>
      let type := if bare then Yaml.Scalar.typeOf true content else .text
      let shown := if tag = "" then type.tag else Yaml.shortTag tag
      .error (mismatch line shown (some content))
  | node =>
    let draft ← (Draft.addTable {} node).mapError .malformed
    if draft.mismatches.isEmpty then .ok draft.manifest else .error (.mismatched draft.mismatches)

/-- The manifest that a stored text describes. -/
def read (bytes : Bytes) : Except ManifestError Manifest := do
  match ← (Yaml.readNode bytes).mapError .malformed with
  | none => .ok {}
  | some root => ofNode root

end Manifest

end Scriptlet
