import Scriptlet.Yaml.Token

/-!
# Nodes of documents

The tokens of a document make up a node: a scalar, a list of nodes or a table with
nodes for keys and values. A node can get a name, by which an alias stands for it
further on, and a tag that tells its type.
-/

namespace Scriptlet

namespace Yaml

/-- A node of a document, with the line where it starts. -/
inductive Node where
  /-- A scalar with its tag, if it has one. It is bare if its spelling tells its
  type. -/
  | scalar (line : Nat) (tag : String) (bare : Bool) (content : String)
  | list (line : Nat) (items : List Node)
  | table (line : Nat) (entries : List (Node × Node))
  /-- A node that stands for another one. If it stands inside that one, nothing is
  known of the target but its sort. -/
  | alias (name : String) (inside : Bool) (target : Node)
deriving Repr, Inhabited

namespace Node

/-- The scalar where nothing is written. -/
def empty (line : Nat) : Node :=
  .scalar line "" true ""

/-- The node that a node stands for. -/
def resolved : Node → Node
  | .alias _ _ target => target.resolved
  | node => node

end Node

/-- The name of a node, as far as it has been read. -/
structure Anchor where
  name : String
  target : Node
  /-- Whether the node has been read up to its end. -/
  complete : Bool

/-- Tokens that are being put together. -/
structure Assembly where
  tokens : List Token
  /-- The names that have been given, the latest first. -/
  anchors : List Anchor := []
  /-- What the handles of tags stand for. -/
  handles : List (String × String) := []

/-- Reads something from tokens. -/
abbrev Assembler (α : Type) : Type := StateT Assembly (Except Fault) α

namespace Assembler

/-- The next token, which must not be missing because of a fault. -/
def peek : Assembler Token := do
  match (← get).tokens with
  | [] => pure ⟨.streamEnd, 0⟩
  | token :: _ =>
    match token.kind with
    | .broken fault => throw fault
    | _ => pure token

/-- Goes on behind the next token. -/
def advance : Assembler Unit :=
  modify fun assembly => { assembly with tokens := assembly.tokens.tail }

/-- The token behind the next one. -/
def peekNext : Assembler Token := do
  advance
  peek

/-- Fails at a token. -/
def fail {α : Type} (token : Token) (problem : GrammarProblem) : Assembler α :=
  throw (.grammar token.line problem)

/-! ## Names and tags -/

/-- Names a node that has been read. -/
def bind (name : Option String) (node : Node) : Assembler Node := do
  match name with
  | none => pure node
  | some name =>
    modify fun assembly =>
      { assembly with anchors := ⟨name, node, true⟩ :: assembly.anchors }
    pure node

/-- Names a list or a table while it is being read. Inside, only its sort is known. -/
def bindAround (name : Option String) (outline : Node) (read : Assembler Node) :
    Assembler Node := do
  match name with
  | none => read
  | some name =>
    let count := (← get).anchors.length
    modify fun assembly =>
      { assembly with anchors := ⟨name, outline, false⟩ :: assembly.anchors }
    let node ← read
    modify fun assembly =>
      { assembly with
        anchors := assembly.anchors.set (assembly.anchors.length - 1 - count) ⟨name, node, true⟩ }
    pure node

/-- The node that a name stands for. -/
def lookup (name : String) : Assembler Node := do
  match (← get).anchors.find? fun anchor => anchor.name == name with
  | none => throw (.unknownAnchor name)
  | some anchor => pure (.alias name (!anchor.complete) anchor.target)

/-- The name and the tag in front of a node, and the line where they start. -/
structure Properties where
  line : Nat
  anchor : Option String := none
  tag : Option (String × String) := none
  /-- The line of the tag. -/
  tagLine : Nat := 0

/-- Reads the name and the tag in front of a node, in either order. -/
def properties : Assembler Properties := do
  let token ← peek
  match token.kind with
  | .anchor name =>
    let next ← peekNext
    match next.kind with
    | .tag handle suffix =>
      let _ ← peekNext
      pure ⟨token.line, some name, some (handle, suffix), next.line⟩
    | _ => pure { line := token.line, anchor := some name }
  | .tag handle suffix =>
    let next ← peekNext
    match next.kind with
    | .anchor name =>
      let _ ← peekNext
      pure ⟨token.line, some name, some (handle, suffix), token.line⟩
    | _ => pure ⟨token.line, none, some (handle, suffix), token.line⟩
  | _ => pure { line := token.line }

/-- The tag of a node in full. -/
def expandTag (properties : Properties) : Assembler String := do
  match properties.tag with
  | none => pure ""
  | some (handle, suffix) =>
    if handle = "" then
      pure suffix
    else
      match (← get).handles.lookup handle with
      | some expansion => pure (expansion ++ suffix)
      | none => throw (.grammar properties.tagLine .unknownHandle)

/-! ## Nodes -/

/-- Whether a token cannot start the key or the value of a table that is shown by
indentation. -/
def endsEntry : TokenKind → Bool
  | .key => true
  | .value => true
  | .blockEnd => true
  | _ => false

mutual

/-- Reads a node. Outside brackets, lists and tables may be shown by indentation; the
items of a list in a table need not be indented. -/
def node : Nat → Bool → Bool → Assembler Node
  | 0, _, _ => do fail (← peek) .tooDeep
  | depth + 1, block, itemsAllowed => do
    let token ← peek
    match token.kind with
    | .alias name =>
      let node ← lookup name
      advance
      pure node
    | _ =>
      let properties ← properties
      let token ← peek
      let tag ← expandTag properties
      let line := properties.line
      let name := properties.anchor
      match token.kind with
      | .scalar bare content =>
        advance
        bind name (.scalar line tag (tag = "!" || tag = "" && bare) content)
      | .openList =>
        bindAround name (.list line []) do
          advance
          pure (.list line (← listItems depth true))
      | .openTable =>
        bindAround name (.table line []) do
          advance
          pure (.table line (← tableEntries depth true))
      | kind =>
        if itemsAllowed ∧ kind = .item then
          bindAround name (.list line []) do
            pure (.list line (← plainItems depth))
        else if block ∧ kind = .listStart then
          bindAround name (.list line []) do
            advance
            pure (.list line (← blockItems depth))
        else if block ∧ kind = .tableStart then
          bindAround name (.table line []) do
            advance
            pure (.table line (← blockEntries depth))
        else if name.isSome ∨ tag ≠ "" then
          bind name (.scalar line tag (tag = "") "")
        else
          fail token .noContent

/-- Reads the items of a list that is shown by indentation. -/
def blockItems : Nat → Assembler (List Node)
  | 0 => do fail (← peek) .tooDeep
  | depth + 1 => do
    let token ← peek
    match token.kind with
    | .item =>
      let next ← peekNext
      let first ←
        match next.kind with
        | .item => pure (.empty token.line)
        | .blockEnd => pure (.empty token.line)
        | _ => node depth true false
      pure (first :: (← blockItems depth))
    | .blockEnd =>
      advance
      pure []
    | _ => fail token .noItem

/-- Reads the items of a list that is not indented further than the table it is in. -/
def plainItems : Nat → Assembler (List Node)
  | 0 => do fail (← peek) .tooDeep
  | depth + 1 => do
    let token ← peek
    match token.kind with
    | .item =>
      let next ← peekNext
      let first ←
        if next.kind = .item ∨ endsEntry next.kind then
          pure (.empty token.line)
        else
          node depth true false
      pure (first :: (← plainItems depth))
    | _ => pure []

/-- Reads the entries of a table that is shown by indentation. -/
def blockEntries : Nat → Assembler (List (Node × Node))
  | 0 => do fail (← peek) .tooDeep
  | depth + 1 => do
    let token ← peek
    match token.kind with
    | .key =>
      let next ← peekNext
      let key ←
        if endsEntry next.kind then pure (.empty token.line) else node depth true true
      let value ← blockValue depth
      pure ((key, value) :: (← blockEntries depth))
    | .blockEnd =>
      advance
      pure []
    | _ => fail token .noKey

/-- Reads the value of an entry. -/
def blockValue : Nat → Assembler Node
  | 0 => do fail (← peek) .tooDeep
  | depth + 1 => do
    let token ← peek
    match token.kind with
    | .value =>
      let next ← peekNext
      if endsEntry next.kind then pure (.empty token.line) else node depth true true
    | _ => pure (.empty token.line)

/-- Reads the items of a list in brackets. A comma is in front of all but the first. -/
def listItems : Nat → Bool → Assembler (List Node)
  | 0, _ => do fail (← peek) .tooDeep
  | depth + 1, first => do
    let token ← peek
    if token.kind = .closeList then
      advance
      pure []
    else
      if !first then
        if token.kind = .comma then advance else fail token .noListEnd
      let token ← peek
      match token.kind with
      | .closeList =>
        advance
        pure []
      | .key =>
        advance
        let entry ← singleEntry depth token.line
        pure (entry :: (← listItems depth false))
      | _ =>
        let item ← node depth false false
        pure (item :: (← listItems depth false))

/-- Reads an entry of a list in brackets that is a table with a single entry. -/
def singleEntry : Nat → Nat → Assembler Node
  | 0, _ => do fail (← peek) .tooDeep
  | depth + 1, line => do
    let token ← peek
    let key ←
      match token.kind with
      | .value => advance; pure (.empty token.line)
      | .comma => advance; pure (.empty token.line)
      | .closeList => advance; pure (.empty token.line)
      | _ => node depth false false
    let token ← peek
    let value ←
      match token.kind with
      | .value =>
        let next ← peekNext
        if next.kind = .comma ∨ next.kind = .closeList then
          pure (.empty token.line)
        else
          node depth false false
      | _ => pure (.empty token.line)
    let _ ← peek
    pure (.table line [(key, value)])

/-- Reads the entries of a table in brackets. A comma is in front of all but the
first. -/
def tableEntries : Nat → Bool → Assembler (List (Node × Node))
  | 0, _ => do fail (← peek) .tooDeep
  | depth + 1, first => do
    let token ← peek
    if token.kind = .closeTable then
      advance
      pure []
    else
      if !first then
        if token.kind = .comma then advance else fail token .noTableEnd
      let token ← peek
      match token.kind with
      | .closeTable =>
        advance
        pure []
      | .key =>
        let next ← peekNext
        let key ←
          if next.kind = .value ∨ next.kind = .comma ∨ next.kind = .closeTable then
            pure (.empty next.line)
          else
            node depth false false
        let value ← tableValue depth
        pure ((key, value) :: (← tableEntries depth false))
      | _ =>
        let key ← node depth false false
        let next ← peek
        pure ((key, .empty next.line) :: (← tableEntries depth false))

/-- Reads the value of an entry in brackets. -/
def tableValue : Nat → Assembler Node
  | 0 => do fail (← peek) .tooDeep
  | depth + 1 => do
    let token ← peek
    match token.kind with
    | .value =>
      let next ← peekNext
      if next.kind = .comma ∨ next.kind = .closeTable then
        pure (.empty next.line)
      else
        node depth false false
    | _ => pure (.empty token.line)

end

/-! ## Documents -/

/-- The handles that stand for something by themselves. -/
def usualHandles : List (String × String) :=
  [("!", "!"), ("!!", "tag:yaml.org,2002:")]

/-- Reads the directives in front of a document. -/
def directives : Nat → Bool → Assembler Unit
  | 0, _ => do fail (← peek) .tooDeep
  | count + 1, versioned => do
    let token ← peek
    match token.kind with
    | .version major minor =>
      if versioned then
        fail token .secondVersion
      else if major ≠ 1 ∨ minor ≠ 1 then
        fail token .otherVersion
      else
        advance
        directives count true
    | .handle name expansion =>
      if ((← get).handles.lookup name).isSome then
        fail token .secondHandle
      else
        modify fun assembly =>
          { assembly with handles := assembly.handles ++ [(name, expansion)] }
        advance
        directives count versioned
    | _ =>
      modify fun assembly => { assembly with handles := assembly.handles ++ usualHandles }

/-- Whether a token can be in front of a document but not in it. -/
def isOutside : TokenKind → Bool
  | .version _ _ => true
  | .handle _ _ => true
  | .documentStart => true
  | .streamEnd => true
  | _ => false

/-- Reads the first document, if there is any. What follows it does not matter, as
long as there is a token. -/
def document : Assembler (Option Node) := do
  let depth := 2 * (← get).tokens.length + 4
  let token ← peek
  if token.kind = .streamEnd then
    pure none
  else
    directives depth false
    if isOutside token.kind then
      let start ← peek
      if start.kind ≠ .documentStart then
        fail start .noDocumentStart
      else
        let next ← peekNext
        let root ←
          if isOutside next.kind ∨ next.kind = .documentEnd then
            pure (.empty next.line)
          else
            node depth true false
        let _ ← peek
        pure (some root)
    else
      let root ← node depth true false
      let _ ← peek
      pure (some root)

end Assembler

/-- The node that the first document of a text consists of, if there is any. -/
def readNode (bytes : Bytes) : Except Fault (Option Node) := do
  let chars ← readText bytes
  Assembler.document.run' { tokens := tokenize chars }

end Yaml

end Scriptlet
