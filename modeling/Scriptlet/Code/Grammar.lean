import Scriptlet.Code.Reader

/-!
# Grammar of Go

The grammar of expressions, statements and declarations. Every rule that calls another
one for a part does so with one step less, and there are never more parts than symbols.
-/

namespace Scriptlet

namespace Code

namespace GoReader

mutual

/-- Reads an expression with signs that bind strongly enough. -/
def expr (least : Nat) : Nat → GoReader GoExpr
  | 0 => failure
  | steps + 1 => do
    binaryTail least (← unary steps) steps

/-- Reads on behind the left side of a sign, as long as signs bind strongly
enough. -/
def binaryTail (least : Nat) (left : GoExpr) : Nat → GoReader GoExpr
  | 0 => failure
  | steps + 1 => do
    match ← peek with
    | some (.sign spelling) =>
      match strength? spelling with
      | some strength =>
        if least ≤ strength then
          sign spelling
          let place ← lastPlace
          let right ← expr (strength + 1) steps
          binaryTail least (.binary left place spelling right) steps
        else
          pure left
      | none => pure left
    | _ => pure left

/-- Reads an expression with signs only in front. -/
def unary : Nat → GoReader GoExpr
  | 0 => failure
  | steps + 1 => do
    let place ← nextPlace
    match ← peek with
    | some (.sign "*") =>
      sign "*"
      pure (.pointer place (← unary steps))
    | some (.sign "<-") =>
      sign "<-"
      let operand ← unary steps
      if operand.isChannel then
        (receiving place operand : Option _)
      else
        pure (.unary place "<-" operand)
    | some (.sign spelling) =>
      if unarySigns.contains spelling then
        sign spelling
        pure (.unary place spelling (← unary steps))
      else
        primaryTail (← operand steps) steps
    | _ => primaryTail (← operand steps) steps

/-- Reads the part of an expression that all the rest refers to. -/
def operand : Nat → GoReader GoExpr
  | 0 => failure
  | steps + 1 => do
    let place ← nextPlace
    match ← peek with
    | some (.name _) => pure (.name (← label))
    | some (.sign "(") =>
      sign "("
      let (inner, guards) ← guarded (within false (expr 1 steps))
      sign ")"
      pure (.grouped place inner (← lastPlace) guards)
    | some (.keyword "func") =>
      keyword "func"
      let (parameters, results) ← signature steps
      if (← peek) = some (.sign braceOpen) then
        pure (.closure place parameters results (← block (statement steps) steps))
      else
        pure (.function place parameters results)
    | some symbol =>
      match symbol with
      | .number _ | .text _ | .char _ => pure (.literal place (← take some))
      | _ => type steps
    | none => failure

/-- Reads what can stand behind an operand: names, arguments and parts. -/
def primaryTail (operand : GoExpr) : Nat → GoReader GoExpr
  | 0 => failure
  | steps + 1 => do
    match ← peek with
    | some (.sign ".") =>
      sign "."
      if ← optional (.sign "(") then
        let opening ← lastPlace
        let type ←
          if ← optional (.keyword "type") then pure none else do pure (some (← type steps))
        sign ")"
        primaryTail (.asserted operand opening type (← lastPlace)) steps
      else
        primaryTail (.selected operand (← label)) steps
    | some (.sign "[") =>
      sign "["
      primaryTail (← within false (indexTail operand steps)) steps
    | some (.sign "(") =>
      sign "("
      let opening ← lastPlace
      let (list, dots) ← within false (callTail steps)
      primaryTail (.call operand { list, opening, closing := ← lastPlace } dots) steps
    | some (.sign braceOpen) =>
      if startsParts (← get).isHeader operand.ungrouped then
        if operand.isGroup then failure
        sign braceOpen
        let (parts, _) ← guarded (within false (membersUpTo braceClose (part steps) steps))
        modify fun rest => { rest with guards := rest.guards || operand.isTypeName }
        primaryTail (.composite (some operand) parts) steps
      else
        pure operand
    | _ => pure operand

/-- Reads the arguments of a call. Three dots can stand behind the last one. -/
def callTail : Nat → GoReader (List (Member GoExpr) × Option Place)
  | 0 => failure
  | steps + 1 => do
    if ← optional (.sign ")") then
      pure ([], none)
    else
      let first ← member (expr 1 steps)
      if ← optional (.sign "...") then
        let dots ← lastPlace
        let _ ← optional (.sign ",")
        sign ")"
        pure ([first], some dots)
      else if ← optional (.sign ",") then
        let (rest, dots) ← callTail steps
        pure (first :: rest, dots)
      else
        sign ")"
        pure ([first], none)

/-- Reads what stands between the brackets behind an operand. -/
def indexTail (operand : GoExpr) : Nat → GoReader GoExpr
  | 0 => failure
  | steps + 1 => do
    let opening ← lastPlace
    let first ← bound steps
    match ← peek with
    | some (.sign ":") =>
      let others ← many (· = .sign ":") (do sign ":"; bound steps) 3
      sign "]"
      let isWhole := others.all Option.isSome
      if others.length = 1 ∨ (others.length = 2 ∧ isWhole) then
        pure (.sliced operand opening (first.map (·.content) :: others.map (·.map (·.content)))
          (← lastPlace))
      else
        failure
    | _ =>
      let first ← (first : Option _)
      let others ←
        if ← optional (.sign ",") then
          separated "]" (member (type steps)) steps
        else do
          sign "]"
          pure []
      pure (.indexed operand { list := first :: others, opening, closing := ← lastPlace })

/-- Reads an expression unless a colon or a closing bracket comes first. -/
def bound : Nat → GoReader (Option (Member GoExpr))
  | 0 => failure
  | steps + 1 => do
    let next ← peek
    if next = some (.sign ":") ∨ next = some (.sign "]") then
      pure none
    else
      pure (some (← member (expr 1 steps)))

/-- Reads a part of a value, which may have a key. -/
def part : Nat → GoReader GoExpr
  | 0 => failure
  | steps + 1 => do
    let first ← partContent steps
    if ← optional (.sign ":") then
      let colon ← lastPlace
      pure (.pair first colon (← partContent steps))
    else
      pure first

/-- Reads a part of a value or its key. Its type can be left out. -/
def partContent : Nat → GoReader GoExpr
  | 0 => failure
  | steps + 1 => do
    if ← optional (.sign braceOpen) then
      pure (.composite none (← membersUpTo braceClose (part steps) steps))
    else
      expr 1 steps

def type : Nat → GoReader GoExpr
  | 0 => failure
  | steps + 1 => do
    let place ← nextPlace
    match ← peek with
    | some (.name _) => namedType (← label) steps
    | some (.sign "[") =>
      sign "["
      arrayTail place steps
    | some (.sign "*") =>
      sign "*"
      pure (.pointer place (← type steps))
    | some (.sign "(") =>
      sign "("
      let inner ← type steps
      sign ")"
      pure (.grouped place inner (← lastPlace) false)
    | some (.sign "<-") =>
      sign "<-"
      keyword "chan"
      pure (.channel place .receive (← type steps))
    | some (.keyword "chan") =>
      keyword "chan"
      let direction ←
        if ← optional (.sign "<-") then do pure (Direction.send (← lastPlace)) else pure .both
      pure (.channel place direction (← type steps))
    | some (.keyword "map") =>
      keyword "map"
      sign "["
      let key ← type steps
      sign "]"
      pure (.map place key (← type steps))
    | some (.keyword "func") =>
      keyword "func"
      let (parameters, results) ← signature steps
      pure (.function place parameters results)
    | some (.keyword "struct") =>
      keyword "struct"
      pure (.record place (← braced (many startsField (field steps) steps)))
    | some (.keyword "interface") =>
      keyword "interface"
      pure (.interface place (← braced (many startsElement (element steps) steps)))
    | _ => failure

/-- Reads on behind the first part of the name of a type. -/
def namedType (first : Label) : Nat → GoReader GoExpr
  | 0 => failure
  | steps + 1 => do
    let named : GoExpr ←
      if ← optional (.sign ".") then do
        pure (.selected (.name first) (← label))
      else
        pure (.name first)
    if ← optional (.sign "[") then
      let arguments ← within false (membersUpTo "]" (type steps) steps)
      if arguments.list.isEmpty then failure
      pure (.indexed named arguments)
    else
      pure named

/-- Reads an array or a slice behind its first bracket. -/
def arrayTail (place : Place) : Nat → GoReader GoExpr
  | 0 => failure
  | steps + 1 => do
    let length ←
      match ← peek with
      | some (.sign "]") => pure none
      | some (.sign "...") => do
        sign "..."
        pure (some (.dots (← lastPlace) none))
      | _ => do
        pure (some (← within false (expr 1 steps)))
    sign "]"
    pure (.array place length (← type steps))

/-- Reads what stands behind a name and a bracket: the rest of an array, which the
name belongs to, or arguments of a type with that name. -/
def arrayOrArguments (name : Label) : Nat → GoReader (Option Label × GoExpr)
  | 0 => failure
  | steps + 1 => do
    let opening ← lastPlace
    if ← optional (.sign "]") then
      pure (some name, .array opening none (← type steps))
    else
      let first ← within false (member (expr 1 steps))
      let isSingle := (← peek) = some (.sign "]")
      let others ←
        if ← optional (.sign ",") then
          within false (separated "]" (member (expr 1 steps)) steps)
        else do
          sign "]"
          pure []
      let closing ← lastPlace
      if others.isEmpty ∧ (← peek).any startsType then
        if isSingle then
          pure (some name, .array opening (some first.content) (← type steps))
        else
          failure
      else
        pure (none, .indexed (.name name) { list := first :: others, opening, closing })

/-- Reads the parameters and the results of a function. -/
def signature : Nat → GoReader (Members GoExpr × Members GoExpr)
  | 0 => failure
  | steps + 1 => do
    let taken ← parameters true (parameter steps) steps
    if (← peek) = some (.sign "(") then
      pure (taken, ← parameters false (parameter steps) steps)
    else if (← peek).any startsType then
      let result ← member (type steps)
      pure (taken, { list := [{ result with content := result.content.ungrouped }] })
    else
      pure (taken, {})

/-- Reads a parameter. -/
def parameter : Nat → GoReader Entry
  | 0 => failure
  | steps + 1 => do
    let first ← nextPlace
    let entry : Entry ←
      match ← peek with
      | some (.name _) => do
        let name ← label
        match ← peek with
        | some (.sign ".") => pure { type := some (← namedType name steps) }
        | some (.sign "[") => do
          sign "["
          let (name, type) ← arrayOrArguments name steps
          pure { name, type := some type }
        | some (.sign "...") => do
          sign "..."
          let dots ← lastPlace
          pure { name := some name, type := some (.dots dots (some (← type steps))) }
        | some symbol =>
          if startsType symbol then
            pure { name := some name, type := some (← type steps) }
          else
            pure { name := some name }
        | none => failure
      | some (.sign "...") => do
        sign "..."
        pure { type := some (.dots first (some (← type steps))) }
      | _ => pure { type := some (← type steps) }
    pure { entry with first, lastLine := ← lastLine }

/-- Reads the names of fields and their type. A type alone is a field without a name. -/
def namedFields : Nat → GoReader (List Label × GoExpr)
  | 0 => failure
  | steps + 1 => do
    let first ← nextPlace
    if ← optional (.sign "*") then
      pure ([], .pointer first (← namedType (← label) steps))
    else
      let name ← label
      match ← peek with
      | some (.sign ".") => pure ([], ← namedType name steps)
      | some (.text _) | some (.sign ";") | some .lineEnd | some (.sign braceClose) =>
        pure ([], .name name)
      | some (.sign "[") =>
        sign "["
        let (name, type) ← arrayOrArguments name steps
        pure (name.toList, type)
      | _ =>
        let names ← moreNames steps
        pure (name :: names, ← type steps)

/-- Reads a field of a structure. -/
def field : Nat → GoReader (Member GoExpr)
  | 0 => failure
  | steps + 1 => do
    let first ← nextPlace
    let (names, content) ← namedFields steps
    let tag ← tag?
    let lastLine ← lastLine
    let isCommented ← finish
    pure { names, content, tag, isCommented, first, lastLine }

/-- Reads an element of an interface: a method, or types. -/
def element : Nat → GoReader (Member GoExpr)
  | 0 => failure
  | steps + 1 => do
    let first ← nextPlace
    let (names, content) ←
      match ← peekTwo with
      | [.name _, .sign "("] => do
        let name ← label
        let opening ← nextPlace
        let (parameters, results) ← signature steps
        pure ([name], .function opening parameters results)
      | [.name _, .sign "["] => do
        let name ← label
        sign "["
        let opening ← lastPlace
        let argument ← within false (member (expr 1 steps))
        let others ←
          if ← optional (.sign ",") then
            within false (separated "]" (member (type steps)) steps)
          else do
            sign "]"
            pure []
        let closing ← lastPlace
        let instantiated : GoExpr :=
          .indexed (.name name) { list := argument :: others, opening, closing }
        pure ([], ← unionTail instantiated steps)
      | _ => do
        pure ([], ← unionTail (← term steps) steps)
    let lastLine ← lastLine
    let isCommented ← finish
    pure { names, content, isCommented, first, lastLine }

/-- Reads further types with bars between them. -/
def unionTail (left : GoExpr) : Nat → GoReader GoExpr
  | 0 => failure
  | steps + 1 => do
    if ← optional (.sign "|") then
      let place ← lastPlace
      let right ← term steps
      unionTail (.binary left place "|" right) steps
    else
      pure left

/-- Reads a type with a tilde or without one. -/
def term : Nat → GoReader GoExpr
  | 0 => failure
  | steps + 1 => do
    let place ← nextPlace
    if ← optional (.sign "~") then
      pure (.unary place "~" (← type steps))
    else
      type steps

/-- Reads the type of a parameter of a declared type, if it has one. -/
def constraint (name : Label) : Nat → GoReader Entry
  | 0 => failure
  | steps + 1 => do
    let entry : Entry ←
      match ← peek with
      | some (.sign "[") => do
        sign "["
        let (name, type) ← arrayOrArguments name steps
        pure { name, type := some (← unionTail type steps) }
      | some symbol =>
        if startsElement symbol then
          pure { name := some name, type := some (← unionTail (← term steps) steps) }
        else
          pure { name := some name }
      | none => failure
    pure { entry with first := name.place, lastLine := ← lastLine }

/-- Reads parameters of a declared type up to the closing bracket. Some entries have been
read. -/
def typeParameters (opening : Place) (entries : List Entry) : Nat → GoReader (Members GoExpr)
  | 0 => failure
  | steps + 1 => do
    let parameters ←
      parametersUpTo "]" false opening entries (do constraint (← label) steps) steps
    if parameters.list.isEmpty ∨ parameters.list.any (·.names.isEmpty) then failure
    pure parameters

/-- Reads further parameters of a declared type behind the first one. -/
def moreParameters (opening : Place) (first : Entry) : Nat → GoReader (Members GoExpr)
  | 0 => failure
  | steps + 1 => do
    let hasMore ← optional (.sign ",")
    if !hasMore ∧ (← peek) ≠ some (.sign "]") then failure
    typeParameters opening [first] steps

/-- Reads parameters of a declared type behind their bracket, unless it is the bracket
of an array, whose type is read then. A name alone is the length of an array. -/
def parametersOrArray : Nat → GoReader (Members GoExpr ⊕ GoExpr)
  | 0 => failure
  | steps + 1 => do
    let opening ← lastPlace
    match ← peek with
    | some (.name _) =>
      let name ← label
      let expr : GoExpr ←
        if (← peek) = some (.sign "[") then
          pure (.name name)
        else
          within false do
            binaryTail 1 (← primaryTail (.name name) steps) steps
      let next ← peek
      match expr.splitName (next = some (.sign ",")) with
      | some (name, some type) =>
        let type ← unionTail type steps
        let entry : Entry :=
          { name := some name, type := some type, first := name.place, lastLine := ← lastLine }
        pure (.inl (← moreParameters opening entry steps))
      | some (name, none) =>
        if next = some (.sign "]") then
          sign "]"
          pure (.inr (.array opening (some expr) (← type steps)))
        else
          pure (.inl (← moreParameters opening (← constraint name steps) steps))
      | none =>
        sign "]"
        pure (.inr (.array opening (some expr) (← type steps)))
    | _ => pure (.inr (← arrayTail opening steps))

/-- Reads what a name is declared to be: the parameters of a type, whether it is another
name for the type, and the type. -/
def declaredType : Nat → GoReader (Members GoExpr × Bool × GoExpr)
  | 0 => failure
  | steps + 1 => do
    let start : Members GoExpr ⊕ GoExpr ←
      if ← optional (.sign "[") then parametersOrArray steps else pure (.inl {})
    match start with
    | .inr type => pure ({}, false, type)
    | .inl parameters =>
      let isAlias ← optional (.sign "=")
      pure (parameters, isAlias, ← type steps)

/-- Reads what is declared behind a keyword. -/
def spec (keyword : String) : Nat → GoReader GoSpec
  | 0 => failure
  | steps + 1 => do
    if keyword = "import" then
      let name ←
        match ← peek with
        | some (.name _) => some <$> label
        | some (.sign ".") => do
          sign "."
          pure (some ⟨← lastPlace, "."⟩)
        | _ => pure none
      let some path ← tag? | failure
      let _ ← finish
      pure (.package name path)
    else if keyword = "type" then
      let name ← label
      let (parameters, isAlias, type) ← declaredType steps
      let _ ← finish
      pure (.type name parameters isAlias type)
    else
      let names := (← label) :: (← moreNames steps)
      let next ← peek
      let hasType := if keyword = "var" then next ≠ some (.sign "=") else next.any startsType
      let type ← if hasType then some <$> type steps else pure none
      let values ← if ← optional (.sign "=") then list (expr 1 steps) steps else pure []
      pure (.value names type values (← finish))

/-- Reads declarations behind their keyword. -/
def declarations (keyword : String) : Nat → GoReader GoDecl
  | 0 => failure
  | steps + 1 => do
    exactly (.keyword keyword)
    let place ← lastPlace
    if ← optional (.sign "(") then
      let opening ← lastPlace
      let specs ← many (· ≠ .sign ")") (spec keyword steps) steps
      sign ")"
      let closing ← lastPlace
      let _ ← finish
      pure (.group keyword place (some (opening, closing)) specs)
    else
      pure (.group keyword place none [← spec keyword steps])

/-- Reads a short statement. A label may be allowed in front of it, and so may be the
elements of something behind it. -/
def short (labels ranges : Bool) : Nat → GoReader Short
  | 0 => failure
  | steps + 1 => do
    let left ← list (expr 1 steps) steps
    let next := (← peek).getD .lineEnd
    let stores := assignmentSigns.contains next.spelling
    if stores then
      exactly next
      let place ← lastPlace
      let canRange := ranges && (next = .sign ":=" || next = .sign "=")
      if canRange && (← peek) = some (.keyword "range") then
        keyword "range"
        pure (.range left (some (place, next.spelling)) (← lastPlace) (← expr 1 steps))
      else
        pure (.stmt (.assign left place next.spelling (← list (expr 1 steps) steps)))
    else
      match left, next with
      | [only], .sign ":" =>
        match labels, only.content with
        | true, .name label => do
          sign ":"
          let colon ← lastPlace
          pure (.stmt (.labeled label colon (← statement steps)))
        | _, _ => failure
      | [only], .sign "<-" => do
        sign "<-"
        let arrow ← lastPlace
        pure (.stmt (.send only.content arrow (← expr 1 steps)))
      | [only], .sign "++" => do
        sign "++"
        pure (.stmt (.count only.content (← lastPlace) "++"))
      | [only], .sign "--" => do
        sign "--"
        pure (.stmt (.count only.content (← lastPlace) "--"))
      | [only], _ => pure (.stmt (.expr only.content))
      | _, _ => failure

/-- Reads a short statement in front of a block, without labels and elements. -/
def headStmt : Nat → GoReader GoStmt
  | 0 => failure
  | steps + 1 => do
    let head ← short false false steps
    (head.stmt? : Option _)

/-- Reads a statement. -/
def statement : Nat → GoReader GoStmt
  | 0 => failure
  | steps + 1 => do
    let place ← nextPlace
    match ← peek with
    | some (.keyword "const") => .declaration <$> declarations "const" steps
    | some (.keyword "type") => .declaration <$> declarations "type" steps
    | some (.keyword "var") => .declaration <$> declarations "var" steps
    | some (.keyword "if") => conditional steps
    | some (.keyword "switch") => switch steps
    | some (.keyword "for") => loop steps
    | some (.keyword "select") => do
      keyword "select"
      let body ← cases (ready steps) steps
      let _ ← finish
      pure (.select place body)
    | some (.keyword "return") => do
      keyword "return"
      let isDone := (← peek).any fun symbol => isSemicolon symbol || symbol = .sign braceClose
      let values ← if isDone then pure [] else list (expr 1 steps) steps
      let _ ← finish
      pure (.result place values)
    | some (.keyword word) =>
      if word = "go" ∨ word = "defer" then
        keyword word
        let call ← expr 1 steps
        if !call.isCall then failure
        let _ ← finish
        pure (.deferred place word call)
      else if ["break", "continue", "goto", "fallthrough"].contains word then
        keyword word
        let isNamed :=
          word = "goto" || (word ≠ "fallthrough" && ((← peek).any (· matches .name _)))
        let target ← if isNamed then some <$> label else pure none
        let _ ← finish
        pure (.jump place word target)
      else
        simpleStmt steps
    | some (.sign braceOpen) => do
      let body ← block (statement steps) steps
      let _ ← finish
      pure (.block body)
    | some (.sign braceClose) => pure (.empty place)
    | some symbol =>
      if isSemicolon symbol then
        semicolon
        pure (.empty place)
      else
        simpleStmt steps
    | none => failure

/-- Reads a statement that starts with an expression. -/
def simpleStmt : Nat → GoReader GoStmt
  | 0 => failure
  | steps + 1 => do
    if !(← peek).any startsSimple then failure
    let short ← short true false steps
    let stmt ← (short.stmt? : Option _)
    if !stmt.isLabeled then
      let _ ← finish
    pure stmt

/-- Reads a conditional statement. -/
def conditional : Nat → GoReader GoStmt
  | 0 => failure
  | steps + 1 => do
    keyword "if"
    let place ← lastPlace
    let (first, condition) ← within true do
      let first ←
        if (← peek).any isSemicolon then pure none else some <$> headStmt steps
      if (← peek) = some (.sign braceOpen) then
        pure (none, first)
      else
        semicolon
        pure (first, some (← headStmt steps))
    let condition ← (condition.bind exprOf? : Option _)
    let body ← block (statement steps) steps
    let otherwise ←
      if ← optional (.keyword "else") then
        if (← peek) = some (.keyword "if") then
          some <$> conditional steps
        else do
          let body ← block (statement steps) steps
          let _ ← finish
          pure (some (.block body))
      else do
        let _ ← finish
        pure none
    pure (.conditional place first condition.bare body otherwise)

/-- Reads a switch on a value or on its type. -/
def switch : Nat → GoReader GoStmt
  | 0 => failure
  | steps + 1 => do
    keyword "switch"
    let place ← lastPlace
    let isBlock : GoReader Bool := do
      pure ((← peek) = some (.sign braceOpen))
    let (first, value) ← within true do
      if ← isBlock then
        pure (none, none)
      else
        let value ← if (← peek).any isSemicolon then pure none else some <$> headStmt steps
        if (← peek).any isSemicolon then
          semicolon
          pure (value, ← if ← isBlock then pure none else some <$> headStmt steps)
        else
          pure (none, value)
    let isType ← ((value.map isTypeGuard).getD (some false) : Option _)
    let body ← cases (clause steps) steps
    let _ ← finish
    match value with
    | none => pure (.switch place first none body)
    | some guard =>
      if isType then
        pure (.typeSwitch place first guard body)
      else
        let value ← (exprOf? guard : Option _)
        pure (.switch place first (some value.bare) body)

/-- Reads a case of a switch. -/
def clause : Nat → GoReader GoStmt
  | 0 => failure
  | steps + 1 => do
    let place ← nextPlace
    let values ←
      if ← optional (.keyword "case") then
        list (expr 1 steps) steps
      else do
        keyword "default"
        pure []
    sign ":"
    let colon ← lastPlace
    pure (.clause place values colon (← many (!endsStatements ·) (statement steps) steps))

/-- Reads a case of a switch on channels. -/
def ready : Nat → GoReader GoStmt
  | 0 => failure
  | steps + 1 => do
    let place ← nextPlace
    let stmt : Option GoStmt ←
      if ← optional (.keyword "case") then do
        let left ← list (expr 1 steps) steps
        match ← peek with
        | some (.sign spelling) =>
          if spelling = "<-" then
            let channel ← (single? left : Option _)
            sign "<-"
            let arrow ← lastPlace
            pure (some (.send channel arrow (← expr 1 steps)))
          else if spelling = "=" ∨ spelling = ":=" then
            if 2 < left.length then failure
            sign spelling
            let sign ← lastPlace
            pure (some (.assign left sign spelling [← member (expr 1 steps)]))
          else
            let value ← (single? left : Option _)
            pure (some (.expr value))
        | _ => failure
      else do
        keyword "default"
        pure none
    sign ":"
    let colon ← lastPlace
    pure (.ready place stmt colon (← many (!endsStatements ·) (statement steps) steps))

/-- Reads a loop. -/
def loop : Nat → GoReader GoStmt
  | 0 => failure
  | steps + 1 => do
    keyword "for"
    let place ← lastPlace
    let isBlock : GoReader Bool := do
      pure ((← peek) = some (.sign braceOpen))
    let (first, middle, last) ← within true do
      if ← isBlock then
        pure (none, none, none)
      else
        let head ←
          if (← peek).any isSemicolon then
            pure none
          else if ← optional (.keyword "range") then do
            pure (some (.range [] none (← lastPlace) (← expr 1 steps)))
          else
            some <$> short false true steps
        if head.any Short.isRange then
          pure (none, head, none)
        else if (← peek).any isSemicolon then
          semicolon
          let middle ←
            if (← peek).any isSemicolon then pure none else some <$> headStmt steps
          let _ ← finish
          let last ← if ← isBlock then pure none else some <$> headStmt steps
          pure (head.bind (·.stmt?), middle.map Short.stmt, last)
        else
          pure (none, head, none)
    let body ← block (statement steps) steps
    let _ ← finish
    match middle with
    | none => pure (.loop place first none last body)
    | some (.stmt middle) =>
      let condition ← (exprOf? middle : Option _)
      pure (.loop place first (some condition.bare) last body)
    | some (.range left stored range list) =>
      let list := list.bare
      match left.map (·.content) with
      | [] => pure (.rangeLoop place none none stored range list body)
      | [key] => pure (.rangeLoop place (some key) none stored range list body)
      | [key, value] => pure (.rangeLoop place (some key) (some value) stored range list body)
      | _ => failure

end

/-- Reads the declaration of a function or a method. -/
def functionDeclaration (steps : Nat) : GoReader GoDecl := do
  keyword "func"
  let place ← lastPlace
  let isMethod := (← peek) = some (.sign "(")
  let receiver ← if isMethod then parameters true (parameter steps) steps else pure {}
  let name ← label
  let typeParameters ←
    if ← optional (.sign "[") then typeParameters (← lastPlace) [] steps else pure {}
  if isMethod ∧ !typeParameters.list.isEmpty then failure
  let (taken, given) ← signature steps
  if (← peek) = some (.sign braceOpen) then
    let body ← block (statement steps) steps
    let lastLine ← lastLine
    let _ ← finish
    pure (.function place isMethod receiver name typeParameters taken given (some body) lastLine)
  else
    let lastLine ← lastLine
    let _ ← finish
    pure (.function place isMethod receiver name typeParameters taken given none lastLine)

/-- Reads a declaration. -/
def declaration (steps : Nat) : GoReader GoDecl := do
  match ← peek with
  | some (.keyword word) =>
    if word = "func" then functionDeclaration steps
    else if ["const", "type", "var"].contains word then declarations word steps
    else failure
  | _ => failure

/-- Reads declarations up to the end. -/
def allDeclarations (steps : Nat) : GoReader (List GoDecl) :=
  many (fun _ => true) (declaration steps) steps

/-- Reads the name of a package, and what is imported and declared behind it. -/
def packageFile (steps : Nat) : GoReader (Place × Label × List GoDecl) := do
  keyword "package"
  let place ← lastPlace
  let name ← label
  let _ ← finish
  let imports ← many (· = .keyword "import") (declarations "import" steps) steps
  pure (place, name, imports ++ (← allDeclarations steps))

/-- Reads all symbols of some code. -/
def readAll {α : Type} (reader : Nat → GoReader α) (lexemes : List Lexeme) : Option α := do
  let (value, rest) ← (reader (16 * lexemes.length + 16)).run { lexemes }
  if rest.lexemes.isEmpty then some value else none

end GoReader

end Code

end Scriptlet
