import Scriptlet.Code.Grammar
import Scriptlet.Code.PackagePath
import Scriptlet.Code.Part

/-!
# Layout of Go code

Code in the one form that Go code is written in. Blanks are where they should be,
fields, methods and statements stand on lines of their own, and what belongs
together stands in columns.
-/

namespace Scriptlet

namespace Code

namespace GoExpr

/-! ## Blanks around signs -/

/-- How strongly the sign of an expression binds, if it has one between two parts. -/
def strength? : GoExpr → Option Nat
  | .binary _ _ sign _ => GoReader.strength? sign
  | _ => none

/-- Whether a sign stands between two parts of an expression. -/
def isBinary : GoExpr → Bool
  | .binary _ _ _ _ => true
  | _ => false

/-- Whether a strength occurs among the signs of an expression, outside brackets. -/
def hasStrength (strength : Nat) : GoExpr → Bool
  | .binary left _ sign right =>
    GoReader.strength? sign == some strength || left.hasStrength strength ||
      right.hasStrength strength
  | _ => false

/-- The strength up to which a sign must stand between blanks, so that it does not run
into the sign behind it. -/
def clashWith (sign : String) : GoExpr → Nat
  | .pointer _ _ => if sign = "/" then 5 else 0
  | .unary _ inner _ =>
    if ["&&", "&^"].contains (sign ++ inner) then 5
    else if ["++", "--"].contains (sign ++ inner) then 4
    else 0
  | _ => 0

/-- The strength up to which the signs of an expression must stand between blanks. -/
def clash : GoExpr → Nat
  | .binary left _ sign right => max (right.clashWith sign) (max left.clash right.clash)
  | _ => 0

/-- The strength from which on signs stand without blanks. Blanks show which signs
bind less, and deep inside only signs that bind little have them. -/
def cutoff (depth : Nat) (expr : GoExpr) : Nat :=
  if 0 < expr.clash then
    expr.clash + 1
  else if expr.hasStrength 4 && expr.hasStrength 5 then
    if depth = 1 then 5 else 4
  else
    if depth = 1 then 6 else 4

end GoExpr

/-- Whether the only parameter of a declared type would be read as the length of an
array. -/
def needsComma (parameters : Members GoExpr) : Bool :=
  match parameters.list with
  | [{ names := [_], content, .. }] => content.combinesWithName
  | _ => false

namespace Layout

open Setting

mutual

/-- Writes an expression at some depth. Tells whether there is indentation that is not
ended, which a name on a new line starts. -/
def exprOpen : GoExpr → Nat → Setting Bool
  | .selected operand label, depth => do
    closed (exprOpen operand depth)
    selection label
  | .name label, _ => complete do
    put (.name label.spelling) label.place
  | .literal place symbol, _ => complete do
    put symbol place
  | .group place inner closing _, depth => complete do
    put (.sign "(") place
    closed (exprOpen inner (max (depth - 1) 1))
    put (.sign ")") closing
  | .call callee arguments spread, depth => complete do
    let list := memberParts arguments
    let depth := if 1 < list.list.length then depth + 1 else depth
    let indented ← exprOpen callee depth
    put (.sign "(") list.opening
    match spread with
    | some place =>
      members depth false { list with closing := place }
      put (.sign "...") place
      if place.line < list.closing.line then
        follow (.sign ",")
        gap .lastLine
    | none => members depth true list
    put (.sign ")") list.closing
    if indented then gap .outdent
  | .indexed operand arguments, depth => complete do
    let list := memberParts arguments
    closed (exprOpen operand 1)
    put (.sign "[") list.opening
    match list.list with
    | [only] => only.content.set (depth + 1)
    | _ => members (depth + 1) true list
    put (.sign "]") list.closing
  | .sliced operand opening limits closing, depth => complete do
    closed (exprOpen operand 1)
    put (.sign "[") opening
    let given := limits.filterMap id
    let spaced := depth ≤ 1 && 1 < given.length && given.any GoExpr.isBinary
    bounds (depth + 1) spaced (limitParts limits)
    put (.sign "]") closing
  | .asserted operand opening type closing, depth => complete do
    closed (exprOpen operand depth)
    follow (.sign ".")
    put (.sign "(") opening
    match type with
    | some type => closed (exprOpen type 1)
    | none => follow (.keyword "type")
    put (.sign ")") closing
  | .composite type list, depth => complete do
    match type with
    | some type => closed (exprOpen type depth)
    | none => pure ()
    let list := memberParts list
    inside do
      put (.sign braceOpen) list.opening
      members 1 true list
      gap .indent
      gap .outdent
      closeBrace (!list.list.isEmpty) list.closing
  | .pair key colon value, _ => complete do
    closed (exprOpen key 1)
    put (.sign ":") colon
    gap .blank
    closed (exprOpen value 1)
  | .unary place sign operand, depth => complete do
    put (.sign sign) place
    closed (exprOpen operand depth)
  | .binary left place sign right, depth => complete do
    let strength := (GoReader.strength? sign).getD 0
    let spaced := strength < (GoExpr.binary left place sign right).cutoff depth
    closed (exprOpen left (if left.strength? = some strength then depth else depth + 1))
    if spaced then gap .blank
    let leftLine ← line
    put (.sign sign) place
    let count ←
      if leftLine = right.start.line then pure 0 else breakTo right.start.line 1 true true
    if spaced && count = 0 then gap .blank
    closed (exprOpen right (depth + 1))
    if count ≠ 0 then gap .outdent
  | .pointer place target, _ => complete do
    put (.sign "*") place
    closed (exprOpen target 1)
  | .array place length element, _ => complete do
    put (.sign "[") place
    match length with
    | some length => closed (exprOpen length 1)
    | none => pure ()
    follow (.sign "]")
    closed (exprOpen element 1)
  | .map place key value, _ => complete do
    put (.keyword "map") place
    follow (.sign "[")
    closed (exprOpen key 1)
    follow (.sign "]")
    closed (exprOpen value 1)
  | .channel place direction element, _ => complete do
    match direction with
    | .both => put (.keyword "chan") place
    | .receive =>
      put (.sign "<-") place
      follow (.keyword "chan")
    | .send arrow =>
      put (.keyword "chan") place
      put (.sign "<-") arrow
    gap .blank
    closed (exprOpen element 1)
  | .function place taken given, _ => complete do
    functionType place (memberParts taken) (memberParts given)
  | .closure place taken given body, _ => complete do
    closure place (memberParts taken) (memberParts given) (bodyParts body)
  | .record place fields, _ => complete do
    put (.keyword "struct") place
    let list := memberParts fields
    braced shortField (longField (list.list.length = 1)) list
  | .interface place elements, _ => complete do
    put (.keyword "interface") place
    braced element element (elementParts elements)
  | .dots place element, _ => complete do
    put (.sign "...") place
    match element with
    | some element => closed (exprOpen element 1)
    | none => pure ()

/-- Members with parts that can be written. -/
def memberParts : Members GoExpr → Members Part
  | { list, opening, closing } => { list := listParts list, opening, closing }

def listParts : List (Member GoExpr) → List (Member Part)
  | [] => []
  | { names, content := .pair key colon value, tag, isCommented, first, lastLine } :: rest =>
    let content := .ofPair (closed (exprOpen key 1)) colon (closed (exprOpen value 1))
    { names, content, tag, isCommented, first, lastLine } :: listParts rest
  | { names, content, tag, isCommented, first, lastLine } :: rest =>
    let content := .ofSetting fun depth => closed (exprOpen content depth)
    { names, content, tag, isCommented, first, lastLine } :: listParts rest

/-- Elements of an interface with parts that can be written. Methods are written without
their keyword, but it counts for their size. -/
def elementParts : Members GoExpr → Members Part
  | { list, opening, closing } => { list := elementListParts list, opening, closing }

def elementListParts : List (Member GoExpr) → List (Member Part)
  | [] => []
  | { names, content := .function place taken given, tag, isCommented, first, lastLine } :: rest =>
    let content := methodPart (!names.isEmpty) place (memberParts taken) (memberParts given)
    { names, content, tag, isCommented, first, lastLine } :: elementListParts rest
  | { names, content, tag, isCommented, first, lastLine } :: rest =>
    let content := .ofSetting fun depth => closed (exprOpen content depth)
    { names, content, tag, isCommented, first, lastLine } :: elementListParts rest

def limitParts : List (Option GoExpr) → List (Option Part)
  | [] => []
  | none :: rest => none :: limitParts rest
  | some limit :: rest =>
    some (.ofSetting fun depth => closed (exprOpen limit depth)) :: limitParts rest

/-- Writes a statement, also in front of a closing brace. -/
def statement : GoStmt → Bool → Setting Unit
  | .empty _, _ => pure ()
  | .labeled label colon target, braceFollows => do
    gap .outdent
    put (.name label.spelling) label.place
    put (.sign ":") colon
    gap .indent
    if !target.isEmpty then
      let _ ← breakTo target.start.line 1 false true
      statement target braceFollows
    else if !braceFollows then
      gap .line
      put (.sign ";") target.start
  | .expr expr, _ => closed (exprOpen expr 1)
  | .send channel arrow value, _ => do
    closed (exprOpen channel 1)
    gap .blank
    put (.sign "<-") arrow
    gap .blank
    closed (exprOpen value 1)
  | .count operand place sign, _ => do
    closed (exprOpen operand 2)
    put (.sign sign) place
  | .assign left place sign right, _ => do
    let left := listParts left
    let right := listParts right
    let depth := if 1 < left.length && 1 < right.length then 2 else 1
    list { depth, opening := left.head?.map (·.first), closing := some place } left
    gap .blank
    put (.sign sign) place
    gap .blank
    list { depth, opening := some place } right
  | .deferred place keyword call, _ => do
    put (.keyword keyword) place
    gap .blank
    closed (exprOpen call 1)
  | .result place values, _ => do
    put (.keyword "return") place
    result (listParts values)
  | .jump place keyword label, _ => do
    put (.keyword keyword) place
    if let some label := label then
      gap .blank
      put (.name label.spelling) label.place
  | .block body, _ => block true (bodyParts body)
  | .conditional place first condition body otherwise, braceFollows => do
    put (.keyword "if") place
    header false (statementPart? first) (some (closed (exprOpen condition 1))) none
    block true (bodyParts body)
    match otherwise with
    | some otherwise =>
      gap .blank
      follow (.keyword "else")
      gap .blank
      statement otherwise braceFollows
    | none => pure ()
  | .switch place first value body, _ => do
    put (.keyword "switch") place
    header false (statementPart? first) (exprPart? value) none
    block false (bodyParts body)
  | .typeSwitch place first value body, _ => do
    put (.keyword "switch") place
    if let some first := statementPart? first then
      gap .blank
      first.set false
      follow (.sign ";")
    gap .blank
    statement value false
    gap .blank
    block false (bodyParts body)
  | .select place body, _ => do
    put (.keyword "select") place
    gap .blank
    if body.list.isEmpty && !(← hasComments body.closing) then
      put (.sign braceOpen) body.opening
      put (.sign braceClose) body.closing
    else
      block false (bodyParts body)
  | .clause place values colon body, braceFollows => do
    match listParts values with
    | [] => put (.keyword "default") place
    | values =>
      put (.keyword "case") place
      gap .blank
      list { opening := some place, closing := some colon } values
    put (.sign ":") colon
    statements true braceFollows (statementParts body)
  | .ready place stmt colon body, braceFollows => do
    match stmt with
    | some stmt =>
      put (.keyword "case") place
      gap .blank
      statement stmt false
    | none => put (.keyword "default") place
    put (.sign ":") colon
    statements true braceFollows (statementParts body)
  | .loop place first condition step body, _ => do
    put (.keyword "for") place
    header true (statementPart? first) (exprPart? condition) (statementPart? step)
    block true (bodyParts body)
  | .rangeLoop place key value stored range list body, _ => do
    put (.keyword "for") place
    gap .blank
    match key with
    | some key => do
      closed (exprOpen key 1)
      match value with
      | some value =>
        put (.sign ",") value.start
        gap .blank
        closed (exprOpen value 1)
      | none => pure ()
      if let some (place, sign) := stored then
        gap .blank
        put (.sign sign) place
        gap .blank
    | none => pure ()
    put (.keyword "range") range
    gap .blank
    closed (exprOpen list 1)
    gap .blank
    block true (bodyParts body)
  | .declaration inner, _ => declaration inner

def exprPart? : Option GoExpr → Option (Setting Unit)
  | none => none
  | some expr => some (closed (exprOpen expr 1))

def statementPart? : Option GoStmt → Option StmtPart
  | none => none
  | some stmt => some (.ofSetting stmt (statement stmt))

def statementParts : List GoStmt → List StmtPart
  | [] => []
  | stmt :: rest => .ofSetting stmt (statement stmt) :: statementParts rest

/-- A block with parts that can be written. -/
def bodyParts : Braced GoStmt → Braced StmtPart
  | { list, opening, closing } => { list := statementParts list, opening, closing }

def bodyParts? : Option (Braced GoStmt) → Option (Braced StmtPart)
  | none => none
  | some body => some (bodyParts body)

/-- Writes what is declared behind a keyword. -/
def spec : GoSpec → SpecForm → Setting Unit
  | .package name path, _ => do
    if let some name := name then
      put (.name name.spelling) name.place
      gap .blank
    put (.text (PackagePath.standard path.spelling)) path.place
  | .type name parameters isAlias type, form => do
    put (.name name.spelling) name.place
    let hasComma := needsComma parameters
    let parameters := memberParts parameters
    if !parameters.list.isEmpty then
      Setting.parameters "[" "]" hasComma parameters
    gap (if form matches .column _ then .cell else .blank)
    if isAlias then
      follow (.sign "=")
      gap .blank
    closed (exprOpen type 1)
  | .value names type given isCommented, form => do
    values form names (exprPart? type) (listParts given) isCommented

def specParts : List GoSpec → List SpecPart
  | [] => []
  | first :: rest =>
    .ofSetting first (spec first) :: specParts rest

/-- Writes a declaration. -/
def declaration : GoDecl → Setting Unit
  | .group keyword place parens list => do
    put (.keyword keyword) place
    gap .blank
    match parens, specParts list with
    | none, [only] => only.set .alone
    | none, _ => pure ()
    | some (opening, closing), list =>
      specs (keyword = "const" || keyword = "var") opening closing list
  | .function place isMethod receiver name typeParameters taken given body _ => do
    put (.keyword "func") place
    let column := (← get).column
    gap .blank
    if isMethod then
      parameters "(" ")" false (memberParts receiver)
      gap .blank
    put (.name name.spelling) name.place
    let typeParameters := memberParts typeParameters
    if !typeParameters.list.isEmpty then parameters "[" "]" false typeParameters
    signature (memberParts taken) (memberParts given)
    match bodyParts? body with
    | some body => functionBody (← sizeFrom place column "func ".length) .cell body
    | none => pure ()

end

end Layout

end Code

end Scriptlet
