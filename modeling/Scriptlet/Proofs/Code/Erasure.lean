import Scriptlet.Code.Grammar

/-!
# Trees without places

Two texts with the same symbols are the same code, wherever the symbols stand. Their trees
differ in places, in lines and in what is known about comments. Erasing these leaves what the
code says, and the tests that a reader makes on a tree do not depend on more than that.
-/

namespace Scriptlet

namespace Code

/-- A name without its place. -/
def Label.erase (label : Label) : Label :=
  ⟨{}, label.spelling⟩

@[simp]
theorem Label.place_erase (label : Label) : label.erase.place = {} :=
  rfl

@[simp]
theorem Label.spelling_erase (label : Label) : label.erase.spelling = label.spelling :=
  rfl

/-- A direction without the place of its arrow. -/
def Direction.erase : Direction → Direction
  | .send _ => .send {}
  | direction => direction

/-- A part of a list without places, with another content. -/
def Member.erase {α : Type} (content : α → α) (member : Member α) : Member α where
  names := member.names.map Label.erase
  content := content member.content
  tag := member.tag.map Label.erase
  first := {}
  lastLine := 0

@[simp]
theorem Member.names_erase {α : Type} (content : α → α) (member : Member α) :
    (member.erase content).names = member.names.map Label.erase :=
  rfl

@[simp]
theorem Member.content_erase {α : Type} (content : α → α) (member : Member α) :
    (member.erase content).content = content member.content :=
  rfl

/-- A list between brackets without places. -/
def Members.erase {α : Type} (content : α → α) (members : Members α) : Members α where
  list := members.list.map (Member.erase content)

@[simp]
theorem Members.list_erase {α : Type} (content : α → α) (members : Members α) :
    (members.erase content).list = members.list.map (Member.erase content) :=
  rfl

/-- Places do not matter for whether there are members. -/
theorem Members.isEmpty_eq_of_erase {α : Type} {content : α → α} {members members' : Members α}
    (alike : members.erase content = members'.erase content) :
    members.list.isEmpty = members'.list.isEmpty := by
  simpa using congrArg (·.list.isEmpty) alike

/-- Places do not matter for whether a member has no names. -/
theorem Members.anyUnnamed_eq_of_erase {α : Type} {content : α → α}
    {members members' : Members α} (alike : members.erase content = members'.erase content) :
    members.list.any (·.names.isEmpty) = members'.list.any (·.names.isEmpty) := by
  simpa [List.any_map, Function.comp_def] using congrArg (·.list.any (·.names.isEmpty)) alike

/-- Statements between braces without places. -/
def Braced.erase {α : Type} (content : α → α) (body : Braced α) : Braced α where
  list := body.list.map content
  opening := {}
  closing := {}

mutual

/-- An expression without places. -/
def GoExpr.erase : GoExpr → GoExpr
  | .name label => .name label.erase
  | .literal _ symbol => .literal {} symbol
  | .selected operand name => .selected operand.erase name.erase
  | .group _ inner _ guards => .group {} inner.erase {} guards
  | .call function arguments dots =>
    .call function.erase (GoExpr.eraseMembers arguments) (dots.map fun _ => {})
  | .indexed operand arguments => .indexed operand.erase (GoExpr.eraseMembers arguments)
  | .sliced operand _ bounds _ => .sliced operand.erase {} (GoExpr.eraseBounds bounds) {}
  | .asserted operand _ type _ => .asserted operand.erase {} (GoExpr.eraseOption type) {}
  | .composite type parts => .composite (GoExpr.eraseOption type) (GoExpr.eraseMembers parts)
  | .pair key _ value => .pair key.erase {} value.erase
  | .unary _ sign operand => .unary {} sign operand.erase
  | .binary left _ sign right => .binary left.erase {} sign right.erase
  | .pointer _ target => .pointer {} target.erase
  | .array _ length element => .array {} (GoExpr.eraseOption length) element.erase
  | .map _ key value => .map {} key.erase value.erase
  | .channel _ direction element => .channel {} direction.erase element.erase
  | .function _ parameters results =>
    .function {} (GoExpr.eraseMembers parameters) (GoExpr.eraseMembers results)
  | .closure _ parameters results body =>
    .closure {} (GoExpr.eraseMembers parameters) (GoExpr.eraseMembers results)
      (GoStmt.eraseBraced body)
  | .record _ fields => .record {} (GoExpr.eraseMembers fields)
  | .interface _ elements => .interface {} (GoExpr.eraseMembers elements)
  | .dots _ element => .dots {} (GoExpr.eraseOption element)

def GoExpr.eraseOption : Option GoExpr → Option GoExpr
  | none => none
  | some expr => some expr.erase

def GoExpr.eraseBounds : List (Option GoExpr) → List (Option GoExpr)
  | [] => []
  | bound :: bounds => GoExpr.eraseOption bound :: GoExpr.eraseBounds bounds

def GoExpr.eraseMember : Member GoExpr → Member GoExpr
  | ⟨names, content, tag, _, _, _⟩ =>
    { names := names.map Label.erase, content := content.erase, tag := tag.map Label.erase
      first := {}, lastLine := 0 }

def GoExpr.eraseList : List (Member GoExpr) → List (Member GoExpr)
  | [] => []
  | member :: members => GoExpr.eraseMember member :: GoExpr.eraseList members

def GoExpr.eraseMembers : Members GoExpr → Members GoExpr
  | ⟨list, _, _⟩ => { list := GoExpr.eraseList list }

/-- A statement without places. -/
def GoStmt.erase : GoStmt → GoStmt
  | .empty _ => .empty {}
  | .labeled label _ target => .labeled label.erase {} target.erase
  | .expr expr => .expr expr.erase
  | .send channel _ value => .send channel.erase {} value.erase
  | .count operand _ sign => .count operand.erase {} sign
  | .assign left _ sign right => .assign (GoExpr.eraseList left) {} sign (GoExpr.eraseList right)
  | .deferred _ keyword call => .deferred {} keyword call.erase
  | .result _ values => .result {} (GoExpr.eraseList values)
  | .jump _ keyword label => .jump {} keyword (label.map Label.erase)
  | .block body => .block (GoStmt.eraseBraced body)
  | .conditional _ first condition body otherwise =>
    .conditional {} (GoStmt.eraseOption first) condition.erase (GoStmt.eraseBraced body)
      (GoStmt.eraseOption otherwise)
  | .switch _ first value body =>
    .switch {} (GoStmt.eraseOption first) (GoExpr.eraseOption value) (GoStmt.eraseBraced body)
  | .typeSwitch _ first value body =>
    .typeSwitch {} (GoStmt.eraseOption first) value.erase (GoStmt.eraseBraced body)
  | .select _ body => .select {} (GoStmt.eraseBraced body)
  | .clause _ values _ body => .clause {} (GoExpr.eraseList values) {} (GoStmt.eraseList body)
  | .ready _ statement _ body =>
    .ready {} (GoStmt.eraseOption statement) {} (GoStmt.eraseList body)
  | .loop _ first condition step body =>
    .loop {} (GoStmt.eraseOption first) (GoExpr.eraseOption condition) (GoStmt.eraseOption step)
      (GoStmt.eraseBraced body)
  | .rangeLoop _ key value stored _ list body =>
    .rangeLoop {} (GoExpr.eraseOption key) (GoExpr.eraseOption value)
      (stored.map fun (_, sign) => ({}, sign)) {} list.erase (GoStmt.eraseBraced body)
  | .declaration declaration => .declaration declaration.erase

def GoStmt.eraseOption : Option GoStmt → Option GoStmt
  | none => none
  | some stmt => some stmt.erase

def GoStmt.eraseList : List GoStmt → List GoStmt
  | [] => []
  | stmt :: stmts => stmt.erase :: GoStmt.eraseList stmts

def GoStmt.eraseBraced : Braced GoStmt → Braced GoStmt
  | ⟨list, _, _⟩ => ⟨GoStmt.eraseList list, {}, {}⟩

def GoStmt.eraseBody : Option (Braced GoStmt) → Option (Braced GoStmt)
  | none => none
  | some body => some (GoStmt.eraseBraced body)

/-- A declaration without places. -/
def GoDecl.erase : GoDecl → GoDecl
  | .group keyword _ parens list =>
    .group keyword {} (parens.map fun _ => ({}, {})) (GoSpec.eraseList list)
  | .function _ isMethod receiver name typeParameters parameters results body _ =>
    .function {} isMethod (GoExpr.eraseMembers receiver) name.erase
      (GoExpr.eraseMembers typeParameters) (GoExpr.eraseMembers parameters)
      (GoExpr.eraseMembers results) (GoStmt.eraseBody body) 0

/-- What is declared behind a keyword, without places. -/
def GoSpec.erase : GoSpec → GoSpec
  | .package name path => .package (name.map Label.erase) path.erase
  | .type name parameters isAlias type =>
    .type name.erase (GoExpr.eraseMembers parameters) isAlias type.erase
  | .value names type values _ =>
    .value (names.map Label.erase) (GoExpr.eraseOption type) (GoExpr.eraseList values) false

def GoSpec.eraseList : List GoSpec → List GoSpec
  | [] => []
  | spec :: specs => spec.erase :: GoSpec.eraseList specs

end

section Containers

/-- Erasing an expression that may be absent. -/
@[simp]
theorem GoExpr.eraseOption_eq (expr : Option GoExpr) :
    GoExpr.eraseOption expr = expr.map GoExpr.erase := by
  cases expr <;> rfl

/-- Erasing the bounds of a slice. -/
@[simp]
theorem GoExpr.eraseBounds_eq (bounds : List (Option GoExpr)) :
    GoExpr.eraseBounds bounds = bounds.map (Option.map GoExpr.erase) := by
  induction bounds with
  | nil => rfl
  | cons bound bounds ih => simp [GoExpr.eraseBounds, ih]

/-- Erasing the members of a list. -/
@[simp]
theorem GoExpr.eraseList_eq (members : List (Member GoExpr)) :
    GoExpr.eraseList members = members.map (Member.erase GoExpr.erase) := by
  induction members with
  | nil => rfl
  | cons member members ih =>
    obtain ⟨names, content, tag, isCommented, first, lastLine⟩ := member
    simp [GoExpr.eraseList, GoExpr.eraseMember, Member.erase, ih]

/-- Erasing the members between two brackets. -/
@[simp]
theorem GoExpr.eraseMembers_eq (members : Members GoExpr) :
    GoExpr.eraseMembers members = members.erase GoExpr.erase := by
  obtain ⟨list, opening, closing⟩ := members
  simp [GoExpr.eraseMembers, Members.erase]

/-- Erasing a statement that may be absent. -/
@[simp]
theorem GoStmt.eraseOption_eq (stmt : Option GoStmt) :
    GoStmt.eraseOption stmt = stmt.map GoStmt.erase := by
  cases stmt <;> rfl

/-- Erasing statements one by one. -/
@[simp]
theorem GoStmt.eraseList_eq (stmts : List GoStmt) :
    GoStmt.eraseList stmts = stmts.map GoStmt.erase := by
  induction stmts with
  | nil => rfl
  | cons stmt stmts ih => simp [GoStmt.eraseList, ih]

/-- Erasing a block. -/
@[simp]
theorem GoStmt.eraseBraced_eq (body : Braced GoStmt) :
    GoStmt.eraseBraced body = body.erase GoStmt.erase := by
  obtain ⟨list, opening, closing⟩ := body
  simp [GoStmt.eraseBraced, Braced.erase]

/-- Erasing a body that may be absent. -/
@[simp]
theorem GoStmt.eraseBody_eq (body : Option (Braced GoStmt)) :
    GoStmt.eraseBody body = body.map (Braced.erase GoStmt.erase) := by
  cases body <;> simp [GoStmt.eraseBody]

/-- Erasing specifications one by one. -/
@[simp]
theorem GoSpec.eraseList_eq (specs : List GoSpec) :
    GoSpec.eraseList specs = specs.map GoSpec.erase := by
  induction specs with
  | nil => rfl
  | cons spec specs ih => simp [GoSpec.eraseList, ih]

end Containers

namespace GoExpr

/-- A test that does not see places gives the same for trees that differ in places only. -/
theorem eq_of_erase {β : Type} {test : GoExpr → β} (blind : ∀ expr, test expr.erase = test expr)
    {expr expr' : GoExpr} (alike : expr.erase = expr'.erase) : test expr = test expr' := by
  rw [← blind expr, alike, blind expr']

/-- Without places, parentheses are still parentheses. -/
theorem isGroup_erase (expr : GoExpr) : expr.erase.isGroup = expr.isGroup := by
  cases expr <;> rfl

/-- Without places, a call is still a call. -/
theorem isCall_erase (expr : GoExpr) : expr.erase.isCall = expr.isCall := by
  cases expr <;> rfl

/-- Without places, a type of channels is still one. -/
theorem isChannel_erase (expr : GoExpr) : expr.erase.isChannel = expr.isChannel := by
  cases expr <;> rfl

/-- It does not matter whether parentheses or places are taken away first. -/
theorem erase_ungrouped (expr : GoExpr) : expr.ungrouped.erase = expr.erase.ungrouped := by
  fun_induction ungrouped expr with
  | case1 place inner closing guards ih => exact ih
  | case2 expr other =>
    cases expr with
    | group place inner closing guards => exact absurd rfl (other place inner closing guards)
    | _ => rfl

/-- An expression between parentheses without its places. -/
theorem erase_grouped (place : Place) (inner : GoExpr) (closing : Place) (guards : Bool) :
    (grouped place inner closing guards).erase = grouped {} inner.erase {} guards := by
  cases inner <;> rfl

/-- It does not matter whether names or places are taken away first. -/
theorem erase_bare (expr : GoExpr) : expr.bare.erase = expr.erase.bare := by
  fun_induction bare expr with
  | case1 place inner closing ih => exact ih
  | case2 expr other =>
    cases expr with
    | group place inner closing guards =>
      cases guards with
      | false => exact absurd rfl (other place inner closing)
      | true => rfl
    | _ => rfl

/-- Places do not matter for whether an expression can name a type. -/
theorem isTypeName_erase (expr : GoExpr) : expr.erase.isTypeName = expr.isTypeName := by
  fun_induction isTypeName expr with
  | case1 label => rfl
  | case2 operand name ih => exact ih
  | case3 expr notName notSelected =>
    cases expr with
    | name label => exact absurd rfl (notName label)
    | selected operand name => exact absurd rfl (notSelected operand name)
    | _ => rfl

/-- Places do not matter for whether an expression can be an element of a union. -/
theorem isTypeElement_erase (expr : GoExpr) :
    expr.erase.isTypeElement = expr.isTypeElement := by
  fun_induction isTypeElement expr with
  | case7 place sign operand => rfl
  | case8 left place sign right leftIh rightIh => simp [erase, isTypeElement, leftIh, rightIh]
  | case9 place inner closing guards ih => exact ih
  | case10 expr _ _ _ _ _ _ notUnary notBinary notGroup =>
    cases expr with
    | unary place sign operand => exact absurd rfl (notUnary place sign operand)
    | binary left place sign right => exact absurd rfl (notBinary left place sign right)
    | group place inner closing guards => exact absurd rfl (notGroup place inner closing guards)
    | _ => first | rfl | simp_all
  | _ => rfl

/-- A name and the type behind it, without places. -/
def eraseNamed (named : Label × Option GoExpr) : Label × Option GoExpr :=
  (named.1.erase, named.2.map erase)

/-- What is no name is none without its places. -/
theorem erase_ne_name {expr : GoExpr} (notName : ∀ label, expr ≠ .name label) (label : Label) :
    expr.erase ≠ .name label := by
  cases expr with
  | name label => exact absurd rfl (notName label)
  | _ => simp [erase]

/-- Trees that differ in places only are both names, or neither is one. -/
theorem name_or_ne_name {expr expr' : GoExpr} (alike : expr.erase = expr'.erase) :
    (∃ label label', expr = .name label ∧ expr' = .name label' ∧ label.erase = label'.erase) ∨
      (∀ label, expr ≠ .name label) ∧ ∀ label, expr' ≠ .name label := by
  by_cases named : ∃ label, expr = .name label
  · obtain ⟨label, rfl⟩ := named
    cases expr' with
    | name label' => exact .inl ⟨label, label', rfl, rfl, by simpa [erase] using alike⟩
    | _ => simp [erase] at alike
  · rw [not_exists] at named
    refine .inr ⟨named, ?_⟩
    rintro label rfl
    exact erase_ne_name named label.erase alike

/-- The name in front of a type is found without places, too. -/
theorem splitName_erase (certain : Bool) (expr : GoExpr) :
    expr.erase.splitName certain = (expr.splitName certain).map eraseNamed := by
  fun_induction splitName certain expr with
  | case1 certain label => rfl
  | case2 certain place sign right label h =>
    simp [erase, splitName, isTypeElement_erase, h, eraseNamed]
  | case3 certain place sign right label h =>
    simp only [erase, splitName, isTypeElement_erase, if_neg h, Option.map_none]
  | case4 certain left place right label type found notName ih =>
    rw [found] at ih ⊢
    simp [erase, splitName, isTypeElement_erase, ih, eraseNamed, erase_ne_name notName]
  | case5 certain left place right notName other ih =>
    rw [erase, splitName.eq_3 _ _ _ _ _ (erase_ne_name notName), if_pos rfl, isTypeElement_erase, ih]
    cases found : left.splitName (certain || right.isTypeElement) with
    | none => rfl
    | some named =>
      obtain ⟨label, _ | type⟩ := named
      · rfl
      · exact absurd found (other label type)
  | case6 certain left place sign right h notName =>
    rw [erase, splitName.eq_3 _ _ _ _ _ (erase_ne_name notName), if_neg h]
    rfl
  | case7 certain label argument opening closing h =>
    simp only [erase, splitName, isTypeElement_erase, eraseMembers_eq, Members.erase, Member.erase, List.map, Option.map_none, if_pos h]
    rfl
  | case8 certain label argument opening closing h =>
    simp only [erase, splitName, isTypeElement_erase, eraseMembers_eq, Members.erase, Member.erase, List.map, Option.map_none, if_neg h]
  | case9 expr certain notName notBinary notCall =>
    cases expr with
    | name label => exact absurd rfl (notName label)
    | binary left place sign right => exact absurd rfl (notBinary left place sign right)
    | call function arguments dots =>
      cases function with
      | name label =>
        obtain ⟨_ | ⟨first, _ | ⟨second, others⟩⟩, opening, closing⟩ := arguments
        · rfl
        · cases dots with
          | none => exact absurd rfl (notCall label first opening closing)
          | some dots => rfl
        · rfl
      | _ => rfl
    | _ => rfl

end GoExpr

/-- Without places, a label still stands in front of a statement. -/
theorem GoStmt.isLabeled_erase (stmt : GoStmt) : stmt.erase.isLabeled = stmt.isLabeled := by
  cases stmt <;> rfl

namespace GoReader

/-- Places do not matter for whether parts in braces can follow. -/
theorem startsParts_erase (isHeader : Bool) (expr : GoExpr) :
    startsParts isHeader expr.erase = startsParts isHeader expr := by
  cases expr <;> rfl

/-- Places do not matter for whether a type is asked for. -/
theorem asksType_erase (expr : GoExpr) : asksType expr.erase = asksType expr := by
  cases expr with
  | asserted operand opening type closing => cases type <;> rfl
  | _ => rfl

/-- What is received from, without places. -/
theorem map_receiving (arrow : Place) (expr : GoExpr) :
    (receiving arrow expr).map GoExpr.erase = receiving {} expr.erase := by
  fun_induction receiving arrow expr with
  | case1 | case3 => rfl
  | case2 arrow place element inner ih =>
    simp only [GoExpr.erase, Direction.erase, receiving, ← ih, Option.map_map]
    rfl
  | case4 expr arrow other =>
    cases expr with
    | channel place direction element => exact absurd rfl (other place direction element)
    | _ => rfl

/-- The expression that a statement is, without places. -/
theorem exprOf?_erase (stmt : GoStmt) : exprOf? stmt.erase = (exprOf? stmt).map GoExpr.erase := by
  cases stmt <;> rfl

/-- The same for a statement that may be absent. -/
theorem map_bind_exprOf? (stmt : Option GoStmt) :
    (stmt.bind exprOf?).map GoExpr.erase = (stmt.map GoStmt.erase).bind exprOf? := by
  cases stmt with
  | none => rfl
  | some stmt => exact (exprOf?_erase stmt).symm

/-- Places do not matter for whether a statement asks for a type. -/
theorem isTypeGuard_erase (stmt : GoStmt) : isTypeGuard stmt.erase = isTypeGuard stmt := by
  cases stmt with
  | expr expr => simp [GoStmt.erase, isTypeGuard, asksType_erase]
  | assign left place sign right =>
    obtain _ | ⟨first, _ | ⟨second, others⟩⟩ := left <;>
      obtain _ | ⟨value, _ | ⟨other, values⟩⟩ := right <;>
      simp [GoStmt.erase, isTypeGuard, Member.erase, asksType_erase]
  | _ => rfl

/-- Statements that differ in places only both ask for a type, or none does. -/
theorem isTypeGuard_eq_of_erase {stmt stmt' : Option GoStmt}
    (alike : stmt.map GoStmt.erase = stmt'.map GoStmt.erase) :
    stmt.map isTypeGuard = stmt'.map isTypeGuard := by
  have blind : isTypeGuard ∘ GoStmt.erase = isTypeGuard := funext isTypeGuard_erase
  rw [← blind, ← Option.map_map, alike, Option.map_map]

namespace Entry

/-- A parameter without places, before names and types have been told apart. -/
def erase (entry : Entry) : Entry where
  name := entry.name.map Label.erase
  type := entry.type.map GoExpr.erase

private theorem isFull_erase (entry : Entry) : entry.erase.isFull = entry.isFull := by
  simp [isFull, erase]

private theorem map_unnamed (entry : Entry) :
    entry.unnamed.map (Member.erase GoExpr.erase) = entry.erase.unnamed := by
  obtain ⟨_ | name, _ | type, first, lastLine⟩ := entry <;>
    simp [unnamed, erase, Member.erase, GoExpr.erase_ungrouped, GoExpr.erase]

private theorem map_share (names : List Label) (entries : List Entry) :
    (share names entries).map (List.map (Member.erase GoExpr.erase)) =
      share (names.map Label.erase) (entries.map erase) := by
  induction entries generalizing names with
  | nil => cases names <;> rfl
  | cons entry entries ih =>
    obtain ⟨_ | name, _ | type, first, lastLine⟩ := entry
    · rfl
    · rfl
    · simpa [share, erase] using ih (names ++ [name])
    · have followed : _ = share [] (entries.map erase) := ih []
      simp only [List.map_cons, share, erase, ← followed]
      cases share [] entries <;> simp [Member.erase, GoExpr.erase_ungrouped]

private theorem map_mapM_unnamed (entries : List Entry) :
    (entries.mapM unnamed).map (List.map (Member.erase GoExpr.erase)) =
      (entries.map erase).mapM unnamed := by
  induction entries with
  | nil => rfl
  | cons entry entries ih =>
    rw [List.map_cons, List.mapM_cons, List.mapM_cons, ← map_unnamed, ← ih]
    cases unnamed entry <;> cases entries.mapM unnamed <;> rfl

/-- Entries become members in the same way without places. -/
theorem map_members (entries : List Entry) :
    (members entries).map (List.map (Member.erase GoExpr.erase)) =
      members (entries.map erase) := by
  have anyFull : (entries.map erase).any isFull = entries.any isFull := by
    simp [List.any_map, Function.comp_def, isFull_erase]
  unfold members
  rw [anyFull]
  split
  · exact map_share [] entries
  · exact map_mapM_unnamed entries

end Entry

private theorem isVariadic_erase (member : Member GoExpr) :
    isVariadic (member.erase GoExpr.erase) = isVariadic member := by
  obtain ⟨names, content, tag, isCommented, first, lastLine⟩ := member
  cases content <;> rfl

/-- Places do not matter for where a variadic parameter may stand. -/
theorem variadicLast_erase (allowed : Bool) (members : List (Member GoExpr)) :
    variadicLast allowed (members.map (Member.erase GoExpr.erase)) =
      variadicLast allowed members := by
  simp only [variadicLast, ← List.map_reverse]
  cases members.reverse with
  | nil => rfl
  | cons last others =>
    simp [List.any_map, Function.comp_def, isVariadic_erase]

/-- The only member of a list, without places. -/
theorem map_single? (members : List (Member GoExpr)) :
    (single? members).map GoExpr.erase =
      single? (members.map (Member.erase GoExpr.erase)) := by
  match members with
  | [] | [_] | _ :: _ :: _ => rfl

namespace Short

/-- A short statement without places. -/
def erase : Short → Short
  | .stmt inner => .stmt inner.erase
  | .range left stored _ list =>
    .range (left.map (Member.erase GoExpr.erase)) (stored.map fun (_, sign) => ({}, sign)) {}
      list.erase

private theorem isRange_erase (short : Short) : short.erase.isRange = short.isRange := by
  cases short <;> rfl

/-- Headers that differ in places only both range over something, or none does. -/
theorem isRange_eq_of_erase {short short' : Option Short}
    (alike : short.map erase = short'.map erase) :
    short.any isRange = short'.any isRange := by
  simpa [Option.any_map, isRange_erase] using congrArg (Option.any isRange) alike

/-- The statement in a header, without places. -/
theorem stmt?_erase (short : Short) : short.erase.stmt? = short.stmt?.map GoStmt.erase := by
  cases short <;> rfl

/-- The same for a header that may be absent. -/
theorem map_bind_stmt? (short : Option Short) :
    (short.bind (·.stmt?)).map GoStmt.erase = (short.map erase).bind (·.stmt?) := by
  cases short with
  | none => rfl
  | some short => exact (stmt?_erase short).symm

/-- A statement as a header, without places. -/
theorem map_map_stmt (inner : Option GoStmt) :
    (inner.map Short.stmt).map erase = (inner.map GoStmt.erase).map Short.stmt := by
  cases inner <;> rfl

end Short

end GoReader

end Code

end Scriptlet
