import Scriptlet.Proofs.Code.Declarations

/-!
# Functions with a body

A function with parameters for types, and a switch on the type of a value in its body, are read
part by part. So is a list of imports.
-/

namespace Scriptlet

namespace Code

namespace GoReader

namespace Takes

variable {isHeader : Bool} {symbols first tail : List Symbol} {steps limit : Nat}

/-- A value that is known takes nothing. -/
theorem lift {α : Type} {option : Option α} {value : α} (given : option = some value) :
    Takes isHeader id (liftM option : GoReader α) [] tail value := by
  subst given
  exact fun rest starts header => ⟨value, rest, rfl, rfl, starts, header⟩

/-- A question about the next symbol takes nothing. -/
theorem test {question : Option Symbol → Bool} :
    Takes isHeader id (do Pure.pure (question (← GoReader.peek))) [] tail (question tail.head?) :=
  Takes.peek.map fun _ same => congrArg question same

/-- A reader whose result is one of two kinds takes what it took. -/
protected theorem some {α γ : Type} {view : α → γ} {reader : GoReader α} {value : γ}
    (inner : Takes isHeader view reader symbols tail value) :
    Takes isHeader (Option.map view) (some <$> reader) symbols tail (some value) := by
  intro rest starts header
  obtain ⟨found, after, read, same, left, header⟩ := inner rest starts header
  refine ⟨found, after, ?_, congrArg some same, left, header⟩
  show StateT.map some reader rest = _
  simp [StateT.map, read]

/-- A block takes its statements between braces. -/
protected theorem block {statements : List GoStmt}
    (inner : Takes false (List.map GoStmt.erase) (many (!endsStatements ·) (statement steps) limit)
      symbols (.sign braceClose :: tail) statements) :
    Takes isHeader (Braced.erase GoStmt.erase) (block (statement steps) limit)
      (.sign braceOpen :: (symbols ++ [.sign braceClose])) tail ⟨statements, {}, {}⟩ :=
  bind_cons (.sign _) fun _ _ => bind_nil .lastPlace fun _ _ => inner.within.bind fun _ same =>
    bind_cons (.sign _) fun _ _ => bind_nil .lastPlace fun _ _ => .pure (by
      simp [Braced.erase, same])

/-- The cases of a switch take the clauses between braces. -/
protected theorem cases {clause : GoReader GoStmt} {clauses : List GoStmt}
    (inner : Takes isHeader (List.map GoStmt.erase)
      (many (fun symbol => endsStatements symbol && symbol ≠ .sign braceClose) clause limit) symbols
      (.sign braceClose :: tail) clauses) :
    Takes isHeader (Braced.erase GoStmt.erase) (cases clause limit)
      (.sign braceOpen :: (symbols ++ [.sign braceClose])) tail ⟨clauses, {}, {}⟩ :=
  bind_cons (.sign _) fun _ _ => bind_nil .lastPlace fun _ _ => inner.bind fun _ same =>
    bind_cons (.sign _) fun _ _ => bind_nil .lastPlace fun _ _ => .pure (by
      simp [Braced.erase, same])

/-- A switch on the type of a value, behind its keyword. -/
theorem typeSwitch {symbol : Symbol} {guard : GoStmt} {body : Braced GoStmt}
    (opens : symbol ≠ .sign braceOpen) (ends : isSemicolon symbol = false)
    (asks : isTypeGuard guard = some true)
    (head : Takes true GoStmt.erase (headStmt steps) (symbol :: first)
      ((.sign braceOpen :: symbols ++ [.lineEnd]) ++ tail) guard)
    (inner : Takes false (Braced.erase GoStmt.erase) (cases (clause steps) steps)
      (.sign braceOpen :: symbols) (.lineEnd :: tail) body) :
    Takes false GoStmt.erase (statement (steps + 2))
      (.keyword "switch" :: symbol :: first ++ (.sign braceOpen :: symbols ++ [.lineEnd])) tail
      (.typeSwitch {} none guard body) := by
  rw [statement]
  refine bind_nil .nextPlace fun _ _ => bind_nil .peek fun next same => ?_
  obtain rfl : next = some (.keyword "switch") := same
  show Takes false GoStmt.erase (switch (steps + 1)) _ _ _
  rw [switch]
  refine bind_cons (.keyword _) fun _ _ => bind_nil .lastPlace fun place _ => ?_
  refine (Takes.within (?_ : Takes true
    (Prod.map (Option.map GoStmt.erase) (Option.map GoStmt.erase)) _ (symbol :: first)
    ((.sign braceOpen :: symbols ++ [.lineEnd]) ++ tail) (none, some guard))).bind
      fun found same => ?_
  · refine bind_nil .test fun isBlock same => ?_
    obtain rfl : isBlock = false := same.trans (by simpa using opens)
    refine bind_nil .peek fun next same => ?_
    obtain rfl : next = some symbol := same
    rw [if_neg (by simp [ends])]
    refine head.some.bind_last fun value same => bind_nil .peek fun next same' => ?_
    obtain rfl : next = some (.sign braceOpen) := same'
    exact .pure (by simp [same])
  · obtain ⟨_ | _, _ | guard'⟩ := found <;>
      simp only [Prod.map_apply, Option.map_none, Option.map_some, Prod.mk.injEq, reduceCtorEq,
        and_false, false_and, true_and, Option.some.injEq] at same
    have asks' : isTypeGuard guard' = some true := by
      rw [← isTypeGuard_erase, same, asks]
    refine bind_nil (.lift asks') fun isType same' => ?_
    obtain rfl : isType = true := same'
    exact inner.bind fun body' same' => bind_cons .finish fun _ _ => .pure (by
      simp [GoStmt.erase, same, same'])

/-- A function with parameters for types. -/
theorem functionDeclaration {name : String} {second third : List Symbol}
    {types taken given : Members GoExpr} {body : Braced GoStmt}
    (starts : ∀ place, Takes false (Members.erase GoExpr.erase) (typeParameters place [] steps) first
      ((second ++ (.sign braceOpen :: third ++ [.lineEnd])) ++ tail) types)
    (signed : Takes false (Prod.map (Members.erase GoExpr.erase) (Members.erase GoExpr.erase))
      (signature steps) second ((.sign braceOpen :: third ++ [.lineEnd]) ++ tail) (taken, given))
    (inner : Takes false (Braced.erase GoStmt.erase) (block (statement steps) steps)
      (.sign braceOpen :: third) (.lineEnd :: tail) body) :
    Takes false GoDecl.erase (declaration steps)
      (.keyword "func" :: .name name :: .sign "[" ::
        (first ++ (second ++ (.sign braceOpen :: third ++ [.lineEnd])))) tail
      (.function {} false {} ⟨{}, name⟩ types taken given (some body) 0) := by
  refine bind_nil .peek fun next same => ?_
  obtain rfl : next = some (.keyword "func") := same
  refine bind_cons (.keyword _) fun _ _ => bind_nil .lastPlace fun place _ =>
    bind_nil .peek fun next same => ?_
  obtain rfl : next = some (.name name) := same
  simp only [Option.some.injEq, reduceCtorEq, if_false, false_and, decide_false, pure_bind]
  refine bind_cons (.label name) fun label named => bind_cons (.optional _) fun opens same => ?_
  obtain rfl : opens = true := same
  refine bind_nil .lastPlace fun opening _ => (starts opening).bind fun types' typed =>
    signed.bind fun found same => ?_
  obtain ⟨taken', given'⟩ := found
  simp only [Prod.map_apply, Prod.mk.injEq] at same
  refine bind_nil .peek fun next same' => ?_
  obtain rfl : next = some (.sign braceOpen) := same'
  refine inner.bind fun body' same' => bind_nil .lastLine fun _ _ =>
    bind_cons .finish fun _ _ => .pure ?_
  have empty : Members.erase GoExpr.erase {} = {} := rfl
  simp [GoDecl.erase, named, typed, same, same', empty]

/-- The tag of a field is a text. -/
theorem tag (spelling : String) :
    Takes isHeader (Option.map Label.erase) tag? [.text spelling] tail
      (Option.some ⟨{}, spelling⟩) := by
  refine bind_nil .peek fun next same => ?_
  obtain rfl : next = Option.some (.text spelling) := same
  exact bind_cons (.exactly _) fun _ _ => bind_nil .lastPlace fun _ _ => .pure rfl

/-- A text that has to be there. -/
theorem bind_tag {β δ : Type} {seen : β → δ} {spelling : String} {next : Option Label → GoReader β}
    {more : List Symbol} {final : δ}
    (goes : ∀ found, found.erase = ⟨{}, spelling⟩ →
      Takes isHeader seen (next (Option.some found)) more tail final) :
    Takes isHeader seen (tag? >>= next) (.text spelling :: more) tail final := by
  refine bind_cons (.tag spelling) fun found same => ?_
  obtain ⟨label, rfl, spelled⟩ := Option.map_eq_some_iff.mp same
  exact goes label spelled

/-- An import on a line of its own. -/
theorem importSpec (name : Option String) (path : String) :
    Takes false GoSpec.erase (spec "import" (steps + 1))
      (name.toList.map .name ++ [.text path, .lineEnd]) tail
      (.package (name.map fun spelling => ⟨{}, spelling⟩) ⟨{}, path⟩) := by
  rw [spec]
  refine bind_nil .peek fun next same => ?_
  cases name with
  | none =>
    obtain rfl : next = Option.some (.text path) := same
    simp only [pure_bind]
    refine bind_tag fun found spelled => ?_
    exact bind_cons .finish fun _ _ => .pure (by simp [GoSpec.erase, spelled])
  | some spelling =>
    obtain rfl : next = Option.some (.name spelling) := same
    refine bind_cons (Takes.label spelling).some fun label same => ?_
    refine bind_tag fun found spelled => ?_
    exact bind_cons .finish fun _ _ => .pure (by simp [GoSpec.erase, same, spelled])

/-- A single import. -/
theorem importDeclaration {symbol : Symbol} {imported : GoSpec} (opens : symbol ≠ .sign "(")
    (inner : Takes false GoSpec.erase (spec "import" steps) (symbol :: symbols) tail imported) :
    Takes false GoDecl.erase (declarations "import" (steps + 1))
      (.keyword "import" :: symbol :: symbols) tail (.group "import" {} none [imported]) := by
  rw [declarations]
  refine bind_cons (.exactly _) fun _ _ => bind_nil .lastPlace fun place _ =>
    bind_nil (.optional_absent (by simpa using opens)) fun isOpen same => ?_
  obtain rfl : isOpen = false := same
  exact inner.map fun found same => by simp [GoDecl.erase, same]

/-- Imports between parentheses. -/
theorem importGroup {imported : List GoSpec}
    (inner : Takes false (List.map GoSpec.erase) (many (· ≠ .sign ")") (spec "import" steps) steps)
      symbols (.sign ")" :: .lineEnd :: tail) imported) :
    Takes false GoDecl.erase (declarations "import" (steps + 1))
      (.keyword "import" :: .sign "(" :: (symbols ++ [.sign ")", .lineEnd])) tail
      (.group "import" {} (some ({}, {})) imported) := by
  rw [declarations]
  refine bind_cons (.exactly _) fun _ _ => bind_nil .lastPlace fun place _ =>
    bind_cons (.optional _) fun isOpen same => ?_
  obtain rfl : isOpen = true := same
  refine bind_nil .lastPlace fun _ _ => inner.bind fun found same =>
    bind_cons (.sign _) fun _ _ => bind_nil .lastPlace fun _ _ => bind_cons .finish fun _ _ => .pure ?_
  simp [GoDecl.erase, same]

end Takes

end GoReader

end Code

end Scriptlet
