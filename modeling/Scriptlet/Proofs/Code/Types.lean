import Scriptlet.Proofs.Code.Taking

/-!
# Types on a line

A type on a line of its own is read behind a declared name and behind the name of a field. What
the grammar makes of it can be told from its first symbols: a slice and a pointer are read like
what is behind their signs, and another name of a package changes nothing else.
-/

namespace Scriptlet

namespace Code

namespace GoReader

variable {α γ : Type}

/-- What a reader makes of some symbols, and what it leaves of them. -/
def outcome (view : α → γ) (reader : GoReader α) (symbols : List Symbol) :
    Option (γ × List Symbol) :=
  (reader (ahead false symbols)).map fun result => (view result.1, result.2.symbols)

section Outcome

variable {view : α → γ} {first reader : GoReader α} {symbols : List Symbol}

/-- A reader that follows another finds what it finds, on the same symbols. -/
theorem result_of_follows (follows : Follows [] view first reader) {rest other : Rest}
    (symbols : other.symbols = rest.symbols) (header : other.isHeader = rest.isHeader)
    (guards : rest.guards = false) {result : γ × List Symbol}
    (found : (first rest).map (fun result => (view result.1, result.2.symbols)) = some result) :
    (reader other).map (fun result => (view result.1, result.2.symbols)) = some result := by
  obtain ⟨⟨value, after⟩, read, rfl⟩ := Option.map_eq_some_iff.mp found
  have extended : Extends [] other.guards rest other :=
    ⟨by rw [symbols, List.append_nil], .inl rfl, header, by rw [guards, Bool.false_or]⟩
  obtain ⟨value', after', read', alike, extended⟩ := follows.follows read (.inl rfl) extended
  rw [read', Option.map_some, alike, extended.symbols, List.append_nil]

/-- Whatever is known about the symbols that have been read, the outcome is the same. -/
theorem outcome_eq (follows : Follows [] view reader reader) {rest : Rest}
    (header : rest.isHeader = false) (guards : rest.guards = false) :
    (reader rest).map (fun result => (view result.1, result.2.symbols)) =
      outcome view reader rest.symbols := by
  refine Option.ext fun result => ⟨fun found => ?_, fun found => ?_⟩
  · exact result_of_follows follows (symbols_ahead _ _) header.symm guards found
  · exact result_of_follows follows (symbols_ahead _ _).symm header rfl found

/-- An outcome stays the same where a reader follows another. -/
theorem outcome_of_follows (follows : Follows [] view first reader) {result : γ × List Symbol}
    (found : outcome view first symbols = some result) :
    outcome view reader symbols = some result :=
  result_of_follows follows rfl rfl rfl found

/-- What takes some symbols comes to its value and leaves the tail. -/
theorem Takes.outcome {tail : List Symbol} {value : γ}
    (takes : Takes false view reader symbols tail value) :
    outcome view reader (symbols ++ tail) = some (value, tail) := by
  obtain ⟨found, after, read, rfl, left, -⟩ := takes _ (symbols_ahead _ _) rfl
  rw [GoReader.outcome, read, Option.map_some, left]

end Outcome

variable {steps : Nat} {symbol : Symbol} {symbols left : List Symbol} {tree : GoExpr}

/-- A star starts a type of pointers. -/
theorem type_pointer (steps : Nat) (symbols : List Symbol) :
    outcome GoExpr.erase (type (steps + 1)) (.sign "*" :: symbols) =
      (outcome GoExpr.erase (type steps) symbols).map (Prod.map (.pointer {}) id) := by
  have read : type (steps + 1) (ahead false (.sign "*" :: symbols)) =
      (type steps (ahead false symbols)).bind fun result =>
        some (.pointer {} result.1, result.2) := by
    rw [type]
    rfl
  rw [outcome, outcome, read]
  cases type steps (ahead false symbols) <;> rfl

/-- Two brackets start a type of slices. -/
theorem type_slice (steps : Nat) (symbols : List Symbol) :
    outcome GoExpr.erase (type (steps + 2)) (.sign "[" :: .sign "]" :: symbols) =
      (outcome GoExpr.erase (type steps) symbols).map (Prod.map (.array {} none) id) := by
  have read : type (steps + 2) (ahead false (.sign "[" :: .sign "]" :: symbols)) =
      (type steps (ahead false symbols)).bind fun result =>
        some (.array {} none result.1, result.2) := by
    rw [type]
    rfl
  rw [outcome, outcome, read]
  cases type steps (ahead false symbols) <;> rfl

/-- What can be seen of what a name is declared to be. -/
abbrev declaredView : Members GoExpr × Bool × GoExpr → Members GoExpr × Bool × GoExpr :=
  Prod.map (Members.erase GoExpr.erase) (Prod.map id GoExpr.erase)

/-- What can be seen of fields and their type. -/
abbrev fieldsView : List Label × GoExpr → List Label × GoExpr :=
  Prod.map (List.map Label.erase) GoExpr.erase

/-- A type of slices where a type is declared. -/
theorem declaredType_slice (steps : Nat) (symbols : List Symbol) :
    outcome declaredView (declaredType (steps + 3)) (.sign "[" :: .sign "]" :: symbols) =
      (outcome GoExpr.erase (type steps) symbols).map
        (Prod.map (fun element => ({}, false, .array {} none element)) id) := by
  have array : parametersOrArray (steps + 2) (ahead false (.sign "]" :: symbols)) =
      ((type steps (ahead false symbols)).bind fun result =>
        some ((.array {} none result.1 : GoExpr), result.2)).bind fun result =>
          some (.inr result.1, result.2) := by
    rw [parametersOrArray]
    rfl
  obtain ⟨next, read, goes⟩ : ∃ next : _ × Rest → _,
      declaredType (steps + 3) (ahead false (.sign "[" :: .sign "]" :: symbols)) =
        (parametersOrArray (steps + 2) (ahead false (.sign "]" :: symbols))).bind next ∧
      ∀ array after, next (.inr array, after) = some (({}, false, array), after) := by
    rw [declaredType]
    exact ⟨_, rfl, fun _ _ => rfl⟩
  rw [outcome, outcome, read, array]
  cases type steps (ahead false symbols) with
  | none => rfl
  | some result => simp only [Option.bind_some, goes]; rfl

/-- Where a type is declared, it is read as anywhere else unless it starts with a bracket. -/
theorem declaredType_of_startsType (starts : startsType symbol = true)
    (noArray : symbol ≠ .sign "[") (steps : Nat) (symbols : List Symbol) :
    outcome declaredView (declaredType (steps + 1)) (symbol :: symbols) =
      (outcome GoExpr.erase (type steps) (symbol :: symbols)).map
        (Prod.map (fun type => ({}, false, type)) id) := by
  have read : declaredType (steps + 1) (ahead false (symbol :: symbols)) =
      (type steps (ahead false (symbol :: symbols))).bind fun result =>
        some (({}, false, result.1), result.2) := by
    rw [declaredType]
    cases symbol with
    | name spelling => rfl
    | keyword spelling => rfl
    | sign spelling =>
      simp only [startsType, List.contains_iff_mem, List.mem_cons, List.not_mem_nil, or_false]
        at starts
      obtain rfl | rfl | rfl | rfl := starts
      · exact absurd rfl noArray
      · rfl
      · rfl
      · rfl
    | _ => cases starts
  rw [outcome, outcome, read]
  cases type steps (ahead false (symbol :: symbols)) <;> rfl

private theorem namedFields_slice (name : String) (steps : Nat) (symbols : List Symbol) :
    outcome fieldsView (namedFields (steps + 2)) (.name name :: .sign "[" :: .sign "]" :: symbols) =
      (outcome GoExpr.erase (type steps) symbols).map
        (Prod.map (fun element => ([⟨{}, name⟩], .array {} none element)) id) := by
  have array : arrayOrArguments ⟨{}, name⟩ (steps + 1) (ahead false (.sign "]" :: symbols)) =
      (type steps (ahead false symbols)).bind fun result =>
        some ((some ⟨{}, name⟩, .array {} none result.1), result.2) := by
    rw [arrayOrArguments]
    rfl
  have read : namedFields (steps + 2)
      (ahead false (.name name :: .sign "[" :: .sign "]" :: symbols)) =
      (arrayOrArguments ⟨{}, name⟩ (steps + 1) (ahead false (.sign "]" :: symbols))).bind
        fun result => some ((result.1.1.toList, result.1.2), result.2) := by
    rw [namedFields]
    rfl
  rw [outcome, outcome, read, array]
  cases type steps (ahead false symbols) <;> rfl

/-- Behind the name of a field, a type is read as anywhere else unless it starts with a bracket. -/
theorem namedFields_of_startsType (starts : startsType symbol = true)
    (noArray : symbol ≠ .sign "[") (name : String) (steps : Nat) (symbols : List Symbol) :
    outcome fieldsView (namedFields (steps + 1)) (.name name :: symbol :: symbols) =
      (outcome GoExpr.erase (type steps) (symbol :: symbols)).map
        (Prod.map (fun type => ([⟨{}, name⟩], type)) id) := by
  let rest : Rest :=
    { ahead false (symbol :: symbols) with lastLine := (({} : Place).afterText name).line }
  have read : namedFields (steps + 1) (ahead false (.name name :: symbol :: symbols)) =
      (type steps rest).bind fun result => some (([⟨{}, name⟩], result.1), result.2) := by
    rw [namedFields]
    cases symbol with
    | name spelling => cases steps <;> rfl
    | keyword spelling => cases steps <;> rfl
    | sign spelling =>
      simp only [startsType, List.contains_iff_mem, List.mem_cons, List.not_mem_nil, or_false]
        at starts
      obtain rfl | rfl | rfl | rfl := starts
      · exact absurd rfl noArray
      · cases steps <;> rfl
      · cases steps <;> rfl
      · cases steps <;> rfl
    | _ => cases starts
  have same := outcome_eq (uniform (Nat.le_refl steps)).type (show rest.isHeader = false from rfl) rfl
  rw [show rest.symbols = symbol :: symbols from symbols_ahead false _] at same
  rw [outcome, read, ← same]
  cases type steps rest <;> rfl

private theorem type_nil (steps : Nat) : outcome GoExpr.erase (type steps) [] = none := by
  cases steps with
  | zero => rfl
  | succ steps =>
    rw [outcome, type]
    rfl

/-- What is read as a type starts as one. -/
theorem startsType_of_type {result : GoExpr × List Symbol}
    (found : outcome GoExpr.erase (type steps) (symbol :: symbols) = some result) :
    startsType symbol = true := by
  cases steps with
  | zero => cases found
  | succ steps =>
    obtain ⟨⟨value, after⟩, read, -⟩ := Option.map_eq_some_iff.mp found
    rw [type] at read
    obtain ⟨place, _, ⟨⟩, read⟩ := bind_eq_some.mp read
    obtain ⟨next, _, peeked, read⟩ := bind_eq_some.mp read
    have same : next = some symbol := (congrArg Prod.fst (Option.some.inj peeked)).symm
    split at read
    case h_11 => cases read
    all_goals
      cases same
      rfl

/-- A name alone is a type. -/
theorem takes_type_name (name : String) (selects : symbol ≠ .sign ".") (applies : symbol ≠ .sign "[")
    (steps : Nat) :
    Takes false GoExpr.erase (type (steps + 2)) [.name name] (symbol :: symbols)
      (.name ⟨{}, name⟩) := by
  rw [type]
  refine .bind_nil .nextPlace fun _ _ => .bind_nil .peek fun next same => ?_
  obtain rfl : next = some (.name name) := same
  refine .bind_cons (.label name) fun label same => ?_
  rw [namedType]
  refine .bind_nil (.optional_absent (by simpa using selects)) fun isSelected absent => ?_
  obtain rfl : isSelected = false := absent
  have spelled : (GoExpr.name label).erase = .name ⟨{}, name⟩ := congrArg GoExpr.name same
  refine .bind_nil (.pure spelled) fun named alone => ?_
  refine .bind_nil (.optional_absent (by simpa using applies)) fun isApplied absent => ?_
  obtain rfl : isApplied = false := absent
  exact .pure alone

/-- Behind the first name of a type, there is a point, a bracket, or nothing. -/
theorem left_of_type_name {name : String}
    (found : outcome GoExpr.erase (type steps) (.name name :: symbol :: symbols) = some (tree, left))
    (selects : symbol ≠ .sign ".") (applies : symbol ≠ .sign "[") : left = symbol :: symbols := by
  match steps with
  | 0 => cases found
  | 1 => cases found
  | steps + 2 =>
    have takes : Takes false GoExpr.erase (type (steps + 2)) [.name name] (symbol :: symbols) _ :=
      takes_type_name name selects applies steps
    have expected := takes.outcome
    exact (congrArg Prod.snd (Option.some.inj (expected.symm.trans found))).symm

/-- A symbol that was read came next. -/
theorem head?_of_exactly {rest after : Rest} {taken : Unit}
    (read : exactly symbol rest = some (taken, after)) : rest.symbols.head? = some symbol := by
  unfold exactly take at read
  split at read
  · cases read
  · next lexeme lexemes starts =>
    obtain ⟨_, passes, -⟩ := Option.map_eq_some_iff.mp read
    dsimp only at passes
    split at passes
    · next same => rw [Rest.symbols, starts, List.map_cons, List.head?_cons, same]
    · cases passes

private theorem optional_eq {rest : Rest} (absent : rest.symbols.head? ≠ some symbol) :
    optional symbol rest = some (false, rest) := by
  have unseen : rest.lexemes.head?.map (·.symbol) ≠ some symbol := by
    rwa [Rest.symbols, List.head?_map] at absent
  have chosen : optional symbol rest =
      (if rest.lexemes.head?.map (·.symbol) = some symbol then do
        exactly symbol
        pure true
      else pure false : GoReader Bool) rest := rfl
  rw [chosen, if_neg unseen]
  rfl

private theorem optional_eq_of_head? {rest : Rest} (present : rest.symbols.head? = some symbol) :
    optional symbol rest = (exactly symbol >>= fun _ => pure true : GoReader Bool) rest := by
  have seen : rest.lexemes.head?.map (·.symbol) = some symbol := by
    rwa [Rest.symbols, List.head?_map] at present
  exact congrFun (if_pos seen) rest

/-- Whether a symbol can stand behind the keyword of a type. -/
def followsKeyword : Symbol → Bool
  | .sign spelling => ["[", "(", braceOpen, "<-", "*"].contains spelling
  | .number _ => false
  | _ => true

private theorem followsKeyword_of_startsType (starts : startsType symbol = true) :
    followsKeyword symbol = true := by
  cases symbol with
  | sign spelling =>
    simp only [startsType, List.contains_iff_mem, List.mem_cons, List.not_mem_nil, or_false]
      at starts
    obtain rfl | rfl | rfl | rfl := starts <;> rfl
  | name spelling => rfl
  | keyword spelling => rfl
  | _ => cases starts

/-- Behind a keyword that starts a type there is a symbol that can follow it. -/
theorem followsKeyword_of_type {keyword : String} {result : GoExpr × List Symbol}
    (found : outcome GoExpr.erase (type steps) (.keyword keyword :: symbol :: symbols) =
      some result) : followsKeyword symbol = true := by
  cases steps with
  | zero => cases found
  | succ steps =>
    obtain ⟨⟨value, after⟩, read, -⟩ := Option.map_eq_some_iff.mp found
    rw [type] at read
    obtain ⟨place, _, ⟨⟩, read⟩ := bind_eq_some.mp read
    obtain ⟨next, _, peeked, read⟩ := bind_eq_some.mp read
    have same : next = some (.keyword keyword) :=
      (congrArg Prod.fst (Option.some.inj peeked)).symm
    obtain rfl := congrArg Prod.snd (Option.some.inj peeked)
    split at read
    case h_6 =>
      cases same
      obtain ⟨_, _, ⟨⟩, read⟩ := bind_eq_some.mp read
      by_cases sends : symbol = .sign "<-"
      · rw [sends]
        rfl
      obtain ⟨isSend, between, chosen, read⟩ := bind_eq_some.mp read
      rw [optional_eq (by simpa [Rest.symbols, ahead] using sends)] at chosen
      cases chosen
      obtain ⟨_, _, ⟨⟩, read⟩ := bind_eq_some.mp read
      obtain ⟨inner, rest, read, -⟩ := bind_eq_some.mp read
      have starts : startsType symbol = true :=
        startsType_of_type (Option.map_eq_some_iff.mpr ⟨(inner, rest), read, rfl⟩)
      exact followsKeyword_of_startsType starts
    case h_7 =>
      cases same
      obtain ⟨_, _, ⟨⟩, read⟩ := bind_eq_some.mp read
      obtain ⟨_, _, read, -⟩ := bind_eq_some.mp read
      obtain rfl := Option.some.inj (head?_of_exactly read)
      rfl
    case h_8 =>
      cases same
      obtain ⟨_, _, ⟨⟩, read⟩ := bind_eq_some.mp read
      obtain ⟨_, _, read, -⟩ := bind_eq_some.mp read
      cases steps with
      | zero => cases read
      | succ steps =>
        rw [signature] at read
        obtain ⟨_, _, read, -⟩ := bind_eq_some.mp read
        obtain ⟨_, _, read, -⟩ := bind_eq_some.mp read
        obtain rfl := Option.some.inj (head?_of_exactly read)
        rfl
    case h_9 =>
      cases same
      obtain ⟨_, _, ⟨⟩, read⟩ := bind_eq_some.mp read
      obtain ⟨_, _, read, -⟩ := bind_eq_some.mp read
      obtain ⟨_, _, read, -⟩ := bind_eq_some.mp read
      obtain rfl := Option.some.inj (head?_of_exactly read)
      rfl
    case h_10 =>
      cases same
      obtain ⟨_, _, ⟨⟩, read⟩ := bind_eq_some.mp read
      obtain ⟨_, _, read, -⟩ := bind_eq_some.mp read
      obtain ⟨_, _, read, -⟩ := bind_eq_some.mp read
      obtain rfl := Option.some.inj (head?_of_exactly read)
      rfl
    case h_11 => cases read
    all_goals cases same

end GoReader

namespace GoExpr

/-- A type whose package has another name. -/
def requalified (name : String) : GoExpr → GoExpr
  | .selected _ label => .selected (.name ⟨{}, name⟩) label
  | .indexed operand arguments => .indexed (operand.requalified name) arguments
  | .pointer place target => .pointer place (target.requalified name)
  | .array place length element => .array place length (element.requalified name)
  | type => type

end GoExpr

namespace GoReader

variable {steps : Nat} {symbol : Symbol} {symbols left : List Symbol} {tree : GoExpr}

/-- The name of a package does not change how a type of it is read. -/
theorem namedType_requalified {label : Label} {rest after : Rest}
    (selects : rest.symbols.head? = some (.sign "."))
    (read : namedType label steps rest = some (tree, after)) (other : Label) :
    ∃ tree', namedType other steps rest = some (tree', after) ∧
      tree'.erase = tree.erase.requalified other.spelling := by
  cases steps with
  | zero => cases read
  | succ steps =>
    rw [namedType] at read ⊢
    obtain ⟨isSelected, between, chosen, read⟩ := bind_eq_some.mp read
    obtain rfl : isSelected = true := by
      rw [optional_eq_of_head? selects] at chosen
      obtain ⟨_, _, -, ⟨⟩⟩ := bind_eq_some.mp chosen
      rfl
    obtain ⟨picked, between', labelled, read⟩ := bind_eq_some.mp read
    obtain ⟨named, _, ⟨⟩, read⟩ := bind_eq_some.mp read
    obtain ⟨isApplied, behind, applied, read⟩ := bind_eq_some.mp read
    cases isApplied with
    | false =>
      cases read
      refine ⟨.selected (.name other) picked, ?_, rfl⟩
      refine bind_eq_some.mpr ⟨true, between, chosen, ?_⟩
      refine bind_eq_some.mpr ⟨picked, between', labelled, ?_⟩
      refine bind_eq_some.mpr ⟨_, _, rfl, ?_⟩
      exact bind_eq_some.mpr ⟨false, _, applied, rfl⟩
    | true =>
      obtain ⟨arguments, final, inner, read⟩ := bind_eq_some.mp read
      split at read
      · cases read
      · next filled =>
        cases read
        refine ⟨.indexed (.selected (.name other) picked) arguments, ?_, rfl⟩
        refine bind_eq_some.mpr ⟨true, between, chosen, ?_⟩
        refine bind_eq_some.mpr ⟨picked, between', labelled, ?_⟩
        refine bind_eq_some.mpr ⟨_, _, rfl, ?_⟩
        refine bind_eq_some.mpr ⟨true, behind, applied, ?_⟩
        exact bind_eq_some.mpr ⟨arguments, after, inner, congrFun (if_neg filled) after⟩

private theorem type_name (name : String) (steps : Nat) (symbols : List Symbol) :
    outcome GoExpr.erase (type (steps + 1)) (.name name :: symbols) =
      outcome GoExpr.erase (namedType ⟨{}, name⟩ steps) symbols := by
  let rest : Rest := { ahead false symbols with lastLine := (({} : Place).afterText name).line }
  have read : type (steps + 1) (ahead false (.name name :: symbols)) =
      namedType ⟨{}, name⟩ steps rest := by
    rw [type]
    rfl
  have follows : Follows [] GoExpr.erase (namedType ⟨{}, name⟩ steps) (namedType ⟨{}, name⟩ steps) :=
    (uniform (Nat.le_refl steps)).namedType rfl
  have same := outcome_eq follows (show rest.isHeader = false from rfl) rfl
  rw [show rest.symbols = symbols from symbols_ahead false _] at same
  rw [outcome, read, same]

/-- The qualifier of a type can be any name. -/
theorem type_requalified {name : String}
    (found : outcome GoExpr.erase (type steps) (.name name :: .sign "." :: symbols) =
      some (tree, left)) (other : String) :
    outcome GoExpr.erase (type steps) (.name other :: .sign "." :: symbols) =
      some (tree.requalified other, left) := by
  cases steps with
  | zero => cases found
  | succ steps =>
    rw [type_name] at found ⊢
    obtain ⟨⟨value, after⟩, read, same⟩ := Option.map_eq_some_iff.mp found
    obtain ⟨rfl, rfl⟩ := Prod.mk.inj same
    obtain ⟨value', read', same⟩ := namedType_requalified rfl read ⟨{}, other⟩
    rw [outcome, read', Option.map_some, same]

/-- Names are only given to what is read behind them. -/
theorem arrayOrArguments_renamed {name found : Label} {rest after : Rest}
    (read : arrayOrArguments name steps rest = some ((some found, tree), after)) (other : Label) :
    found = name ∧ arrayOrArguments other steps rest = some ((some other, tree), after) := by
  cases steps with
  | zero => cases read
  | succ steps =>
    rw [arrayOrArguments] at read ⊢
    obtain ⟨opening, _, ⟨⟩, read⟩ := bind_eq_some.mp read
    obtain ⟨isSlice, between, chosen, read⟩ := bind_eq_some.mp read
    cases isSlice with
    | true =>
      obtain ⟨element, _, inner, ⟨⟩⟩ := bind_eq_some.mp read
      refine ⟨rfl, bind_eq_some.mpr ⟨_, _, rfl, bind_eq_some.mpr ⟨true, between, chosen, ?_⟩⟩⟩
      exact bind_eq_some.mpr ⟨element, after, inner, rfl⟩
    | false =>
      obtain ⟨first, between', length, read⟩ := bind_eq_some.mp read
      obtain ⟨next, _, ⟨⟩, read⟩ := bind_eq_some.mp read
      obtain ⟨hasMore, behind, goesOn, read⟩ := bind_eq_some.mp read
      cases hasMore with
      | true =>
        obtain ⟨others, behind', rest, read⟩ := bind_eq_some.mp read
        obtain ⟨closing, _, ⟨⟩, read⟩ := bind_eq_some.mp read
        obtain ⟨last, _, ⟨⟩, read⟩ := bind_eq_some.mp read
        split at read
        · next isArray =>
          split at read
          · next isSingle =>
            obtain ⟨element, _, inner, ⟨⟩⟩ := bind_eq_some.mp read
            refine ⟨rfl, bind_eq_some.mpr ⟨_, _, rfl, bind_eq_some.mpr ⟨false, between, chosen, ?_⟩⟩⟩
            refine bind_eq_some.mpr ⟨first, between', length, bind_eq_some.mpr ⟨_, _, rfl, ?_⟩⟩
            refine bind_eq_some.mpr ⟨true, behind, goesOn, ?_⟩
            refine bind_eq_some.mpr ⟨others, behind', rest, ?_⟩
            refine bind_eq_some.mpr ⟨_, _, rfl, bind_eq_some.mpr ⟨_, _, rfl, ?_⟩⟩
            rw [if_pos isArray, if_pos isSingle]
            exact bind_eq_some.mpr ⟨element, after, inner, rfl⟩
          · cases read
        · cases read
      | false =>
        obtain ⟨_, behind', closed, read⟩ := bind_eq_some.mp read
        obtain ⟨others, _, ⟨⟩, read⟩ := bind_eq_some.mp read
        obtain ⟨closing, _, ⟨⟩, read⟩ := bind_eq_some.mp read
        obtain ⟨last, _, ⟨⟩, read⟩ := bind_eq_some.mp read
        split at read
        · next isArray =>
          split at read
          · next isSingle =>
            obtain ⟨element, _, inner, ⟨⟩⟩ := bind_eq_some.mp read
            refine ⟨rfl, bind_eq_some.mpr ⟨_, _, rfl, bind_eq_some.mpr ⟨false, between, chosen, ?_⟩⟩⟩
            refine bind_eq_some.mpr ⟨first, between', length, bind_eq_some.mpr ⟨_, _, rfl, ?_⟩⟩
            refine bind_eq_some.mpr ⟨false, behind, goesOn, ?_⟩
            refine bind_eq_some.mpr ⟨_, behind', closed, bind_eq_some.mpr ⟨_, _, rfl, ?_⟩⟩
            refine bind_eq_some.mpr ⟨_, _, rfl, bind_eq_some.mpr ⟨_, _, rfl, ?_⟩⟩
            rw [if_pos isArray, if_pos isSingle]
            exact bind_eq_some.mpr ⟨element, after, inner, rfl⟩
          · cases read
        · cases read

private theorem namedFields_bracket (name : String) (steps : Nat) (symbols : List Symbol) :
    namedFields (steps + 1) (ahead false (.name name :: .sign "[" :: symbols)) =
      (arrayOrArguments ⟨{}, name⟩ steps (ahead false symbols)).bind fun result =>
        some ((result.1.1.toList, result.1.2), result.2) := by
  rw [namedFields]
  rfl

private theorem eq_of_many_nil {α : Type} {starts : Symbol → Bool} {item : GoReader α} {limit : Nat}
    {rest after : Rest} (read : many starts item limit rest = some ([], after)) : after = rest := by
  cases limit <;>
  · obtain ⟨_, _, ⟨⟩, read⟩ := bind_eq_some.mp read
    split at read
    · first
        | cases read
        | obtain ⟨_, _, -, read⟩ := bind_eq_some.mp read
          obtain ⟨_, _, -, ⟨⟩⟩ := bind_eq_some.mp read
    · cases read
      rfl

/-- The type of a field with a name starts an array or is read as a type. -/
theorem startsType_of_namedFields {name : String} {label : Label}
    (found : outcome fieldsView (namedFields steps) (.name name :: symbols) =
      some (([label], tree), left)) : ∃ symbol more, symbols = symbol :: more ∧ startsType symbol = true := by
  cases steps with
  | zero => cases found
  | succ steps =>
    obtain ⟨⟨⟨names, value⟩, after⟩, read, same⟩ := Option.map_eq_some_iff.mp found
    have named : names.map Label.erase = [label] := congrArg (·.1.1) same
    rw [namedFields] at read
    obtain ⟨_, _, ⟨⟩, read⟩ := bind_eq_some.mp read
    obtain ⟨_, _, ⟨⟩, read⟩ := bind_eq_some.mp read
    obtain ⟨_, _, ⟨⟩, read⟩ := bind_eq_some.mp read
    obtain ⟨next, _, peeked, read⟩ := bind_eq_some.mp read
    have ahead : next = symbols.head? :=
      (congrArg Prod.fst (Option.some.inj peeked)).symm.trans (by cases symbols <;> rfl)
    obtain rfl := congrArg Prod.snd (Option.some.inj peeked)
    split at read
    case h_1 =>
      obtain ⟨_, _, -, ⟨⟩⟩ := bind_eq_some.mp read
      cases named
    case h_2 =>
      cases read
      cases named
    case h_3 =>
      cases read
      cases named
    case h_4 =>
      cases read
      cases named
    case h_5 =>
      cases read
      cases named
    case h_6 => exact ⟨.sign "[", _, List.head?_eq_some_iff.mp ahead.symm |>.choose_spec, rfl⟩
    case h_7 =>
      obtain ⟨more, between, others, read⟩ := bind_eq_some.mp read
      obtain ⟨_, _, inner, ⟨⟩⟩ := bind_eq_some.mp read
      obtain rfl : more = [] := by simpa using (List.cons.inj named).2
      obtain rfl := eq_of_many_nil others
      have typed := congrArg (Option.map fun result => (result.1.erase, result.2.symbols)) inner
      rw [outcome_eq (uniform (Nat.le_refl steps)).type rfl rfl] at typed
      replace typed : outcome GoExpr.erase (type steps) symbols = some (value.erase, after.symbols) :=
        (congrArg (outcome _ _) (symbols_ahead false symbols).symm).trans typed
      cases symbols with
      | nil =>
        rw [type_nil] at typed
        cases typed
      | cons symbol symbols => exact ⟨symbol, symbols, rfl, startsType_of_type typed⟩

/-- The name of a field can be any name. -/
theorem namedFields_renamed {name : String}
    (found : outcome fieldsView (namedFields steps) (.name name :: symbols) =
      some (([⟨{}, name⟩], tree), left)) (other : String) :
    outcome fieldsView (namedFields steps) (.name other :: symbols) =
      some (([⟨{}, other⟩], tree), left) := by
  obtain ⟨symbol, symbols, rfl, starts⟩ := startsType_of_namedFields found
  cases steps with
  | zero => cases found
  | succ steps =>
    by_cases bracket : symbol = .sign "["
    · subst bracket
      rw [outcome, namedFields_bracket] at found ⊢
      obtain ⟨⟨⟨names, value⟩, after⟩, read, same⟩ := Option.map_eq_some_iff.mp found
      obtain ⟨⟨⟨label, inner⟩, rest⟩, array, shape⟩ := Option.bind_eq_some_iff.mp read
      cases shape
      have named : label.toList.map Label.erase = [⟨{}, name⟩] := congrArg (·.1.1) same
      cases label with
      | none => cases named
      | some label =>
        have renamed := (arrayOrArguments_renamed array ⟨{}, other⟩).2
        obtain rfl : inner.erase = tree := congrArg (·.1.2) same
        obtain rfl : rest.symbols = left := congrArg (·.2) same
        rw [renamed]
        rfl
    · rw [namedFields_of_startsType starts bracket] at found ⊢
      obtain ⟨⟨value, after⟩, read, same⟩ := Option.map_eq_some_iff.mp found
      rw [read]
      cases same
      rfl

/-- Some symbols in front of the end of a line are a type: they are read as one behind the name of
a declared type and behind the name of a field. -/
structure Typed (steps : Nat) (symbols : List Symbol) (tree : GoExpr) : Prop where
  declared : outcome declaredView (declaredType steps) (symbols ++ [.lineEnd]) =
    some (({}, false, tree), [.lineEnd])
  field (name : String) : outcome fieldsView (namedFields steps)
    (.name name :: (symbols ++ [.lineEnd])) = some (([⟨{}, name⟩], tree), [.lineEnd])

/-- A type of slices is one whose elements have a type. -/
theorem typed_slice_iff :
    Typed steps (.sign "[" :: .sign "]" :: symbols) tree ↔
      ∃ fewer element, steps = fewer + 3 ∧ tree = .array {} none element ∧
        outcome GoExpr.erase (type fewer) (symbols ++ [.lineEnd]) = some (element, [.lineEnd]) := by
  constructor
  · intro typed
    have found := typed.declared
    match steps with
    | 0 => cases found
    | 1 => cases found
    | 2 => cases found
    | fewer + 3 =>
      rw [List.cons_append, List.cons_append, declaredType_slice] at found
      obtain ⟨⟨element, left⟩, inner, same⟩ := Option.map_eq_some_iff.mp found
      cases same
      exact ⟨fewer, element, rfl, rfl, inner⟩
  · rintro ⟨fewer, element, rfl, rfl, inner⟩
    refine ⟨?_, fun name => ?_⟩
    · rw [List.cons_append, List.cons_append, declaredType_slice, inner]
      rfl
    · have later := outcome_of_follows (uniform (Nat.le_succ fewer)).type inner
      rw [List.cons_append, List.cons_append, namedFields_slice, later]
      rfl

/-- Without a bracket at its start, a type is what the reader of types reads. -/
theorem typed_iff_of_startsType (starts : startsType symbol = true) (noArray : symbol ≠ .sign "[") :
    Typed steps (symbol :: symbols) tree ↔
      ∃ fewer, steps = fewer + 1 ∧
        outcome GoExpr.erase (type fewer) (symbol :: (symbols ++ [.lineEnd])) =
          some (tree, [.lineEnd]) := by
  constructor
  · intro typed
    have found := typed.declared
    cases steps with
    | zero => cases found
    | succ fewer =>
      rw [List.cons_append, declaredType_of_startsType starts noArray] at found
      obtain ⟨⟨_, left⟩, inner, same⟩ := Option.map_eq_some_iff.mp found
      cases same
      exact ⟨fewer, rfl, inner⟩
  · rintro ⟨fewer, rfl, inner⟩
    refine ⟨?_, fun name => ?_⟩
    · rw [List.cons_append, declaredType_of_startsType starts noArray, inner]
      rfl
    · rw [List.cons_append, namedFields_of_startsType starts noArray, inner]
      rfl

/-- The symbols of a type start as those of types do. -/
theorem Typed.startsType (typed : Typed steps symbols tree) :
    ∃ symbol more, symbols = symbol :: more ∧ startsType symbol = true := by
  obtain ⟨symbol, more, split, starts⟩ := startsType_of_namedFields (typed.field "")
  cases symbols with
  | nil =>
    obtain ⟨rfl, -⟩ := List.cons.inj split
    cases starts
  | cons first symbols =>
    obtain ⟨rfl, -⟩ := List.cons.inj split
    exact ⟨first, symbols, rfl, starts⟩

end GoReader

end Code

end Scriptlet
