import Scriptlet.Code.PackagePath
import Scriptlet.Proofs.Code.Opening
import Scriptlet.Proofs.Code.Types

/-!
# Texts of types

A text is a type of Go if it is read as one behind a name. Then it can be put behind any name,
wherever that name stands.
-/

namespace Scriptlet

namespace Code

open GoReader

/-- A text is a type of Go: behind the name of a declared type and behind the name of a field, it
is read up to the end of its line. The tree of the type has no places. -/
def IsType (text : String) (tree : GoExpr) : Prop :=
  ∃ lexemes symbols, Lexemes.scan {} ("_ " ++ text) = some lexemes ∧
    lexemes.list.map (·.symbol) = .name "_" :: (symbols ++ [.lineEnd]) ∧
    outcome declaredView (declaredType (16 * lexemes.list.length + 16)) (symbols ++ [.lineEnd]) =
      some (({}, false, tree), [.lineEnd]) ∧
    outcome fieldsView (namedFields (16 * lexemes.list.length + 16))
      (.name "_" :: (symbols ++ [.lineEnd])) = some (([⟨{}, "_"⟩], tree), [.lineEnd])

/-- A text whose symbols are known is a type if they are read as one. -/
theorem IsType.of_symbols {text : String} {symbols : List Symbol} {tree : GoExpr} {steps : Nat}
    (scanned : (Lexemes.scan {} ("_ " ++ text)).map (·.list.map (·.symbol)) =
      some (.name "_" :: (symbols ++ [.lineEnd])))
    (few : steps ≤ 48)
    (declared : outcome declaredView (declaredType steps) (symbols ++ [.lineEnd]) =
      some (({}, false, tree), [.lineEnd]))
    (field : outcome fieldsView (namedFields steps) (.name "_" :: (symbols ++ [.lineEnd])) =
      some (([⟨{}, "_"⟩], tree), [.lineEnd])) : IsType text tree := by
  obtain ⟨lexemes, scanned, found⟩ := Option.map_eq_some_iff.mp scanned
  have length : lexemes.list.length = symbols.length + 2 := by
    simpa using congrArg List.length found
  refine ⟨lexemes, symbols, scanned, found, ?_, ?_⟩
  · exact outcome_of_follows (uniform (by omega)).declaredType declared
  · exact outcome_of_follows (uniform (by omega)).namedFields field

/-- Every name is a type. -/
theorem IsType.of_name {name : String} (valid : isName name = true) :
    IsType name (.name ⟨{}, name⟩) := by
  have spelled : Spells false false (("_ " ++ name).toList ++ ['\n'])
      (.name "_" :: ([.name name] ++ [.lineEnd])) := by
    have chars : ("_ " ++ name).toList ++ ['\n'] = "_".toList ++ ' ' :: (name.toList ++ ['\n']) := by
      simp
    rw [chars]
    exact .name (by decide +kernel) (by decide +kernel)
      (.blank (.inl rfl) (.name valid (by decide +kernel) (.lineEnd .nil)))
  obtain ⟨lexemes, scanned, found⟩ := spelled.scan {}
  exact .of_symbols (Option.map_eq_some_iff.mpr ⟨lexemes, scanned, found⟩)
    (show 8 ≤ 48 by decide) rfl rfl

/-- A text with symbols holds only allowed characters, and its scan ends between two symbols. -/
theorem Lexemes.of_scan {start : Place} {lines : String} {lexemes : Lexemes}
    (scanned : Lexemes.scan start lines = some lexemes) :
    lines.toList.any Lexemes.excluded.contains = false ∧
      ∃ after : Scan, Scan.run { place := start, start } (lines.toList ++ ['\n']) = some after ∧
        after.stage = .between ∧ lexemes.list.map (·.symbol) = after.symbols := by
  simp only [Lexemes.scan] at scanned
  split at scanned
  · cases scanned
  · next allowed =>
    obtain ⟨after, runs, done⟩ := Option.bind_eq_some_iff.mp scanned
    split at done
    · next between =>
      cases done
      exact ⟨Bool.not_eq_true _ ▸ allowed, after, runs, between, rfl⟩
    · cases done

/-- Some characters spell a type behind any name. -/
def SpellsType (chars : List Char) (tree : GoExpr) : Prop :=
  ∃ symbols, Spells true true (chars ++ ['\n']) (symbols ++ [.lineEnd]) ∧
    Typed (16 * symbols.length + 48) symbols tree

/-- The text of a type spells the symbols of the type. -/
theorem IsType.spells {text : String} {tree : GoExpr} (isType : IsType text tree) :
    SpellsType text.toList tree := by
  obtain ⟨lexemes, symbols, scanned, found, declared, field⟩ := isType
  have length : lexemes.list.length = symbols.length + 2 := by
    simpa using congrArg List.length found
  rw [length] at declared field
  refine ⟨symbols, ?_, declared, fun name => namedFields_renamed field name⟩
  obtain ⟨allowed, after, runs, between, all⟩ := Lexemes.of_scan scanned
  have chars : ("_ " ++ text).toList = ['_'] ++ ' ' :: text.toList := by simp
  rw [chars] at allowed runs
  have named : Passes false true true ['_'] (' ' :: (text.toList ++ ['\n'])) [.name "_"] :=
    .word (by decide +kernel) (by decide +kernel)
  obtain ⟨middle, passed, between', canEnd, -, behind⟩ := named {} rfl rfl
  have allowed' : (' ' :: (text.toList ++ ['\n'])).any Lexemes.excluded.contains = false := by
    rw [List.any_append, Bool.or_eq_false_iff] at allowed
    rw [← List.cons_append, List.any_append, allowed.2]
    rfl
  have spells : Spells true true ([' '] ++ (text.toList ++ ['\n'])) (symbols ++ [.lineEnd]) :=
    .of_scan allowed' between' canEnd (passed.symm.trans runs) between (by
      rw [← all, found, behind]
      rfl)
  obtain ⟨rest, same, spells⟩ := spells.of_passes (.blank (.inl rfl))
  rwa [same]

/-- A type starts with a sign only if the sign is a bracket, a star, an arrow or a parenthesis. -/
theorem prefix_of_yields {chars : List Char} {symbol : Symbol}
    (yields : (Stage.sign chars).yields symbol = true) (starts : startsType symbol = true) :
    ["[", "*", "<-", "("].any (fun sign => chars.reverse.isPrefixOf sign.toList) = true := by
  cases symbol with
  | sign spelling => exact List.any_eq_true.mpr ⟨spelling, List.contains_iff_mem.mp starts, yields⟩
  | name spelling => cases yields
  | keyword spelling => cases yields
  | _ => cases starts

namespace Spells

variable {ends : Bool} {chars : List Char} {symbols : List Symbol} {symbol : Symbol}

/-- A type does not start with a quote. -/
theorem head_of_quote (spells : Spells ends true ('"' :: chars) (symbol :: symbols)) :
    startsType symbol = false := by
  obtain ⟨_, _, split, yields⟩ := spells.opening_of_start? (fun _ => rfl) rfl
  obtain ⟨rfl, -⟩ := List.cons.inj split
  cases symbol <;> first | rfl | cases yields

/-- A type does not start with a backquote. -/
theorem head_of_backquote (spells : Spells ends true ('\x60' :: chars) (symbol :: symbols)) :
    startsType symbol = false := by
  obtain ⟨_, _, split, yields⟩ := spells.opening_of_start? (fun _ => rfl) rfl
  obtain ⟨rfl, -⟩ := List.cons.inj split
  cases symbol <;> first | rfl | cases yields

/-- No sign goes on behind a closing bracket. -/
theorem not_joinsSign_bracket (char : Char) : joinsSign ']' char = false := by
  have checked : Symbol.signs.all (fun spelling =>
      spelling.toList.head? ≠ some ']' || spelling.toList.length = 1) = true := by
    decide
  have absent : String.ofList [']', char] ∉ Symbol.signs := by
    intro member
    have short := List.all_eq_true.mp checked _ member
    simp at short
  simpa [joinsSign] using absent

/-- Two brackets in front of a type are two symbols. -/
theorem of_slice (spells : Spells ends true ('[' :: ']' :: (chars ++ ['\n'])) symbols) :
    ∃ rest, symbols = .sign "[" :: .sign "]" :: rest ∧
      Spells true true (chars ++ ['\n']) rest := by
  have opening : Passes ends false true ['['] (']' :: (chars ++ ['\n'])) [.sign "["] :=
    .sign (by decide +kernel) (by decide +kernel)
  obtain ⟨inner, same, inside⟩ := spells.of_passes opening
  obtain ⟨char, others, split⟩ : ∃ char others, chars ++ ['\n'] = char :: others := by
    cases chars <;> exact ⟨_, _, rfl⟩
  have closing : Passes false true true [']'] (char :: others) [.sign "]"] :=
    .sign (by decide +kernel) (not_joinsSign_bracket char)
  rw [split] at inside ⊢
  obtain ⟨rest, same', behind⟩ := inside.of_passes closing
  exact ⟨rest, by rw [same, same']; rfl, behind⟩

/-- What stands behind a star, if the star is a symbol of its own. -/
theorem of_star (spells : Spells ends true ('*' :: (chars ++ ['\n'])) (symbol :: symbols))
    (starts : startsType symbol = true) :
    symbol = .sign "*" ∧ Spells false true (chars ++ ['\n']) symbols := by
  obtain ⟨char, others, split⟩ : ∃ char others, chars ++ ['\n'] = char :: others := by
    cases chars <;> exact ⟨_, _, rfl⟩
  rw [split] at spells ⊢
  by_cases joins : joinsSign '*' char = true
  · have checked : Symbol.signs.all (fun spelling => spelling.toList.head? ≠ some '*' ||
        ["*", "*="].contains spelling) = true := by
      decide
    have member : String.ofList ['*', char] ∈ Symbol.signs := by
      simpa [joinsSign] using joins
    have known := List.all_eq_true.mp checked _ member
    obtain rfl : char = '=' := by
      simpa [← String.toList_inj] using known
    have opens (scan : Scan) (between : scan.stage = .between) : ∃ middle : Scan,
        scan.run ['*', '='] = some middle ∧ middle.stage = .sign ['=', '*'] ∧
          middle.symbols = scan.symbols := by
      refine ⟨{ scan with
        start := scan.place, stage := .sign ['=', '*']
        place := (scan.place.after '*').after '=' }, ?_, rfl, rfl⟩
      rw [Scan.run_cons, Scan.next, Scan.step, between]
      rfl
    have star : Spells ends true (['*', '='] ++ others) (symbol :: symbols) := spells
    obtain ⟨_, _, same, yields⟩ := star.opening opens rfl
    obtain ⟨rfl, -⟩ := List.cons.inj same
    cases prefix_of_yields yields starts
  · have star : Passes ends false true ['*'] (char :: others) [.sign "*"] :=
      .sign (by decide +kernel) (by simpa using joins)
    obtain ⟨rest, same, behind⟩ := spells.of_passes star
    obtain ⟨rfl, rfl⟩ := List.cons.inj same
    exact ⟨rfl, behind⟩

end Spells

/-- Whether a symbol is a number or starts with a sign that can stand in the path of a package. -/
def isForeign : Symbol → Bool
  | .number _ => true
  | .sign spelling => spelling.toList.head?.any PackagePath.isUsual
  | _ => false

private theorem not_startsType_of_isForeign {symbol : Symbol} (foreign : isForeign symbol = true) :
    startsType symbol = false := by
  cases symbol with
  | sign spelling =>
    rw [← Bool.not_eq_true]
    intro starts
    simp only [startsType, List.contains_iff_mem, List.mem_cons, List.not_mem_nil, or_false]
      at starts
    obtain rfl | rfl | rfl | rfl := starts <;> revert foreign <;> decide +kernel
  | number spelling => rfl
  | _ => cases foreign

private theorem not_followsKeyword_of_isForeign {symbol : Symbol} (foreign : isForeign symbol = true) :
    followsKeyword symbol = false := by
  cases symbol with
  | sign spelling =>
    rw [← Bool.not_eq_true]
    intro follows
    simp only [followsKeyword, List.contains_iff_mem, List.mem_cons, List.not_mem_nil, or_false]
      at follows
    obtain rfl | rfl | rfl | rfl | rfl := follows <;> revert foreign <;> decide +kernel
  | number spelling => rfl
  | _ => cases foreign

private theorem not_startsName_of_not_continuesName {char : Char} (stops : continuesName char = false) :
    startsName char = false := by
  simp only [continuesName, Bool.or_eq_false_iff] at stops
  exact stops.1

namespace Spells

variable {ends : Bool} {char : Char} {chars : List Char} {symbols : List Symbol}

/-- What starts with a character of a path, but is no name. -/
theorem opening_of_isUsual (spells : Spells ends true (char :: chars) symbols)
    (usual : PackagePath.isUsual char = true) (slash : char ≠ '/')
    (starts : startsName char = false) :
    ∃ symbol more, symbols = symbol :: more ∧ isForeign symbol = true ∧
      (symbol = .sign "." → char = '.') := by
  have other (odd : Char) (unusual : PackagePath.isUsual odd = false) : char ≠ odd := by
    rintro rfl
    rw [unusual] at usual
    cases usual
  have line := other '\n' (by decide +kernel)
  have blank : Scan.isBlank char = false := by
    simp only [Scan.isBlank, Bool.or_eq_false_iff, decide_eq_false_iff_not]
    exact ⟨⟨⟨other ' ' (by decide +kernel), other '\t' (by decide +kernel)⟩, line⟩,
      other '\r' (by decide +kernel)⟩
  have quote : ¬(char = '"' ∨ char = '\'') := by
    rintro (same | same)
    · exact other '"' (by decide +kernel) same
    · exact other '\'' (by decide +kernel) same
  have raw := other '\x60' (by decide +kernel)
  have opens (scan : Scan) : scan.start? char =
      if char.isDigit then some { scan with start := scan.place, stage := .number [char] }
      else if Symbol.signs.contains (String.singleton char) then
        some { scan with start := scan.place, stage := .sign [char] }
      else none := by
    simp only [Scan.start?, if_neg line, blank, Bool.false_eq_true, if_false, starts, if_neg quote,
      if_neg raw, if_neg slash]
  by_cases digit : char.isDigit = true
  · obtain ⟨symbol, more, rfl, yields⟩ :=
      spells.opening_of_start? (fun scan => (opens scan).trans (if_pos digit)) rfl
    cases symbol with
    | number spelling => exact ⟨_, more, rfl, rfl, by simp⟩
    | _ => cases yields
  by_cases sign : Symbol.signs.contains (String.singleton char) = true
  · obtain ⟨symbol, more, rfl, yields⟩ := spells.opening_of_start?
      (fun scan => (opens scan).trans ((if_neg digit).trans (if_pos sign))) rfl
    cases symbol with
    | number spelling => exact ⟨_, more, rfl, rfl, by simp⟩
    | sign spelling =>
      have head : spelling.toList.head? = some char := by
        obtain ⟨rest, same⟩ := List.isPrefixOf_iff_prefix.mp yields
        rw [← same]
        rfl
      refine ⟨_, more, rfl, by simp [isForeign, head, usual], fun same => ?_⟩
      cases same
      exact (Option.some.inj head).symm
    | _ => cases yields
  · exact (spells.false_of_start?
      fun scan => (opens scan).trans ((if_neg digit).trans (if_neg sign))).elim

/-- A character of an import path is no bracket. -/
theorem head_ne_bracket {symbol : Symbol} (spells : Spells ends true (char :: chars) (symbol :: symbols))
    (usual : PackagePath.isUsual char = true) (slash : char ≠ '/') : symbol ≠ .sign "[" := by
  rintro rfl
  by_cases starts : startsName char = true
  · have blank := not_isBlank_of_startsName starts
    have line : char ≠ '\n' := by
      rintro rfl
      cases blank
    have opens (scan : Scan) : scan.start? char =
        some { scan with start := scan.place, stage := .name [char] } := by
      simp only [Scan.start?, if_neg line, blank, Bool.false_eq_true, if_false, starts, if_true]
    obtain ⟨_, _, same, yields⟩ := spells.opening_of_start? opens rfl
    obtain ⟨rfl, -⟩ := List.cons.inj same
    cases yields
  · obtain ⟨_, _, same, foreign, -⟩ := spells.opening_of_isUsual usual slash (by simpa using starts)
    obtain ⟨rfl, -⟩ := List.cons.inj same
    revert foreign
    decide +kernel

/-- What stands in front of the first point of a type, if it could stand in the path of a package:
it is a name. -/
theorem of_qualifier {qualifier rest : List Char} {steps : Nat} {tree : GoExpr}
    (spells : Spells ends true (qualifier ++ '.' :: rest) symbols) (filled : qualifier ≠ [])
    (plain : ∀ char ∈ qualifier, PackagePath.isUsual char = true ∧ char ≠ '/' ∧ char ≠ '.')
    (found : outcome GoExpr.erase (type steps) symbols = some (tree, [.lineEnd])) :
    isWord qualifier = true ∧ ∃ more, symbols = .name (String.ofList qualifier) :: .sign "." :: more ∧
      Spells true true ('.' :: rest) (.sign "." :: more) := by
  obtain _ | ⟨first, others⟩ := qualifier
  · exact absurd rfl filled
  obtain ⟨usual, slash, -⟩ := plain first (List.mem_cons_self ..)
  have starts : startsName first = true := by
    rw [← Bool.not_eq_false]
    intro starts
    obtain ⟨symbol, more, rfl, foreign, -⟩ := spells.opening_of_isUsual usual slash starts
    have typed := startsType_of_type found
    rw [not_startsType_of_isForeign foreign] at typed
    cases typed
  -- The name goes up to the point, or something is behind it that no type can have there.
  obtain ⟨word, back, next, behind, rfl, split, valid, stops, usual, slash, ended⟩ :
      ∃ word back next behind, others = word ++ back ∧ back ++ '.' :: rest = next :: behind ∧
        isWord (first :: word) = true ∧ continuesName next = false ∧
        PackagePath.isUsual next = true ∧ next ≠ '/' ∧ (next = '.' → back = []) := by
    have joined := List.takeWhile_append_dropWhile (p := continuesName) (l := others)
    have valid : isWord (first :: others.takeWhile continuesName) = true := by
      simp only [isWord, starts, Bool.true_and, List.all_takeWhile]
    cases back : others.dropWhile continuesName with
    | nil =>
      rw [back] at joined
      exact ⟨_, [], '.', rest, joined.symm, rfl, valid, by decide +kernel, by decide +kernel,
        by decide, fun _ => rfl⟩
    | cons next behind =>
      rw [back] at joined
      have member : next ∈ others := by
        rw [← joined]
        exact List.mem_append_right _ (List.mem_cons_self ..)
      obtain ⟨usual, slash, point⟩ := plain next (List.mem_cons_of_mem _ member)
      refine ⟨_, next :: behind, next, _, joined.symm, rfl, valid, ?_, usual, slash,
        fun same => absurd same point⟩
      have stops := List.head?_dropWhile_not continuesName others
      rw [back] at stops
      simpa using stops
  rw [← List.cons_append, List.append_assoc, split] at spells
  obtain ⟨left, same, after⟩ := spells.of_passes (.word valid stops)
  obtain ⟨symbol, more, rfl, foreign, point⟩ :=
    after.opening_of_isUsual usual slash (not_startsName_of_not_continuesName stops)
  rw [same] at found ⊢
  rw [List.singleton_append] at found
  by_cases keyword : Symbol.keywords.contains (String.ofList (first :: word)) = true
  · rw [Symbol.ofWord, if_pos keyword] at found
    have follows := followsKeyword_of_type found
    rw [not_followsKeyword_of_isForeign foreign] at follows
    cases follows
  have named : Symbol.ofWord (String.ofList (first :: word)) = .name (String.ofList (first :: word)) :=
    if_neg keyword
  rw [named] at found after ⊢
  by_cases selects : symbol = .sign "."
  · subst selects
    obtain rfl := point rfl
    obtain rfl := ended rfl
    obtain ⟨-, rfl⟩ := List.cons.inj split
    rw [List.append_nil]
    exact ⟨valid, more, rfl, after⟩
  · have applies : symbol ≠ .sign "[" := by
      rintro rfl
      revert foreign
      decide +kernel
    obtain ⟨rfl, -⟩ := List.cons.inj (left_of_type_name found selects applies)
    cases foreign

/-- A slash in front of a point divides. -/
theorem head_of_slash {symbol : Symbol}
    (spells : Spells ends true ('/' :: '.' :: chars) (symbol :: symbols)) :
    startsType symbol = false := by
  have divides : Passes ends false true ['/'] ('.' :: chars) [.sign "/"] := by
    intro scan between _
    refine ⟨Scan.emit { scan with
      start := scan.place, stage := .slash, place := scan.place.after '/' } (.sign "/"), ?_, rfl,
      rfl, fun _ => column_after (by decide), by simp [Scan.symbols, Scan.emit]⟩
    rw [List.cons_append, Scan.run_cons, Scan.next, Scan.step, between]
    rfl
  obtain ⟨rest, same, -⟩ := spells.of_passes divides
  obtain ⟨rfl, -⟩ := List.cons.inj same
  rfl

end Spells

end Code

end Scriptlet
