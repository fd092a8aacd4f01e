import Scriptlet.Proofs.Code.Mirroring

/-!
# What a text starts with

The first character of a name, a number, a sign or a quoted text tells what its first symbol is.
-/

namespace Scriptlet

namespace Code

namespace Stage

/-- Whether the scan is in the middle of a symbol, and not of what may be a comment. -/
def isPending : Stage → Bool
  | .name _ | .number _ | .sign _ | .quoted _ _ _ | .raw _ => true
  | _ => false

/-- Whether a symbol can come of what the scan is in the middle of. -/
def yields : Stage → Symbol → Bool
  | .name _, .name _ | .name _, .keyword _ | .number _, .number _ => true
  | .sign chars, .sign spelling => chars.reverse.isPrefixOf spelling.toList
  | .sign _, .number _ => true
  | .quoted _ _ _, .text _ | .quoted _ _ _, .char _ | .raw _, .text _ => true
  | _, _ => false

end Stage

namespace Scan

variable {scan after : Scan} {char : Char}

/-- Nothing that has been found is lost. -/
theorem symbols_of_run {chars : List Char} (runs : scan.run chars = some after) :
    ∃ more, after.symbols = scan.symbols ++ more := by
  have mirrors : Mirrors scan.symbols scan.symbols scan scan :=
    ⟨⟨rfl, ⟨[], by simp⟩, id⟩, rfl, fun _ => id⟩
  obtain ⟨_, -, mirrors⟩ := mirrors.run chars after runs
  obtain ⟨more, found, -⟩ := mirrors.symbols
  exact ⟨more, found⟩

/-- A symbol has been found that came of something. -/
def Found (scan after : Scan) : Prop :=
  ∃ symbol more, scan.stage.yields symbol = true ∧ after.symbols = scan.symbols ++ symbol :: more

/-- The scan is still in the middle of something, and everything that can come of it could come
of it before. -/
structure Pending (scan after : Scan) : Prop where
  isPending : after.stage.isPending = true
  symbols : after.symbols = scan.symbols
  yields (symbol : Symbol) : after.stage.yields symbol = true → scan.stage.yields symbol = true

/-- The symbol at hand is found before a character starts something else. -/
theorem Found.of_start? {symbol : Symbol} (yields : scan.stage.yields symbol = true)
    (started : (scan.emit symbol).start? char = some after) : scan.Found after := by
  have alike : Alike (scan.emit symbol).symbols (scan.emit symbol).symbols (scan.emit symbol)
      (scan.emit symbol) := ⟨rfl, ⟨[], by simp⟩, id⟩
  obtain ⟨_, -, mirrors⟩ := alike.start? char after started
  obtain ⟨more, found, -⟩ := mirrors.symbols
  exact ⟨symbol, more, yields, by rw [found, symbols_emit, List.append_assoc, List.singleton_append]⟩

private theorem pending_or_found_of_nextSign {chars : List Char} (stage : scan.stage = .sign chars)
    (goes : scan.nextSign chars char = some after) : scan.Pending after ∨ scan.Found after := by
  unfold nextSign at goes
  split at goes
  · cases goes
    refine .inl ⟨rfl, rfl, fun symbol yields => ?_⟩
    rw [stage]
    cases symbol with
    | sign spelling =>
      have longer : (char :: chars).reverse <+: spelling.toList := List.isPrefixOf_iff_prefix.mp yields
      rw [List.reverse_cons] at longer
      exact List.isPrefixOf_iff_prefix.mpr ((List.prefix_append _ _).trans longer)
    | number spelling => rfl
    | _ => cases yields
  · split at goes
    · cases goes
      refine .inl ⟨rfl, rfl, fun symbol yields => ?_⟩
      rw [stage]
      cases symbol with
      | number spelling => rfl
      | _ => cases yields
    · exact .inr (.of_start? (by simp [stage, Stage.yields]) goes)

private theorem pending_or_found_of_step (pending : scan.stage.isPending = true)
    (goes : scan.step char = some after) : scan.Pending after ∨ scan.Found after := by
  unfold step at goes
  cases stage : scan.stage with
  | name chars =>
    simp only [stage] at goes
    split at goes
    · cases goes
      exact .inl ⟨rfl, rfl, fun symbol yields => by rw [stage]; cases symbol <;> exact yields⟩
    · refine .inr (.of_start? ?_ goes)
      rw [stage, Symbol.ofWord]
      split <;> rfl
  | number chars =>
    simp only [stage] at goes
    split at goes
    · cases goes
      exact .inl ⟨rfl, rfl, fun symbol yields => by rw [stage]; cases symbol <;> exact yields⟩
    · obtain ⟨spelling, -, started⟩ := Option.bind_eq_some_iff.mp goes
      exact .inr (.of_start? (by rw [stage]; rfl) started)
  | sign chars =>
    simp only [stage] at goes
    exact pending_or_found_of_nextSign stage goes
  | quoted quote escaped chars =>
    simp only [stage] at goes
    split at goes
    · cases goes
    · split at goes
      · split at goes
        · cases goes
          refine .inr ⟨quotedSymbol quote chars.reverse, [], ?_, symbols_emit _ _⟩
          rw [stage, quotedSymbol]
          split <;> rfl
        · cases goes
      · cases goes
        exact .inl ⟨rfl, rfl, fun symbol yields => by rw [stage]; cases symbol <;> exact yields⟩
  | raw chars =>
    simp only [stage] at goes
    split at goes
    · cases goes
      exact .inr ⟨_, [], by rw [stage]; rfl, symbols_emit _ _⟩
    · cases goes
      exact .inl ⟨rfl, rfl, fun symbol yields => by rw [stage]; cases symbol <;> exact yields⟩
  | _ => rw [stage] at pending; cases pending

/-- Where the scan is between two symbols again, it has found the symbol that it was in the middle
of. -/
theorem found_of_run {chars : List Char} (pending : scan.stage.isPending = true)
    (runs : scan.run chars = some after) (between : after.stage = .between) :
    scan.Found after := by
  induction chars generalizing scan with
  | nil =>
    cases runs
    rw [between] at pending
    cases pending
  | cons char chars ih =>
    rw [run_cons] at runs
    obtain ⟨middle, passed, runs⟩ := Option.bind_eq_some_iff.mp runs
    obtain ⟨stepped, goes, rfl⟩ := Option.map_eq_some_iff.mp passed
    obtain still | ⟨symbol, more, yields, found⟩ := pending_or_found_of_step pending goes
    · have inside : ({ stepped with place := stepped.place.after char } : Scan).stage.isPending = true :=
        still.isPending
      obtain ⟨symbol, more, yields, found⟩ := ih inside runs
      exact ⟨symbol, more, still.yields symbol yields, found.trans (congrArg (· ++ _) still.symbols)⟩
    · obtain ⟨others, later⟩ := symbols_of_run runs
      refine ⟨symbol, more ++ others, yields, ?_⟩
      rw [later, ← List.cons_append, ← List.append_assoc, ← found]
      rfl

end Scan

namespace Spells

variable {ends : Bool} {char : Char} {chars : List Char} {symbols : List Symbol}

/-- The first characters tell the first symbol. -/
theorem opening {front : List Char} {stage : Stage}
    (spells : Spells ends true (front ++ chars) symbols)
    (opens : ∀ scan : Scan, scan.stage = .between →
      ∃ middle, scan.run front = some middle ∧ middle.stage = stage ∧ middle.symbols = scan.symbols)
    (pending : stage.isPending = true) :
    ∃ symbol more, symbols = symbol :: more ∧ stage.yields symbol = true := by
  obtain ⟨scan, between, canEnd, inLine⟩ := Scan.exists_between ends
  obtain ⟨after, runs, done, found⟩ := spells.runs scan between canEnd fun _ => inLine
  obtain ⟨middle, passed, rfl, same⟩ := opens scan between
  rw [Scan.run_append, passed] at runs
  obtain ⟨symbol, more, yields, found'⟩ := Scan.found_of_run pending runs done
  rw [same] at found'
  exact ⟨symbol, more, List.append_cancel_left (found.symm.trans found'), yields⟩

/-- The first character tells the first symbol. -/
theorem opening_of_start? {stage : Stage} (spells : Spells ends true (char :: chars) symbols)
    (opens : ∀ scan : Scan, scan.start? char = some { scan with start := scan.place, stage })
    (pending : stage.isPending = true) :
    ∃ symbol more, symbols = symbol :: more ∧ stage.yields symbol = true := by
  have split : Spells ends true ([char] ++ chars) symbols := spells
  refine split.opening (fun scan between => ?_) pending
  refine ⟨{ scan with start := scan.place, stage, place := scan.place.after char }, ?_, rfl, rfl⟩
  have passed : scan.next char = some { scan with
      start := scan.place, stage, place := scan.place.after char } := by
    rw [Scan.next, Scan.step, between]
    exact congrArg (Option.map _) (opens scan)
  rw [Scan.run_cons, passed]
  rfl

/-- No code has a character that starts nothing. -/
theorem false_of_start? (spells : Spells ends true (char :: chars) symbols)
    (stops : ∀ scan : Scan, scan.start? char = none) : False := by
  obtain ⟨scan, between, canEnd, inLine⟩ := Scan.exists_between ends
  obtain ⟨after, runs, -⟩ := spells.runs scan between canEnd fun _ => inLine
  have passed : scan.next char = none := by
    rw [Scan.next, Scan.step, between]
    exact congrArg (Option.map _) (stops scan)
  rw [Scan.run_cons, passed] at runs
  cases runs

end Spells

end Code

end Scriptlet
