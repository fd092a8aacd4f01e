import Scriptlet.Proofs.Code.Scanning

/-!
# Scans at other places

Two scans that stand in the middle of the same thing go on in the same way, wherever they stand
and whatever they have found before. Only a comment that states a line of other code looks at
its place, at the start of a line. So one scan of a text tells what the text spells.
-/

namespace Scriptlet

namespace Code

namespace Stage

/-- A stage without the places where lines ended. -/
def erase : Stage → Stage
  | .block star lineEnd chars => .block star (lineEnd.map fun _ => {}) chars
  | stage => stage

/-- Whether a stage holds a place. -/
def isBlock : Stage → Bool
  | .block _ _ _ => true
  | _ => false

/-- Outside of a comment over several lines, a stage holds no place. -/
theorem eq_of_erase {stage other : Stage} (same : other.erase = stage.erase)
    (plain : stage.isBlock = false) : other = stage := by
  cases stage with
  | block star lineEnd chars => cases plain
  | _ => cases other <;> first | exact same | cases same

private theorem eq_block_of_erase {stage : Stage} {star : Bool} {lineEnd : Option Place} {chars : List Char}
    (same : stage.erase = (Stage.block star lineEnd chars).erase) :
    ∃ lineEnd', stage = .block star lineEnd' chars ∧
      lineEnd'.map (fun _ => ({} : Place)) = lineEnd.map fun _ => {} := by
  cases stage with
  | block star' lineEnd' chars' =>
    obtain ⟨rfl, ended, rfl⟩ := Stage.block.inj same
    exact ⟨lineEnd', rfl, ended⟩
  | _ => cases same

end Stage

namespace Scan

/-- Two scans have found the same behind different symbols. The second does not stand at the
start of a line unless the first does, and neither does the symbol at hand start there. -/
structure Alike (front front' : List Symbol) (scan other : Scan) : Prop where
  canEnd : other.canEnd = scan.canEnd
  symbols : ∃ more, scan.symbols = front ++ more ∧ other.symbols = front' ++ more
  column : 0 < scan.place.column → 0 < other.place.column

/-- Two scans stand in the middle of the same thing. -/
structure Mirrors (front front' : List Symbol) (scan other : Scan) : Prop
    extends Alike front front' scan other where
  stage : other.stage.erase = scan.stage.erase
  start : other.stage ≠ .between → 0 < scan.start.column → 0 < other.start.column

/-- Where a scan goes on, another one goes on to something that mirrors it. -/
def Matched (front front' : List Symbol) (result result' : Option Scan) : Prop :=
  ∀ after, result = some after →
    ∃ after', result' = some after' ∧ Mirrors front front' after after'

variable {front front' : List Symbol} {scan other : Scan}

namespace Matched

/-- A scan that fails need not be matched. -/
protected theorem none {result' : Option Scan} : Matched front front' none result' :=
  fun _ goes => nomatch goes

/-- Scans that mirror each other match. -/
protected theorem some (mirrors : Mirrors front front' scan other) :
    Matched front front' (some scan) (some other) := by
  rintro _ ⟨⟩
  exact ⟨other, rfl, mirrors⟩

/-- A choice by the same question. -/
protected theorem ite {chosen : Prop} [Decidable chosen] {yes yes' no no' : Option Scan}
    (first : Matched front front' yes yes') (second : Matched front front' no no') :
    Matched front front' (if chosen then yes else no) (if chosen then yes' else no') := by
  split
  · exact first
  · exact second

/-- Scans that match go on in ways that mirror each other. -/
protected theorem map {result result' : Option Scan} {goOn goOn' : Scan → Scan}
    (matched : Matched front front' result result')
    (goes : ∀ {scan other}, Mirrors front front' scan other →
      Mirrors front front' (goOn scan) (goOn' other)) :
    Matched front front' (result.map goOn) (result'.map goOn') := by
  intro after found
  obtain ⟨before, rfl, rfl⟩ := Option.map_eq_some_iff.mp found
  obtain ⟨before', rfl, mirrors⟩ := matched before rfl
  exact ⟨goOn' before', rfl, goes mirrors⟩

end Matched

namespace Alike

/-- A symbol that is found by both scans. -/
theorem emit (alike : Alike front front' scan other) (symbol : Symbol) :
    Mirrors front front' (scan.emit symbol) (other.emit symbol) where
  canEnd := rfl
  symbols := by
    obtain ⟨more, found, found'⟩ := alike.symbols
    exact ⟨more ++ [symbol], by simp [found], by simp [found']⟩
  column := alike.column
  stage := rfl
  start away := absurd rfl away

/-- The end of a line, for both scans. -/
theorem endLine (alike : Alike front front' scan other) (place place' : Place) :
    Mirrors front front' (scan.endLine place) (other.endLine place') := by
  have same : (other.found.head?.map (·.symbol.canEnd)).getD false =
      (scan.found.head?.map (·.symbol.canEnd)).getD false := alike.canEnd
  unfold Scan.endLine
  rw [same]
  split
  · have moved : Alike front front' { scan with start := place } { other with start := place' } :=
      ⟨alike.canEnd, alike.symbols, alike.column⟩
    exact moved.emit .lineEnd
  · exact ⟨⟨alike.canEnd, alike.symbols, alike.column⟩, rfl, fun away => absurd rfl away⟩

/-- Both start something at their places. -/
theorem opened (alike : Alike front front' scan other) (stage : Stage) :
    Matched front front' (some { scan with start := scan.place, stage })
      (some { other with start := other.place, stage }) :=
  .some ⟨⟨alike.canEnd, alike.symbols, alike.column⟩, rfl, fun _ => alike.column⟩

/-- A character between two symbols starts the same for both scans. -/
theorem start? (alike : Alike front front' scan other) (char : Char) :
    Matched front front' (scan.start? char) (other.start? char) := by
  have moved : Alike front front' { scan with start := scan.place }
      { other with start := other.place } := ⟨alike.canEnd, alike.symbols, alike.column⟩
  exact .ite (.some (moved.endLine _ _)) <| .ite (alike.opened _) <| .ite (alike.opened _) <|
    .ite (alike.opened _) <| .ite (alike.opened _) <| .ite (alike.opened _) <|
    .ite (alike.opened _) <| .ite (alike.opened _) .none

end Alike

namespace Mirrors

/-- Both go on with what they are in the middle of. -/
theorem goOn (mirrors : Mirrors front front' scan other) (away : other.stage ≠ .between)
    {stage stage' : Stage} (same : stage'.erase = stage.erase) :
    Matched front front' (some { scan with stage }) (some { other with stage := stage' }) :=
  .some ⟨⟨mirrors.canEnd, mirrors.symbols, mirrors.column⟩, same, fun _ => mirrors.start away⟩

/-- A sign goes on in the same way for both scans. -/
theorem nextSign (mirrors : Mirrors front front' scan other) (away : other.stage ≠ .between)
    (chars : List Char) (char : Char) :
    Matched front front' (scan.nextSign chars char) (other.nextSign chars char) :=
  .ite (mirrors.goOn away rfl) <| .ite (mirrors.goOn away rfl) <|
    (mirrors.emit _).start? char

/-- A comment that is a mistake for the second scan is one for the first. -/
theorem remark (mirrors : Mirrors front front' scan other) (away : other.stage ≠ .between)
    (chars : List Char) : Matched front front' (scan.remark chars) (other.remark chars) := by
  have states (text : String) (stated : Comment.statesLine ⟨text, other.start⟩ = true) :
      Comment.statesLine ⟨text, scan.start⟩ = true := by
    simp only [Comment.statesLine, Bool.and_eq_true, Bool.or_eq_true, decide_eq_true_eq] at stated ⊢
    have inside := mirrors.start away
    exact ⟨stated.1, stated.2.imp_right fun first => by omega⟩
  intro after remarked
  simp only [Scan.remark] at remarked ⊢
  split at remarked
  · cases remarked
  · next accurate =>
    cases remarked
    rw [if_neg]
    · exact ⟨_, rfl, ⟨mirrors.canEnd, mirrors.symbols, mirrors.column⟩, rfl,
        fun away => absurd rfl away⟩
    · simp only [Bool.and_eq_true, Bool.not_eq_true'] at accurate ⊢
      exact fun both => accurate ⟨states _ both.1, both.2⟩

/-- Scans that mirror each other take a character in the same way. -/
theorem step (mirrors : Mirrors front front' scan other) (char : Char) :
    Matched front front' (scan.step char) (other.step char) := by
  have same := mirrors.stage
  unfold Scan.step
  cases stage : scan.stage with
  | between =>
    rw [stage] at same
    rw [Stage.eq_of_erase same rfl]
    exact mirrors.start? char
  | name chars =>
    rw [stage] at same
    have stage' := Stage.eq_of_erase same rfl
    rw [stage']
    exact .ite (mirrors.goOn (by rw [stage']; nofun) rfl) ((mirrors.emit _).start? char)
  | number chars =>
    rw [stage] at same
    have stage' := Stage.eq_of_erase same rfl
    rw [stage']
    refine .ite (mirrors.goOn (by rw [stage']; nofun) rfl) ?_
    cases Numeral.spelling? chars.reverse with
    | none => exact .none
    | some spelling => exact (mirrors.emit _).start? char
  | sign chars =>
    rw [stage] at same
    have stage' := Stage.eq_of_erase same rfl
    rw [stage']
    exact mirrors.nextSign (by rw [stage']; nofun) chars char
  | quoted quote escaped chars =>
    rw [stage] at same
    have stage' := Stage.eq_of_erase same rfl
    rw [stage']
    exact .ite .none <| .ite (.ite (.some (mirrors.emit _)) .none) <|
      mirrors.goOn (by rw [stage']; nofun) rfl
  | raw chars =>
    rw [stage] at same
    have stage' := Stage.eq_of_erase same rfl
    rw [stage']
    exact .ite (.some (mirrors.emit _)) (mirrors.goOn (by rw [stage']; nofun) rfl)
  | slash =>
    rw [stage] at same
    have stage' := Stage.eq_of_erase same rfl
    have away : other.stage ≠ .between := by rw [stage']; nofun
    rw [stage']
    exact .ite (mirrors.goOn away rfl) <| .ite (mirrors.goOn away rfl) <|
      mirrors.nextSign away ['/'] char
  | comment chars =>
    rw [stage] at same
    have stage' := Stage.eq_of_erase same rfl
    have away : other.stage ≠ .between := by rw [stage']; nofun
    rw [stage']
    exact .ite ((mirrors.remark away _).map fun mirrors => mirrors.endLine _ _)
      (mirrors.goOn away rfl)
  | block star lineEnd chars =>
    rw [stage] at same
    obtain ⟨lineEnd', stage', ended⟩ := Stage.eq_block_of_erase same
    have away : other.stage ≠ .between := by rw [stage']; nofun
    rw [stage']
    refine .ite ((mirrors.remark away _).map fun mirrors => ?_) (mirrors.goOn away ?_)
    · cases lineEnd with
      | none =>
        obtain rfl : lineEnd' = none := by simpa using ended
        exact mirrors
      | some place =>
        obtain ⟨place', rfl, -⟩ := Option.map_eq_some_iff.mp ended
        exact mirrors.endLine _ _
    · have goesOn (place place' : Place) :
          (if char = '\n' then lineEnd' <|> some place' else lineEnd').map (fun _ => ({} : Place)) =
            (if char = '\n' then lineEnd <|> some place else lineEnd).map fun _ => {} := by
        split
        · cases lineEnd <;> cases lineEnd' <;> simp at ended ⊢
        · exact ended
      exact congrArg (Stage.block _ · _) (goesOn _ _)

/-- Scans that mirror each other pass a character in the same way. -/
theorem next (mirrors : Mirrors front front' scan other) (char : Char) :
    Matched front front' (scan.next char) (other.next char) :=
  (mirrors.step char).map fun mirrors => ⟨⟨mirrors.canEnd, mirrors.symbols, fun inside => by
    by_cases line : char = '\n'
    · rw [line] at inside
      exact absurd inside (Nat.lt_irrefl 0)
    · exact column_after line⟩, mirrors.stage, mirrors.start⟩

/-- What one scan makes of some characters, another one makes of them too. -/
theorem run (mirrors : Mirrors front front' scan other) (chars : List Char) :
    Matched front front' (scan.run chars) (other.run chars) := by
  induction chars generalizing scan other with
  | nil => exact .some mirrors
  | cons char chars ih =>
    intro after runs
    rw [run_cons] at runs
    obtain ⟨middle, passed, runs⟩ := Option.bind_eq_some_iff.mp runs
    obtain ⟨middle', passed', mirrors⟩ := mirrors.next char middle passed
    obtain ⟨after', runs', mirrors⟩ := ih mirrors after runs
    exact ⟨after', by rw [run_cons, passed', Option.bind_some, runs'], mirrors⟩

end Mirrors

/-- There is a scan between two symbols, behind one that can end something or cannot. -/
theorem exists_between (ends : Bool) :
    ∃ scan : Scan, scan.stage = .between ∧ scan.canEnd = ends ∧ 0 < scan.place.column := by
  cases ends with
  | false => exact ⟨{ place := { column := 1 } }, rfl, rfl, Nat.one_pos⟩
  | true =>
    exact ⟨{ place := { column := 1 }, found := [⟨.name "", {}, []⟩] }, rfl, rfl, Nat.one_pos⟩

end Scan

namespace Spells

variable {ends : Bool} {chars : List Char} {symbols : List Symbol}

/-- One scan tells what some characters spell that do not stand at the start of a line. -/
theorem of_scan {scan after : Scan} (allowed : chars.any Lexemes.excluded.contains = false)
    (between : scan.stage = .between) (canEnd : scan.canEnd = ends)
    (runs : scan.run chars = some after) (done : after.stage = .between)
    (found : after.symbols = scan.symbols ++ symbols) : Spells ends true chars symbols where
  allowed := allowed
  runs other otherBetween otherCanEnd otherInLine := by
    have mirrors : Scan.Mirrors scan.symbols other.symbols scan other :=
      ⟨⟨otherCanEnd.trans canEnd.symm, ⟨[], by simp⟩, fun _ => otherInLine rfl⟩,
        by rw [between, otherBetween], fun away => absurd otherBetween away⟩
    obtain ⟨after', runs', mirrors⟩ := mirrors.run chars after runs
    obtain ⟨more, found', other'⟩ := mirrors.symbols
    have same := mirrors.stage
    rw [done] at same
    obtain rfl : symbols = more := List.append_cancel_left (found.symm.trans found')
    exact ⟨after', runs', Stage.eq_of_erase same rfl, other'⟩

/-- What is spelled behind characters that are passed. -/
theorem of_passes {ends' inLine : Bool} {front : List Char} {first : List Symbol}
    (spells : Spells ends true (front ++ chars) symbols)
    (passes : Passes ends ends' inLine front chars first) :
    ∃ rest, symbols = first ++ rest ∧ Spells ends' true chars rest := by
  obtain ⟨scan, between, canEnd, inLine⟩ := Scan.exists_between ends
  obtain ⟨after, runs, done, found⟩ := spells.runs scan between canEnd fun _ => inLine
  obtain ⟨middle, passed, between', canEnd', -, found'⟩ := passes scan between canEnd
  rw [passed] at runs
  have mirrors : Scan.Mirrors middle.symbols middle.symbols middle middle :=
    ⟨⟨rfl, ⟨[], by simp⟩, id⟩, rfl, fun away => absurd between' away⟩
  obtain ⟨_, -, mirrors⟩ := mirrors.run chars after runs
  obtain ⟨rest, later, -⟩ := mirrors.symbols
  have allowed := spells.allowed
  rw [List.any_append, Bool.or_eq_false_iff] at allowed
  refine ⟨rest, ?_, of_scan allowed.2 between' canEnd' runs done later⟩
  rw [found, found', List.append_assoc] at later
  exact List.append_cancel_left later

end Spells

end Code

end Scriptlet
