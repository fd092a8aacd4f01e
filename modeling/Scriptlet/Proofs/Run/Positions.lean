import Scriptlet.Proofs.Run.Relocation
import Scriptlet.Proofs.Syntax.Parsed
import Scriptlet.Proofs.Syntax.RoundTrip

/-! # Runs and positions

Positions reach a run only through the places that errors and records name.
Erasing the positions of a program erases exactly these places
(`execute_erase`), so programs that are equal up to positions run alike. Hence a
parsed program and its printed and reparsed form mean the same.
-/

namespace Scriptlet

/-- The failure without the place it names. -/
def RunFailure.erase : RunFailure → RunFailure
  | .runtime error => .runtime { error with span := {} }
  | failure => failure

/-- The ending without the place that its failure names. -/
def Ending.erase : Ending → Ending
  | .failed failure => .failed failure.erase
  | ending => ending

/-- The state without the places that its records name. -/
def RunState.erase (state : RunState) : RunState :=
  { state with records := state.records.map fun record => { record with position := {} } }

/-- The result without the places that it names. -/
def RunResult.erase (result : RunResult) : RunResult where
  state := result.state.erase
  ending := result.ending.erase

/-- Erasing is a move of all positions to one place. -/
theorem RunResult.relocate_erase (result : RunResult) :
    result.relocate (fun _ => {}) = result.erase := by
  obtain ⟨state, ending⟩ := result
  cases ending with
  | finished => rfl
  | failed failure => cases failure <;> rfl
  | unfinished => rfl

/-- **Runs without positions.** Statements are executed alike wherever they stand,
step by step. -/
theorem execute_erase (steps : Nat) (statements : List Stmt) (state : RunState) :
    execute steps (Stmt.eraseAll statements) state.erase =
      (execute steps statements state).erase := by
  rw [← Stmt.relocateAll_erase, ← RunResult.relocate_erase, ← execute_relocate]
  rfl

/-- Two results that differ at most in the places that they name: the outputs, the
variables and the actions recorded are equal, and the runs end alike. -/
structure RunResult.Agrees (left right : RunResult) : Prop where
  output : left.state.output = right.state.output
  env : left.state.env = right.state.env
  actions : left.state.trace.map (·.action) = right.state.trace.map (·.action)
  ending : left.ending.erase = right.ending.erase

/-- Results that are equal without positions agree. -/
theorem RunResult.agrees_of_erase_eq {left right : RunResult} (same : left.erase = right.erase) :
    left.Agrees right := by
  have states : left.state.erase = right.state.erase := congrArg RunResult.state same
  have records :
      left.state.erase.trace.map (·.action) = right.state.erase.trace.map (·.action) := by
    rw [states]
  have output : left.state.erase.output = right.state.erase.output := by rw [states]
  have env : left.state.erase.env = right.state.erase.env := by rw [states]
  refine ⟨output, env, ?_, congrArg RunResult.ending same⟩
  simpa [RunState.erase, RunState.trace, Function.comp_def] using records

/-- Programs that are equal up to positions run alike. -/
theorem Program.agrees_of_erase_eq {left right : Program} (same : left.erase = right.erase)
    (env : Environment) (room : Option Nat) (steps : Nat) :
    (left.run env room steps).Agrees (right.run env room steps) := by
  apply RunResult.agrees_of_erase_eq
  rw [Program.run, Program.run, ← execute_erase, ← execute_erase]
  exact congrArg (execute steps · _) same

/-- **Formatting preserves meaning.** Whatever a source is parsed as can be
printed; the text is accepted again under any file name; and the program parsed
from it runs like the first one in every environment, with every limit on the
output and for every number of steps. -/
theorem format_preserves_runs {input : Input} {file : String} {tokens : List Token}
    {program : Program} (split : tokenize input file = .ok tokens)
    (read : parse tokens = .ok program) (again : String) :
    ∃ text others reparsed, program.format = .ok text ∧
      tokenize { bytes := text } again = .ok others ∧ parse others = .ok reparsed ∧
      ∀ env room steps,
        (Program.run reparsed env room steps).Agrees (program.run env room steps) := by
  have wellFormed := wellFormed_of_parse split read
  obtain ⟨text, formatted, splitAgain⟩ := wellFormed.tokenize_format
  obtain ⟨reparsed, readAgain, same⟩ := wellFormed.parse_printedTokens again
  exact ⟨text, program.printedTokens again, reparsed, formatted, splitAgain again, readAgain,
    Program.agrees_of_erase_eq same⟩

/-- A source with parentheses, a leading zero and a byte that encodes no
character. -/
def looseSource : Input where
  bytes := Bytes.ofString "x=7-(y-01);print\"" ++ 255 :: Bytes.ofString "\";"

/-- A source whose layout is not the usual one. -/
theorem looseSource_format_preserves_runs :
    ∃ tokens program, tokenize looseSource "main.peri" = .ok tokens ∧
      parse tokens = .ok program ∧
      ∃ text others reparsed, Program.format program = .ok text ∧
        tokenize { bytes := text } "again.peri" = .ok others ∧ parse others = .ok reparsed ∧
        ∀ env room steps,
          (Program.run reparsed env room steps).Agrees (Program.run program env room steps) := by
  have accepted : ((tokenize looseSource "main.peri").toOption.bind
      fun tokens => (parse tokens).toOption).isSome := by decide +kernel
  cases split : tokenize looseSource "main.peri" with
  | error failure =>
      rw [split] at accepted
      exact nomatch accepted
  | ok tokens =>
      rw [split] at accepted
      cases read : parse tokens with
      | error failure =>
          simp only [Except.toOption, Option.bind_some, read] at accepted
          exact nomatch accepted
      | ok program =>
          exact ⟨tokens, program, rfl, read, format_preserves_runs split read "again.peri"⟩

end Scriptlet
