import Scriptlet.Proofs.Syntax.Parsed
import Scriptlet.Proofs.Syntax.RoundTrip

/-! # The canonical text of a source

Printing looks at no position (`Program.format_erase`), and what was printed is parsed
as the same program up to positions. So two well-formed programs are printed alike
exactly if they differ in positions only (`Program.WellFormed.format_eq_iff`): no choice
of indentation, blocks or strings lets different programs look the same. Hence the
printed text of a source is a canonical form of it.
-/

namespace Scriptlet

namespace Expr

/-- Spans do not matter for parentheses. -/
theorem needsParens_erase (outer : Operator) (isRight : Bool) (expr : Expr) :
    expr.erase.needsParens outer isRight = expr.needsParens outer isRight := by
  cases expr <;> rfl

/-- Spans do not matter for the text of an expression. -/
theorem format_erase (expr : Expr) : expr.erase.format = expr.format := by
  induction expr with
  | binary left operator right span ihLeft ihRight =>
      rw [erase, format, format, ihLeft, ihRight, needsParens_erase, needsParens_erase]
  | _ => rfl

end Expr

namespace Stmt

mutual

/-- Spans do not matter for the text of a statement. -/
theorem format_erase (indent : Nat) :
    ∀ statement : Stmt, statement.erase.format indent = statement.format indent
  | .assign name value span => by rw [erase, format, format, Expr.format_erase]
  | .print value span => by rw [erase, format, format, Expr.format_erase]
  | .ifThen condition body span => by
      rw [erase, format, format, Expr.format_erase, formatAll_eraseAll (indent + 1) body]
  | .ifElse condition body otherwise span => by
      rw [erase, format, format, Expr.format_erase, formatAll_eraseAll (indent + 1) body,
        formatAll_eraseAll (indent + 1) otherwise]
  | .whileDo condition body span => by
      rw [erase, format, format, Expr.format_erase, formatAll_eraseAll (indent + 1) body]
  | .gap => rfl

/-- Statements are printed alike wherever they stand. -/
theorem formatAll_eraseAll (indent : Nat) :
    ∀ statements : List Stmt, formatAll indent (eraseAll statements) = formatAll indent statements
  | [] => rfl
  | statement :: others => by
      rw [eraseAll, formatAll, formatAll, format_erase indent statement,
        formatAll_eraseAll indent others]

end

end Stmt

namespace Program

/-- **Printing ignores positions.** -/
theorem format_erase (program : Program) : program.erase.format = program.format :=
  Stmt.formatAll_eraseAll 0 program

/-- Well-formed programs are printed alike exactly if they are equal up to positions.
One direction looks at the printer alone; in the other the common text is split and
parsed, and what comes out is both programs. -/
theorem WellFormed.format_eq_iff {left right : Program} (leftFormed : left.WellFormed)
    (rightFormed : right.WellFormed) : left.format = right.format ↔ left.erase = right.erase := by
  constructor
  · intro same
    obtain ⟨text, printed, split⟩ := leftFormed.tokenize_format
    obtain ⟨other, printedOther, splitOther⟩ := rightFormed.tokenize_format
    obtain rfl : text = other := Except.ok.inj (printed.symm.trans (same.trans printedOther))
    have tokens : left.printedTokens "" = right.printedTokens "" :=
      Except.ok.inj ((split "").symm.trans (splitOther ""))
    obtain ⟨first, readLeft, eraseLeft⟩ := leftFormed.parse_printedTokens ""
    obtain ⟨second, readRight, eraseRight⟩ := rightFormed.parse_printedTokens ""
    rw [tokens] at readLeft
    obtain rfl : first = second := Except.ok.inj (readLeft.symm.trans readRight)
    rw [← eraseLeft, ← eraseRight]
  · intro same
    rw [← left.format_erase, ← right.format_erase, same]

/-- The program that a source is read as, if it is accepted. -/
def ofSource? (source : Bytes) (file : String) : Option Program :=
  (tokenize { bytes := source } file).toOption.bind fun tokens => (parse tokens).toOption

/-- The canonical text of a source, if it is accepted: what its program is printed
as. -/
def canonical? (source : Bytes) (file : String) : Option Bytes :=
  (ofSource? source file).bind fun program => program.format.toOption

variable {source : Bytes} {file : String} {program : Program}

/-- A program is read from a source if its tokens are parsed as the program. -/
theorem ofSource?_eq_some_iff :
    ofSource? source file = some program ↔
      ∃ tokens, tokenize { bytes := source } file = .ok tokens ∧ parse tokens = .ok program := by
  rw [ofSource?]
  cases split : tokenize { bytes := source } file with
  | error failure => simp [Except.toOption]
  | ok tokens =>
      cases read : parse tokens with
      | error failure => simp [Except.toOption, read]
      | ok result => simp [Except.toOption, read]

/-- A program that was read is well formed. -/
theorem wellFormed_of_ofSource? (read : ofSource? source file = some program) :
    program.WellFormed := by
  obtain ⟨tokens, split, parsed⟩ := ofSource?_eq_some_iff.mp read
  exact wellFormed_of_parse split parsed

/-- An accepted source has a canonical text, which is the printed text of its
program. -/
theorem exists_canonical?_of_ofSource? (read : ofSource? source file = some program) :
    ∃ text, program.format = .ok text ∧ canonical? source file = some text := by
  obtain ⟨text, printed, _⟩ := (wellFormed_of_ofSource? read).tokenize_format
  refine ⟨text, printed, ?_⟩
  rw [canonical?, read, Option.bind_some, printed]
  rfl

/-- What a printed program is read as again differs from it in positions only. -/
theorem WellFormed.exists_ofSource? (formed : program.WellFormed) {text : Bytes}
    (printed : program.format = .ok text) (again : String) :
    ∃ reread, ofSource? text again = some reread ∧ reread.erase = program.erase := by
  obtain ⟨other, printedOther, split⟩ := formed.tokenize_format
  obtain rfl : text = other := Except.ok.inj (printed.symm.trans printedOther)
  obtain ⟨reread, parsed, same⟩ := formed.parse_printedTokens again
  exact ⟨reread, ofSource?_eq_some_iff.mpr ⟨_, split again, parsed⟩, same⟩

/-- **Printing computes a canonical form.** An accepted source has a canonical text,
which is its own canonical text under any file name; and two accepted sources have the
same canonical text exactly if their programs are equal up to positions. -/
theorem canonical_form (read : ofSource? source file = some program) :
    (∃ text, canonical? source file = some text ∧
      ∀ again, canonical? text again = some text) ∧
      ∀ other name second, ofSource? other name = some second →
        (canonical? source file = canonical? other name ↔ program.erase = second.erase) := by
  have formed := wellFormed_of_ofSource? read
  obtain ⟨text, printed, canonical⟩ := exists_canonical?_of_ofSource? read
  constructor
  · refine ⟨text, canonical, ?_⟩
    intro again
    obtain ⟨reread, accepted, same⟩ := formed.exists_ofSource? printed again
    rw [canonical?, accepted, Option.bind_some, ← reread.format_erase, same,
      program.format_erase, printed]
    rfl
  · intro other name second readOther
    obtain ⟨otherText, printedOther, canonicalOther⟩ := exists_canonical?_of_ofSource? readOther
    rw [← formed.format_eq_iff (wellFormed_of_ofSource? readOther), canonical, canonicalOther,
      printed, printedOther, Option.some.injEq, Except.ok.injEq]

/-- Redundant parentheses, a leading zero, an empty alternative and a byte that encodes
no character. -/
def crampedSource : Bytes :=
  Bytes.ofString ("if((x)*(y-01))" ++ inBraces "" ++ "else" ++ inBraces "" ++ "print\"") ++
    255 :: Bytes.ofString "\";"

/-- The cramped source with blanks and with the character that a broken byte is read
as. -/
def spreadSource : Bytes :=
  Bytes.ofString ("if (x * (y - 1)) " ++ inBraces "\n" ++ "\r\nelse\t" ++ inBraces " " ++
    " print \"\ufffd\" ;")

/-- Two sources with the same tree have the same canonical form. -/
theorem crampedSource_canonical_form :
    ∃ program second, ofSource? crampedSource "cramped.peri" = some program ∧
      ofSource? spreadSource "spread.peri" = some second ∧ program.erase = second.erase ∧
      ∃ text, canonical? crampedSource "cramped.peri" = some text ∧
        canonical? text "again.peri" = some text := by
  obtain ⟨program, read⟩ := Option.isSome_iff_exists.mp
    (show (ofSource? crampedSource "cramped.peri").isSome by decide +kernel)
  obtain ⟨second, readOther⟩ := Option.isSome_iff_exists.mp
    (show (ofSource? spreadSource "spread.peri").isSome by decide +kernel)
  obtain ⟨⟨text, canonical, stable⟩, compared⟩ := canonical_form read
  refine ⟨program, second, read, readOther, ?_, text, canonical, stable "again.peri"⟩
  exact (compared spreadSource "spread.peri" second readOther).mp (by decide +kernel)

end Program

end Scriptlet
