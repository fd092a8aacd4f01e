import Scriptlet.Proofs.Syntax.Language
import Scriptlet.Proofs.Syntax.Printing

/-! # Parsing what was printed

The tokens of a printed tree derive the tree again, up to positions. Parentheses
are printed exactly where an operand would otherwise be read by a looser rule than
its place allows (`Expr.operandLevel_rank_le`), so no nesting of operators is
regrouped. With the lexer and the parser this gives back every well-formed program
from its printed text.
-/

namespace Scriptlet

open Fragment Grammar

namespace Fragment

/-- A marked part of a source is a token. -/
theorem tokensFrom_cons_mark (position : Position) (kind : TokenKind) (word : String)
    (others : List Fragment) :
    tokensFrom position (mark kind word :: others) =
      ⟨kind, word, ⟨position, position.afterAll (word.toList.map Glyph.ofChar)⟩⟩ ::
        tokensFrom (position.afterAll (word.toList.map Glyph.ofChar)) others := by
  have spelled : Glyph.spelling (word.toList.map Glyph.ofChar) = word := by
    rw [Glyph.spelling, Glyph.chars_map_ofChar, String.ofList_toList]
  simp only [tokensFrom, mark, tokens, glyphs, spelled, List.singleton_append]

/-- A skipped character moves the position on. -/
theorem tokensFrom_cons_skip (position : Position) (char : Char) (others : List Fragment) :
    tokensFrom position (skip char :: others) =
      tokensFrom (position.after (Glyph.ofChar char)) others :=
  rfl

/-- The tokens of a line are those of what stands on it. -/
theorem tokensFrom_line (position : Position) (indent : Nat) (content : List Fragment) :
    ∃ moved, tokensFrom position (line indent content) = tokensFrom moved content := by
  refine ⟨position.afterAll (text (List.replicate indent (skip '\t'))), ?_⟩
  have tabs := tokensFrom_map_blank position (List.replicate indent (Glyph.ofChar '\t'))
  rw [List.map_replicate] at tabs
  rw [line, tokensFrom_append, tokensFrom_append, skip, tabs, List.nil_append]
  exact List.append_nil _

end Fragment

namespace Grammar

/-- How tightly a rule binds. -/
def Level.rank : Level → Nat
  | .expression => 0
  | .term => 1
  | .factor => 2

/-- No level is tighter than that of factors. -/
theorem Level.rank_le_factor (level : Level) : level.rank ≤ Level.factor.rank := by
  cases level <;> decide

/-- What a rule derives, every looser rule derives too. -/
theorem DerivesExpr.loosen {tight loose : Level} {tokens : List Token} {value : Expr}
    (derived : DerivesExpr tight tokens value) (looser : loose.rank ≤ tight.rank) :
    DerivesExpr loose tokens value := by
  cases tight with
  | expression =>
      cases loose with
      | expression => exact derived
      | term => exact absurd looser (by decide)
      | factor => exact absurd looser (by decide)
  | term =>
      cases loose with
      | expression => exact .term derived
      | term => exact derived
      | factor => exact absurd looser (by decide)
  | factor =>
      cases loose with
      | expression => exact .term (.factor derived)
      | term => exact .factor derived
      | factor => exact derived

end Grammar

/-- The rule that reads the outcome of an operator. -/
def Operator.level : Operator → Level
  | .mul => .term
  | .div => .term
  | _ => .expression

/-- The rule that reads an operand of an operator. -/
def Operator.operandLevel (operator : Operator) (isRight : Bool) : Level :=
  match operator.level, isRight with
  | .expression, false => .expression
  | .expression, true => .term
  | _, false => .term
  | _, true => .factor

/-- The rule that reads the outcome of an operator is as tight as the operator
binds. -/
theorem Operator.rank_level (operator : Operator) :
    operator.level.rank + 1 = operator.precedence := by
  cases operator <;> rfl

/-- A left operand is read by the rule of its operator and a right operand by the
next tighter one. -/
theorem Operator.rank_operandLevel (operator : Operator) (isRight : Bool) :
    (operator.operandLevel isRight).rank + 1 = operator.precedence + isRight.toNat := by
  cases operator <;> cases isRight <;> rfl

namespace Expr

/-- The tightest rule that reads an expression. -/
def level : Expr → Level
  | .binary _ operator _ _ => operator.level
  | _ => .factor

/-- An operand that is printed without parentheses is read by a rule that is tight
enough for its place. -/
theorem operandLevel_rank_le {outer : Operator} {isRight : Bool} {expr : Expr}
    (bare : expr.needsParens outer isRight = false) :
    (outer.operandLevel isRight).rank ≤ expr.level.rank := by
  cases expr with
  | binary left inner right span =>
      have place := outer.rank_operandLevel isRight
      have bound := inner.rank_level
      simp only [needsParens, Bool.or_eq_false_iff, decide_eq_false_iff_not, Nat.not_lt] at bare
      obtain ⟨loose, strict⟩ := bare
      rw [level]
      cases isRight with
      | false =>
          rw [Bool.toNat_false] at place
          omega
      | true =>
          -- A right operand of equal precedence would be grouped to the left.
          rw [Bool.true_and, beq_eq_false_iff_ne] at strict
          rw [Bool.toNat_true] at place
          omega
  | number => exact Level.rank_le_factor _
  | string => exact Level.rank_le_factor _
  | variableRef => exact Level.rank_le_factor _
  | gap => exact Level.rank_le_factor _

/-- Fragments derive an expression by a rule, up to positions, wherever they
stand. -/
def SpelledBy (expr : Expr) (level : Level) (content : List Fragment) : Prop :=
  ∀ position, ∃ value, DerivesExpr level (tokensFrom position content) value ∧
    value.erase = expr.erase

/-- What is spelled on a tight level is spelled on a looser one. -/
theorem SpelledBy.loosen {expr : Expr} {tight loose : Level} {content : List Fragment}
    (spelled : expr.SpelledBy tight content) (looser : loose.rank ≤ tight.rank) :
    expr.SpelledBy loose content := by
  intro position
  obtain ⟨value, derived, same⟩ := spelled position
  exact ⟨value, derived.loosen looser, same⟩

/-- Between parentheses, an expression is spelled on every level. -/
theorem SpelledBy.parens {expr : Expr} {content : List Fragment} {tight : Level}
    (spelled : expr.SpelledBy tight content) (loose : Level) :
    expr.SpelledBy loose (Fragment.wrap true content) := by
  intro position
  rw [Fragment.wrap, if_pos rfl, tokensFrom_cons_mark, tokensFrom_append, tokensFrom_cons_mark]
  obtain ⟨value, derived, same⟩ := spelled (position.afterAll ("(".toList.map Glyph.ofChar))
  have inside : DerivesExpr .expression _ value := derived.loosen (Nat.zero_le _)
  exact ⟨value, (DerivesExpr.parens rfl inside rfl).loosen (Level.rank_le_factor loose), same⟩

/-- A printed operand is read by the rule for its place. -/
theorem SpelledBy.operand {expr : Expr} {content : List Fragment}
    (spelled : expr.SpelledBy expr.level content) (outer : Operator) (isRight : Bool) :
    expr.SpelledBy (outer.operandLevel isRight)
      (Fragment.wrap (expr.needsParens outer isRight) content) := by
  cases parens : expr.needsParens outer isRight with
  | false => exact spelled.loosen (operandLevel_rank_le parens)
  | true => exact spelled.parens _

/-- Two operands with the sign of an operator between them derive the binary
expression. -/
theorem derives_binary {operator : Operator} (known : operator ∈ [Operator.add, .sub, .mul, .div])
    {left right : List Token} {first second : Expr} {sign : Token}
    (kind : sign.kind = operator.kind)
    (before : DerivesExpr (operator.operandLevel false) left first)
    (behind : DerivesExpr (operator.operandLevel true) right second) :
    DerivesExpr operator.level (left ++ sign :: right)
      (.binary first operator second (first.span.join second.span)) := by
  simp only [List.mem_cons, List.not_mem_nil, or_false] at known
  rcases known with rfl | rfl | rfl | rfl
  · exact .sum before (by simp [kind, Operator.kind]) behind
  · exact .sum before (by simp [kind, Operator.kind]) behind
  · exact .product before (by simp [kind, Operator.kind]) behind
  · exact .product before (by simp [kind, Operator.kind]) behind

/-- A printed expression is read by its tightest rule. The induction follows the
tree: operands are read by the rules for their places, in parentheses or without. -/
theorem spelledBy_fragments {expr : Expr} (writable : expr.Every Expr.Writable) :
    expr.SpelledBy expr.level expr.fragments := by
  induction expr with
  | number value span =>
      intro position
      refine ⟨_, DerivesExpr.number rfl ?_, rfl⟩
      rw [Glyph.spelling, Glyph.chars_map_ofChar, String.toList_ofList]
      exact Decimal.literal_chars value.toInt
  | string value span =>
      intro position
      obtain ⟨content, rfl, _⟩ := writable
      have quoted : Bytes.ofString (Glyph.spelling (Glyph.ofChar '"' ::
          (Glyph.decode (Bytes.ofChars content) ++ [Glyph.ofChar '"']))) =
            34 :: (Bytes.ofChars content ++ [34]) := by
        rw [Glyph.decode_ofChars, Glyph.spelling, Glyph.chars_cons, Glyph.chars_append,
          Glyph.chars_map_ofChar, Bytes.ofString, String.toList_ofList, Bytes.ofChars_cons,
          Bytes.ofChars_append]
        rfl
      exact ⟨_, DerivesExpr.string rfl quoted, rfl⟩
  | variableRef name span =>
      intro position
      rw [fragments, tokensFrom_cons_mark]
      exact ⟨_, DerivesExpr.identifier rfl, rfl⟩
  | binary left operator right span ihLeft ihRight =>
      obtain ⟨known, writableLeft, writableRight⟩ := writable
      intro position
      rw [fragments, tokensFrom_append, tokensFrom_cons_skip, tokensFrom_cons_mark,
        tokensFrom_cons_skip]
      obtain ⟨first, before, sameLeft⟩ := (ihLeft writableLeft).operand operator false position
      obtain ⟨second, behind, sameRight⟩ := (ihRight writableRight).operand operator true _
      refine ⟨_, derives_binary known rfl before behind, ?_⟩
      rw [erase, erase, sameLeft, sameRight]
  | gap => exact writable.elim

/-- Every expression that can be written is spelled by its fragments. -/
theorem spelledBy_expression {expr : Expr} (writable : expr.Every Expr.Writable) :
    expr.SpelledBy .expression expr.fragments :=
  (spelledBy_fragments writable).loosen (Nat.zero_le _)

end Expr

namespace Stmt

/-- The tokens of the line that opens a block. -/
theorem tokensFrom_opening {condition : Expr} (writable : condition.Every Expr.Writable)
    (indent : Nat) (kind : TokenKind) (word : String) (position : Position) :
    ∃ first test brace value,
      tokensFrom position (openingFragments indent kind word condition) =
        first :: (test ++ [brace]) ∧
      first.kind = kind ∧ DerivesCondition test value ∧ value.erase = condition.erase ∧
      brace.kind = .leftBrace := by
  obtain ⟨moved, opened⟩ := tokensFrom_line position indent
    (mark kind word :: skip ' ' :: mark .leftParen "(" ::
      (condition.fragments ++ [mark .rightParen ")", skip ' ', mark .leftBrace braceOpen]))
  rw [openingFragments, opened, tokensFrom_cons_mark, tokensFrom_cons_skip, tokensFrom_cons_mark,
    tokensFrom_append, tokensFrom_cons_mark, tokensFrom_cons_skip, tokensFrom_cons_mark,
    List.append_cons, ← List.cons_append]
  obtain ⟨value, derived, same⟩ := Expr.spelledBy_expression writable
    (((moved.afterAll (word.toList.map Glyph.ofChar)).after (Glyph.ofChar ' ')).afterAll
      ("(".toList.map Glyph.ofChar))
  exact ⟨_, _, _, value, rfl, rfl, .parens rfl derived rfl, same, rfl⟩

/-- The token of the line that closes a block. -/
theorem tokensFrom_closing (indent : Nat) (position : Position) :
    ∃ brace, tokensFrom position (closingFragments indent) = [brace] ∧
      brace.kind = .rightBrace := by
  obtain ⟨moved, closed⟩ := tokensFrom_line position indent [mark .rightBrace braceClose]
  rw [tokensFrom_cons_mark] at closed
  exact ⟨_, closed, rfl⟩

private theorem tokensFrom_else (indent : Nat) (position : Position) :
    ∃ closing word opening, tokensFrom position (elseFragments indent) = [closing, word, opening] ∧
      closing.kind = .rightBrace ∧ word.kind = .elseWord ∧ opening.kind = .leftBrace := by
  obtain ⟨moved, between⟩ := tokensFrom_line position indent
    [mark .rightBrace braceClose, skip ' ', mark .elseWord "else", skip ' ', mark .leftBrace braceOpen]
  rw [tokensFrom_cons_mark, tokensFrom_cons_skip, tokensFrom_cons_mark, tokensFrom_cons_skip,
    tokensFrom_cons_mark] at between
  exact ⟨_, _, _, between, rfl, rfl, rfl⟩

mutual

private theorem derives_fragments (indent : Nat) :
    (statement : Stmt) → statement.Every Expr.Writable Stmt.Writable → ∀ position,
      ∃ result, DerivesStmt (tokensFrom position (fragments indent statement)) result ∧
        result.erase = statement.erase
  | .assign name value span, ⟨_, writable⟩, position => by
      obtain ⟨moved, tokens⟩ := tokensFrom_line position indent
        (mark .identifier name :: skip ' ' :: mark .equals "=" :: skip ' ' ::
          (value.fragments ++ [mark .semicolon ";"]))
      rw [tokensFrom_cons_mark, tokensFrom_cons_skip, tokensFrom_cons_mark, tokensFrom_cons_skip,
        tokensFrom_append, tokensFrom_cons_mark] at tokens
      obtain ⟨result, derived, same⟩ := Expr.spelledBy_expression writable _
      rw [fragments, tokens]
      refine ⟨_, .assign rfl rfl derived rfl, ?_⟩
      rw [erase, erase, same]
  | .print value span, ⟨_, writable⟩, position => by
      obtain ⟨moved, tokens⟩ := tokensFrom_line position indent
        (mark .printWord "print" :: skip ' ' :: (value.fragments ++ [mark .semicolon ";"]))
      rw [tokensFrom_cons_mark, tokensFrom_cons_skip, tokensFrom_append,
        tokensFrom_cons_mark] at tokens
      obtain ⟨result, derived, same⟩ := Expr.spelledBy_expression writable _
      rw [fragments, tokens]
      refine ⟨_, .print rfl derived rfl, ?_⟩
      rw [erase, erase, same]
  | .ifThen condition body span, ⟨_, writable, every⟩, position => by
      rw [fragments, tokensFrom_append, tokensFrom_append]
      obtain ⟨word, test, opening, value, opened, kind, tested, same, openingKind⟩ :=
        tokensFrom_opening writable indent .ifWord "if" position
      obtain ⟨inner, inside, sameBody⟩ := derives_fragmentsAll (indent + 1) body every _
      obtain ⟨brace, closed, closingKind⟩ := tokensFrom_closing indent _
      rw [opened, closed, List.cons_append, List.append_assoc, List.singleton_append]
      refine ⟨_, .ifThen kind tested (.braces openingKind inside closingKind), ?_⟩
      rw [erase, erase, same, sameBody]
  | .ifElse condition body otherwise span, ⟨_, writable, every, others⟩, position => by
      rw [fragments, tokensFrom_append, tokensFrom_append, tokensFrom_append, tokensFrom_append]
      obtain ⟨word, test, opening, value, opened, kind, tested, same, openingKind⟩ :=
        tokensFrom_opening writable indent .ifWord "if" position
      obtain ⟨inner, inside, sameBody⟩ := derives_fragmentsAll (indent + 1) body every _
      obtain ⟨middle, other, second, between, middleKind, otherKind, secondKind⟩ :=
        tokensFrom_else indent _
      obtain ⟨outer, alternative, sameOther⟩ :=
        derives_fragmentsAll (indent + 1) otherwise others _
      obtain ⟨brace, closed, closingKind⟩ := tokensFrom_closing indent _
      rw [opened, between, closed, List.cons_append, List.append_assoc, List.singleton_append]
      have derived := DerivesStmt.ifElse kind tested (.braces openingKind inside middleKind)
        otherKind (.braces secondKind alternative closingKind)
      rw [List.cons_append, List.append_assoc, List.singleton_append] at derived
      refine ⟨_, derived, ?_⟩
      rw [erase, erase, same, sameBody, sameOther]
  | .whileDo condition body span, ⟨_, writable, every⟩, position => by
      rw [fragments, tokensFrom_append, tokensFrom_append]
      obtain ⟨word, test, opening, value, opened, kind, tested, same, openingKind⟩ :=
        tokensFrom_opening writable indent .whileWord "while" position
      obtain ⟨inner, inside, sameBody⟩ := derives_fragmentsAll (indent + 1) body every _
      obtain ⟨brace, closed, closingKind⟩ := tokensFrom_closing indent _
      rw [opened, closed, List.cons_append, List.append_assoc, List.singleton_append]
      refine ⟨_, .whileDo kind tested (.braces openingKind inside closingKind), ?_⟩
      rw [erase, erase, same, sameBody]

/-- The tokens of printed statements derive the statements up to positions. -/
theorem derives_fragmentsAll (indent : Nat) :
    (statements : List Stmt) → EveryIn Expr.Writable Stmt.Writable statements → ∀ position,
      ∃ results, DerivesStmts (tokensFrom position (fragmentsAll indent statements)) results ∧
        eraseAll results = eraseAll statements
  | [], _, _ => ⟨[], .nil, rfl⟩
  | statement :: others, ⟨writable, every⟩, position => by
      rw [fragmentsAll, tokensFrom_append]
      obtain ⟨result, head, same⟩ := derives_fragments indent statement writable position
      obtain ⟨results, tail, sameOthers⟩ := derives_fragmentsAll indent others every _
      refine ⟨result :: results, .cons head tail, ?_⟩
      rw [eraseAll, eraseAll, same, sameOthers]

end

end Stmt

namespace Program

/-- The tokens of a printed program in a file, the end of the input last. -/
def printedTokens (program : Program) (file : String) : List Token :=
  let fragments := Stmt.fragmentsAll 0 program
  tokensFrom (.start file) fragments ++
    [⟨.endOfInput, "", .point ((Position.start file).afterAll (text fragments))⟩]

/-- A well-formed program can be printed, and what is printed is split into the
tokens of the program. -/
theorem WellFormed.tokenize_format {program : Program} (wellFormed : program.WellFormed) :
    ∃ text, program.format = .ok text ∧
      ∀ file, tokenize { bytes := text } file = .ok (program.printedTokens file) := by
  obtain ⟨bytes, formatted, encoded⟩ := Stmt.formatAll_fragments 0 program wellFormed
  refine ⟨bytes, formatted, ?_⟩
  intro file
  have decoded := encoded []
  rw [List.append_nil, Glyph.decode_nil, List.append_nil] at decoded
  exact tokenize_eq_ok_iff.mpr
    ⟨rfl, _, decoded, Stmt.readable_fragmentsAll 0 program wellFormed [], rfl⟩

/-- The tokens of a printed well-formed program are parsed as the program, up to
positions. -/
theorem WellFormed.parse_printedTokens {program : Program} (wellFormed : program.WellFormed)
    (file : String) :
    ∃ reparsed : Program, parse (program.printedTokens file) = .ok reparsed ∧
      reparsed.erase = program.erase := by
  obtain ⟨reparsed, derived, same⟩ :=
    Stmt.derives_fragmentsAll 0 program wellFormed (.start file)
  refine ⟨reparsed, parse_of_derives ?_, same⟩
  rw [printedTokens, Token.beforeEnd_append derived.kind_ne_endOfInput]
  · exact derived
  · intro token first
    cases Option.some.inj first
    rfl

/-- **Parsing undoes printing.** Every well-formed program can be printed, and the
text is split into tokens and parsed as the same program up to positions, whatever
name the file is given. -/
theorem parse_tokenize_format {program : Program} (wellFormed : program.WellFormed)
    (file : String) :
    ∃ text tokens reparsed, program.format = .ok text ∧
      tokenize { bytes := text } file = .ok tokens ∧ parse tokens = .ok reparsed ∧
      Program.erase reparsed = program.erase := by
  obtain ⟨text, formatted, split⟩ := wellFormed.tokenize_format
  obtain ⟨reparsed, read, same⟩ := wellFormed.parse_printedTokens file
  exact ⟨text, program.printedTokens file, reparsed, formatted, split file, read, same⟩

/-- A program that needs parentheses, has an encoded character and an empty
alternative. -/
def nestedDifference : Program :=
  [.ifElse
    (.binary (.variableRef "x" {}) .sub
      (.binary (.variableRef "y" {}) .sub (.number 2 {}) {}) {})
    [.print (.string (Bytes.ofChars ['é', '\n']) {}) {}] [] {}]

/-- A difference whose second operand is a difference. -/
theorem nestedDifference_parse_tokenize_format :
    nestedDifference.WellFormed ∧
      ∃ text tokens reparsed, nestedDifference.format = .ok text ∧
        tokenize { bytes := text } "main.peri" = .ok tokens ∧ parse tokens = .ok reparsed ∧
        Program.erase reparsed = nestedDifference.erase := by
  have x : IsName "x" := ⟨by decide, 'x', [], by decide, by decide, List.forall_mem_nil _⟩
  have y : IsName "y" := ⟨by decide, 'y', [], by decide, by decide, List.forall_mem_nil _⟩
  have known : Operator.sub ∈ [Operator.add, .sub, .mul, .div] := by decide
  have two : 0 ≤ (2 : Int64).toInt := by decide
  have string : Expr.Writable (.string (Bytes.ofChars ['é', '\n']) {}) :=
    ⟨['é', '\n'], rfl, by decide⟩
  have wellFormed : nestedDifference.WellFormed :=
    ⟨⟨trivial, ⟨known, x, known, y, two⟩, ⟨⟨trivial, string⟩, trivial⟩, trivial⟩, trivial⟩
  exact ⟨wellFormed, parse_tokenize_format wellFormed "main.peri"⟩

end Program

end Scriptlet
