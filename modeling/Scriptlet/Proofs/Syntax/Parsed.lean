import Scriptlet.Proofs.Syntax.Language
import Scriptlet.Proofs.Syntax.Tree
import Scriptlet.Proofs.Token.Fragment

/-! # Trees of sources

The tokens of a source are spelled as their kinds demand, and a tree derived from
such tokens is well formed: whatever a source was parsed as can be printed
(`wellFormed_of_parse`).
-/

namespace Scriptlet

open Lexical Grammar

namespace Lexical

/-- A token of one character is no number, no name and no string. -/
theorem kind_of_ofPunctuation? {char : Char} {kind : TokenKind}
    (sign : TokenKind.ofPunctuation? char = some kind) :
    kind ∉ [TokenKind.integer, .identifier, .string] := by
  unfold TokenKind.ofPunctuation? at sign
  split at sign <;> cases sign <;> decide

/-- A word is no number and no string. -/
theorem ofWord_not_mem (word : String) : TokenKind.ofWord word ∉ [TokenKind.integer, .string] := by
  rcases ofWord_cases word with kind | kind | kind | kind | kind <;> rw [kind] <;> decide

/-- A number is spelled with digits. -/
theorem Spells.isDigit_of_mem {kind : TokenKind} {chars : List Char} (spelled : Spells kind chars)
    (number : kind = .integer) : ∀ char ∈ chars, char.isDigit := by
  cases spelled with
  | punctuation sign => exact absurd (by simp [number]) (kind_of_ofPunctuation? sign)
  | integer start digits => exact List.forall_mem_cons.mpr ⟨start, digits⟩
  | string unquoted => exact nomatch number
  | @word first others start letters =>
      have other := ofWord_not_mem (String.ofList (first :: others))
      rw [number] at other
      exact absurd (by decide) other

/-- A string is spelled with a quote at each end and none between them. -/
theorem Spells.exists_content {kind : TokenKind} {chars : List Char} (spelled : Spells kind chars)
    (quoted : kind = .string) : ∃ content, chars = '"' :: (content ++ ['"']) ∧ '"' ∉ content := by
  cases spelled with
  | punctuation sign => exact absurd (by simp [quoted]) (kind_of_ofPunctuation? sign)
  | integer start digits => exact nomatch quoted
  | string unquoted => exact ⟨_, rfl, unquoted⟩
  | @word first others start letters =>
      have other := ofWord_not_mem (String.ofList (first :: others))
      rw [quoted] at other
      exact absurd (by decide) other

/-- An identifier is spelled as a name. -/
theorem Spells.isName {kind : TokenKind} {chars : List Char} (spelled : Spells kind chars)
    (named : kind = .identifier) : IsName (String.ofList chars) := by
  cases spelled with
  | punctuation sign => exact absurd (by simp [named]) (kind_of_ofPunctuation? sign)
  | integer start digits => exact nomatch named
  | string unquoted => exact nomatch named
  | word start letters =>
      exact ⟨ofWord_eq_identifier_iff.mp named, _, _, String.toList_ofList, start, letters⟩

end Lexical

namespace Grammar

/-- The lexeme of an identifier is a name. -/
theorem isName_of_spelled {token : Token} (spelled : token.Spelled)
    (kind : token.kind = .identifier) : IsName token.lexeme := by
  have named := Spells.isName spelled kind
  rwa [String.ofList_toList] at named

/-- The value of a string is what stands between the quotes of its token. -/
theorem exists_content_of_spelled {token : Token} (spelled : token.Spelled)
    (kind : token.kind = .string) {first last : UInt8} {value : Bytes}
    (quoted : Bytes.ofString token.lexeme = first :: (value ++ [last])) :
    ∃ content, token.lexeme.toList = '"' :: (content ++ ['"']) ∧ value = Bytes.ofChars content ∧
      '"' ∉ content := by
  obtain ⟨content, lexeme, unquoted⟩ := Spells.exists_content spelled kind
  rw [Bytes.ofString, lexeme, Bytes.ofChars_cons, Bytes.ofChars_append] at quoted
  have inner : Bytes.ofChars content ++ [34] = value ++ [last] := (List.cons.inj quoted).2
  exact ⟨content, lexeme, (List.append_inj_left' inner rfl).symm, unquoted⟩

/-- An expression derived from well-spelled tokens can be written down. -/
theorem DerivesExpr.every_writable {level : Level} {tokens : List Token} {value : Expr}
    (derived : DerivesExpr level tokens value) (spelled : ∀ token ∈ tokens, token.Spelled) :
    value.Every Expr.Writable := by
  induction derived with
  | @number token value kind denoted =>
      have own : token.Spelled := List.forall_mem_singleton.mp spelled
      exact denoted.nonneg_of_isDigit (Spells.isDigit_of_mem own kind)
  | identifier kind => exact isName_of_spelled (List.forall_mem_singleton.mp spelled) kind
  | @string token first last value kind quoted =>
      have own : token.Spelled := List.forall_mem_singleton.mp spelled
      obtain ⟨content, _, same, unquoted⟩ := exists_content_of_spelled own kind quoted
      exact ⟨content, same, unquoted⟩
  | parens opened inside closed ih =>
      exact ih fun token member => spelled token (by simp [member])
  | factor single ih => exact ih spelled
  | product before meaning behind ihBefore ihBehind =>
      refine ⟨?_, ihBefore fun token member => spelled token (by simp [member]),
        ihBehind fun token member => spelled token (by simp [member])⟩
      simp only [List.mem_cons, Prod.mk.injEq, List.not_mem_nil, or_false] at meaning
      rcases meaning with ⟨_, rfl⟩ | ⟨_, rfl⟩ <;> simp [Expr.Writable]
  | term single ih => exact ih spelled
  | sum before meaning behind ihBefore ihBehind =>
      refine ⟨?_, ihBefore fun token member => spelled token (by simp [member]),
        ihBehind fun token member => spelled token (by simp [member])⟩
      simp only [List.mem_cons, Prod.mk.injEq, List.not_mem_nil, or_false] at meaning
      rcases meaning with ⟨_, rfl⟩ | ⟨_, rfl⟩ <;> simp [Expr.Writable]

/-- All parts of a condition can be written. -/
theorem DerivesCondition.every_writable {tokens : List Token} {value : Expr}
    (derived : DerivesCondition tokens value) (spelled : ∀ token ∈ tokens, token.Spelled) :
    value.Every Expr.Writable := by
  cases derived with
  | parens opened inside closed =>
      exact (DerivesExpr.parens opened inside closed).every_writable spelled

mutual

/-- All parts of a statement can be written. -/
theorem DerivesStmt.every_writable {tokens : List Token} {statement : Stmt} :
    DerivesStmt tokens statement → (∀ token ∈ tokens, token.Spelled) →
      statement.Every Expr.Writable Stmt.Writable
  | .print _ inside _, spelled =>
      ⟨trivial, inside.every_writable fun token member => spelled token (by simp [member])⟩
  | .assign kind _ inside _, spelled =>
      ⟨isName_of_spelled (spelled _ List.mem_cons_self) kind,
        inside.every_writable fun token member => spelled token (by simp [member])⟩
  | .ifThen _ tested block, spelled =>
      ⟨trivial, tested.every_writable fun token member => spelled token (by simp [member]),
        block.every_writable fun token member => spelled token (by simp [member])⟩
  | .ifElse _ tested block _ second, spelled =>
      ⟨trivial, tested.every_writable fun token member => spelled token (by simp [member]),
        block.every_writable fun token member => spelled token (by simp [member]),
        second.every_writable fun token member => spelled token (by simp [member])⟩
  | .whileDo _ tested block, spelled =>
      ⟨trivial, tested.every_writable fun token member => spelled token (by simp [member]),
        block.every_writable fun token member => spelled token (by simp [member])⟩

/-- The statements of a block derived from well-spelled tokens can be written
down. -/
theorem DerivesBlock.every_writable {tokens : List Token} {body : List Stmt} {brace : Token} :
    DerivesBlock tokens body brace → (∀ token ∈ tokens, token.Spelled) →
      Stmt.EveryIn Expr.Writable Stmt.Writable body
  | .braces _ inside _, spelled =>
      inside.every_writable fun token member => spelled token (by simp [member])

/-- All parts of statements can be written. -/
theorem DerivesStmts.every_writable {tokens : List Token} {statements : List Stmt} :
    DerivesStmts tokens statements → (∀ token ∈ tokens, token.Spelled) →
      Stmt.EveryIn Expr.Writable Stmt.Writable statements
  | .nil, _ => trivial
  | .cons head tail, spelled =>
      ⟨head.every_writable fun token member => spelled token (by simp [member]),
        tail.every_writable fun token member => spelled token (by simp [member])⟩

end

end Grammar

/-- **Sources give well-formed trees.** A program parsed from a source can be
written down: the lexer leaves no bytes in it that are not encoded characters. -/
theorem wellFormed_of_parse {input : Input} {file : String} {tokens : List Token}
    {program : Program} (split : tokenize input file = .ok tokens)
    (read : parse tokens = .ok program) : program.WellFormed := by
  obtain ⟨_, fragments, _, readable, rfl⟩ := tokenize_eq_ok_iff.mp split
  have derived := parse_eq_ok_iff.mp read
  have spelled := Fragment.spelled_of_mem_tokensFrom readable (.start file)
  rw [Token.beforeEnd_append (fun token member => (spelled token member).kind_ne_endOfInput)
    (by simp)] at derived
  exact derived.every_writable spelled

end Scriptlet
