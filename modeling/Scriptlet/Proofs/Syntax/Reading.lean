import Scriptlet.Proofs.Syntax.Nodes
import Scriptlet.Proofs.Syntax.Parsed
import Scriptlet.Proofs.Syntax.Rejection

/-! # Reading a source

Every source is rejected with an error or becomes a program, whatever bytes it has:
the lexer hands out no string that the parser could not take the quotes from. A program
that was read has only names, literals and operators of the language and no gaps, and a
branch of it has an alternative exactly if the word `else` follows its first block.
-/

namespace Scriptlet

open Lexical Grammar

/-- A string token has both of its quotes. -/
theorem two_le_length_of_tokenize {input : Input} {file : String} {tokens : List Token}
    (split : tokenize input file = .ok tokens) :
    ∀ token ∈ tokens, token.kind = .string → 2 ≤ (Bytes.ofString token.lexeme).length := by
  obtain ⟨_, fragments, _, readable, rfl⟩ := tokenize_eq_ok_iff.mp split
  intro token member quoted
  rcases List.mem_append.mp member with inside | last
  · have spelled := Fragment.spelled_of_mem_tokensFrom readable (.start file) token inside
    obtain ⟨content, whole, _⟩ := spelled.exists_content quoted
    have quote : (Bytes.ofChars ['"']).length = 1 := rfl
    rw [Bytes.ofString, whole, ← List.singleton_append, Bytes.ofChars_append, Bytes.ofChars_append,
      List.length_append, List.length_append, quote]
    omega
  · obtain rfl := List.mem_singleton.mp last
    cases quoted

/-- Where strings have their quotes, parsing fails by rejecting a token. -/
theorem exists_rejected_of_parse {tokens : List Token} {failure : ParseFailure}
    (quoted : ∀ token ∈ tokens, token.kind = .string → 2 ≤ (Bytes.ofString token.lexeme).length)
    (failed : parse tokens = .error failure) : ∃ error, failure = .rejected error := by
  obtain ⟨taken, next, more, split, left, _, offered⟩ :=
    exists_leads_of_run_eq_error (parse_eq_error_iff.mp failed)
  have fair := fair_offer offered
  cases failure with
  | rejected error => exact ⟨error, rfl⟩
  | tooDeep => exact fair.elim
  | shortString size =>
      obtain ⟨string, short⟩ := fair
      rcases (Token.cut_of_ended_eq split).2 with ⟨rest, rfl⟩ | ⟨_, rfl⟩
      · have room := quoted next (by simp) string
        exact absurd room (Nat.not_le.mpr short)
      · cases string

/-- A branch or a loop: the word that it starts with, what it tests, its first block,
and its alternative if it has one. -/
structure Guarded where
  word : TokenKind
  condition : Expr
  body : List Stmt
  otherwise : Option (List Stmt)
  span : Span

def Stmt.guarded? : Stmt → Option Guarded
  | .assign _ _ _ => none
  | .print _ _ => none
  | .ifThen condition body span => some ⟨.ifWord, condition, body, none, span⟩
  | .ifElse condition body otherwise span =>
    some ⟨.ifWord, condition, body, some otherwise, span⟩
  | .whileDo condition body span => some ⟨.whileWord, condition, body, none, span⟩
  | .gap => none

/-- The tokens start with the word `else`. -/
def Token.AtElse (tokens : List Token) : Prop :=
  ∃ next ∈ tokens.head?, next.kind = .elseWord

/-- No tokens do not start with `else`. -/
theorem Token.not_atElse_nil : ¬ AtElse [] := by
  rintro ⟨_, absent, _⟩
  cases absent

/-- Where a branch or a loop was read: at its word, which is followed by the condition
and the first block. It has an alternative exactly if the word `else` follows these. -/
structure Guarded.ReadAt (guarded : Guarded) (tokens : List Token) (word : Token)
    (front test inner rest : List Token) : Prop where
  split : tokens = front ++ word :: (test ++ (inner ++ rest))
  kind : word.kind = guarded.word
  start : word.span.start = guarded.span.start
  tested : DerivesCondition test guarded.condition
  block : ∃ brace, DerivesBlock inner guarded.body brace
  alternative : guarded.otherwise.isSome ↔ Token.AtElse rest

/-- A guarded statement without an alternative is read from its word, its condition and its block.
-/
theorem Guarded.ReadAt.of_block {guarded : Guarded} {word brace : Token} {test inner : List Token}
    (plain : guarded.otherwise = none) (kind : word.kind = guarded.word)
    (start : word.span.start = guarded.span.start)
    (tested : DerivesCondition test guarded.condition)
    (block : DerivesBlock inner guarded.body brace) :
    guarded.ReadAt (word :: (test ++ inner)) word [] test inner [] := by
  refine ⟨?_, kind, start, tested, ⟨brace, block⟩, ?_⟩
  · rw [List.append_nil]
    rfl
  · rw [plain]
    exact ⟨fun absent => Bool.noConfusion absent, fun found => absurd found Token.not_atElse_nil⟩

/-- A branch or a loop was read somewhere in the tokens. -/
def Stmt.ReadFrom (tokens : List Token) (statement : Stmt) : Prop :=
  ∀ guarded ∈ statement.guarded?, ∃ word front test inner rest,
    guarded.ReadAt tokens word front test inner rest

namespace Stmt.ReadFrom

/-- A statement is read from tokens with others in front of them. -/
theorem prepend {tokens : List Token} {statement : Stmt} (read : statement.ReadFrom tokens)
    (others : List Token) : statement.ReadFrom (others ++ tokens) := by
  intro guarded own
  obtain ⟨word, front, test, inner, rest, split, kind, start, tested, block, alternative⟩ :=
    read guarded own
  refine ⟨word, others ++ front, test, inner, rest, ?_, kind, start, tested, block, alternative⟩
  rw [split, List.append_assoc]

/-- More tokens give a branch no alternative if they do not start with the word
`else`. -/
theorem append {tokens others : List Token} {statement : Stmt}
    (read : statement.ReadFrom tokens) (quiet : ¬ Token.AtElse others) :
    statement.ReadFrom (tokens ++ others) := by
  intro guarded own
  obtain ⟨word, front, test, inner, rest, split, kind, start, tested, block, alternative⟩ :=
    read guarded own
  refine ⟨word, front, test, inner, rest ++ others, ?_, kind, start, tested, block, ?_⟩
  · rw [split]
    simp only [List.append_assoc, List.cons_append]
  · rw [alternative]
    cases rest with
    | nil =>
        exact ⟨fun found => absurd found Token.not_atElse_nil, fun found => absurd found quiet⟩
    | cons next more => exact Iff.rfl

end Stmt.ReadFrom

namespace Grammar

/-- Statements do not start with `else`. -/
theorem DerivesStmts.not_atElse {tokens : List Token} {statements : List Stmt}
    (derived : DerivesStmts tokens statements) : ¬ Token.AtElse tokens := by
  rintro ⟨next, first, kind⟩
  cases derived with
  | nil => cases first
  | cons head tail =>
      obtain ⟨token, others, rfl, starts⟩ := head.head
      cases first
      rw [kind] at starts
      exact absurd starts (by decide)

mutual

/-- All statements in a statement are read from its tokens. -/
theorem DerivesStmt.readFrom {tokens : List Token} {statement : Stmt} :
    DerivesStmt tokens statement → ∀ node ∈ statement.nodes, node.ReadFrom tokens
  | .print _ _ _ => by
      intro node member
      obtain rfl := List.mem_singleton.mp member
      rintro guarded ⟨⟩
  | .assign _ _ _ _ => by
      intro node member
      obtain rfl := List.mem_singleton.mp member
      rintro guarded ⟨⟩
  | @DerivesStmt.ifThen word _ test inner _ _ kind tested block => by
      intro node member
      rcases List.mem_cons.mp member with rfl | within
      · rintro guarded ⟨⟩
        exact ⟨word, [], test, inner, [], .of_block rfl kind rfl tested block⟩
      · have read := block.readFrom [] node within
        rw [List.append_nil] at read
        exact read.prepend (word :: test)
  | @DerivesStmt.ifElse word other _ _ test inner outer _ _ _ kind tested block alternative
      second => by
      intro node member
      rcases List.mem_cons.mp member with rfl | within
      · rintro guarded ⟨⟩
        refine ⟨word, [], test, inner, other :: outer, rfl, kind, rfl, tested, ⟨_, block⟩, ?_⟩
        exact ⟨fun _ => ⟨other, rfl, alternative⟩, fun _ => rfl⟩
      · rcases List.mem_append.mp within with inBody | inOtherwise
        · exact (block.readFrom (other :: outer) node inBody).prepend (word :: test)
        · have read := second.readFrom [] node inOtherwise
          rw [List.append_nil] at read
          exact ((read.prepend [other]).prepend inner).prepend (word :: test)
  | @DerivesStmt.whileDo word _ test inner _ _ kind tested block => by
      intro node member
      rcases List.mem_cons.mp member with rfl | within
      · rintro guarded ⟨⟩
        exact ⟨word, [], test, inner, [], .of_block rfl kind rfl tested block⟩
      · have read := block.readFrom [] node within
        rw [List.append_nil] at read
        exact read.prepend (word :: test)

/-- What stands behind a block does not matter for the branches in it, since its
closing brace comes first. -/
theorem DerivesBlock.readFrom {tokens : List Token} {body : List Stmt} {brace : Token} :
    DerivesBlock tokens body brace → ∀ behind, ∀ node ∈ Stmt.nodesAll body,
      node.ReadFrom (tokens ++ behind)
  | @DerivesBlock.braces opening closing _ _ _ inside closed => by
      intro behind node member
      have quiet : ¬ Token.AtElse (closing :: behind) := by
        rintro ⟨_, ⟨⟩, kind⟩
        cases closed.symm.trans kind
      rw [List.cons_append, List.append_assoc]
      exact ((inside.readFrom node member).append quiet).prepend [opening]

/-- All statements in some statements are read from their tokens. -/
theorem DerivesStmts.readFrom {tokens : List Token} {statements : List Stmt} :
    DerivesStmts tokens statements → ∀ node ∈ Stmt.nodesAll statements, node.ReadFrom tokens
  | .nil => by
      intro node member
      cases member
  | @DerivesStmts.cons first _ _ _ head tail => by
      intro node member
      rcases List.mem_append.mp member with inside | behind
      · exact (head.readFrom node inside).append tail.not_atElse
      · exact (tail.readFrom node behind).prepend first

end

end Grammar

/-- A program of which every node is one of the language. -/
structure Program.Sound (program : Program) : Prop where
  names : ∀ name ∈ program.names, name ∉ keywords ∧
    ∃ first others, name.toList = first :: others ∧ IsLetter first ∧
      ∀ char ∈ others, IsLetter char ∨ ('0' ≤ char ∧ char ≤ '9')
  numbers : ∀ value span, .number value span ∈ program.expressions →
    0 ≤ value.toInt ∧ value.toInt ≤ 9223372036854775807
  strings : ∀ value span, .string value span ∈ program.expressions →
    ∃ text : String, value = Bytes.ofString text ∧ '"' ∉ text.toList
  operators : ∀ left operator right span, .binary left operator right span ∈ program.expressions →
    operator ∈ [Operator.add, .sub, .mul, .div]
  expressions_present : .gap ∉ program.expressions
  statements_present : .gap ∉ program.statements

/-- The names in a well-formed program are names. -/
theorem Program.WellFormed.isName {program : Program} (formed : program.WellFormed) :
    ∀ name ∈ program.names, IsName name := by
  obtain ⟨exprs, stmts⟩ := everyIn_iff.mp formed
  intro name member
  rcases List.mem_append.mp member with looked | bound
  · obtain ⟨expr, inside, own⟩ := List.mem_filterMap.mp looked
    have writable := exprs expr inside
    cases expr with
    | variableRef other span =>
        cases own
        exact writable
    | _ => cases own
  · obtain ⟨statement, inside, own⟩ := List.mem_filterMap.mp bound
    have writable := stmts statement inside
    cases statement with
    | assign other value span =>
        cases own
        exact writable
    | _ => cases own

/-- A well-formed program is sound. -/
theorem Program.WellFormed.sound {program : Program} (formed : program.WellFormed) :
    program.Sound := by
  obtain ⟨exprs, stmts⟩ := everyIn_iff.mp formed
  constructor
  case names =>
    intro name member
    obtain ⟨free, first, others, spelled, letter, more⟩ := formed.isName name member
    refine ⟨free, first, others, spelled, startsWord_iff.mp letter, ?_⟩
    exact fun char inside => continuesWord_iff.mp (more char inside)
  case numbers =>
    intro value span member
    have bound := value.toInt_lt
    exact ⟨exprs _ member, by omega⟩
  case strings =>
    intro value span member
    obtain ⟨content, rfl, unquoted⟩ := exprs _ member
    refine ⟨String.ofList content, ?_, ?_⟩
    · rw [Bytes.ofString, String.toList_ofList]
    · rwa [String.toList_ofList]
  case operators => exact fun left operator right span member => exprs _ member
  case expressions_present => exact fun member => exprs _ member
  case statements_present => exact fun member => stmts _ member

private theorem readFrom_of_parse {tokens : List Token} {program : Program}
    (read : parse tokens = .ok program) : ∀ node ∈ program.statements, node.ReadFrom tokens := by
  obtain ⟨split, _, stops⟩ :=
    (takeWhile_dropWhile_iff fun token : Token => token.kind != .endOfInput).mp
      ⟨rfl, (rfl : tokens.dropWhile _ = _)⟩
  have quiet : ¬ Token.AtElse (tokens.dropWhile fun token => token.kind != .endOfInput) := by
    rintro ⟨next, first, kind⟩
    have ended := bne_eq_false_iff_eq.mp (stops next first)
    cases kind.symm.trans ended
  intro node member
  have placed := ((parse_eq_ok_iff.mp read).readFrom node member).append quiet
  rw [Token.beforeEnd, ← split] at placed
  exact placed

/-- **Reading is total and sound.** Every byte sequence is rejected by the lexer with a
lexical error, or by the parser with an error about a token, or becomes a program; no
literal is too short to be taken apart. At every depth of such a program, names are
letters and digits and no keywords, numbers are not negative and fit into 64 bits,
strings are encoded characters without a quote, operators are those of the language,
and nothing is missing; branches and loops have the block that stands between braces
behind their condition, and an alternative exactly if the word `else` follows it. -/
theorem reading_sound (bytes : Bytes) (file : String) :
    (∃ error, tokenize { bytes := bytes } file = .error (.lexical error)) ∨
      ∃ tokens, tokenize { bytes := bytes } file = .ok tokens ∧
        ((∃ error, parse tokens = .error (.rejected error)) ∨
          ∃ program, parse tokens = .ok program ∧ program.Sound ∧
            ∀ node ∈ program.statements, node.ReadFrom tokens) := by
  cases split : tokenize { bytes := bytes } file with
  | error failure =>
      obtain ⟨error, rfl⟩ := Lexer.exists_lexical_of_drain rfl split
      exact .inl ⟨error, rfl⟩
  | ok tokens =>
      refine .inr ⟨tokens, rfl, ?_⟩
      cases read : parse tokens with
      | error failure =>
          obtain ⟨error, rfl⟩ := exists_rejected_of_parse (two_le_length_of_tokenize split) read
          exact .inl ⟨error, rfl⟩
      | ok program =>
          exact .inr ⟨program, rfl, (wellFormed_of_parse split read).sound,
            readFrom_of_parse read⟩

end Scriptlet
