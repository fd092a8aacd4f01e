import Scriptlet.Proofs.Syntax.Tree
import Scriptlet.Proofs.Text.Decimal
import Scriptlet.Proofs.Token.Fragment
import Scriptlet.Syntax.Printer

/-! # The fragments of a printed tree

A tree is printed as fragments: its tokens, and the blanks between them. For a
well-formed program the printed text decodes to these fragments
(`Stmt.formatAll_fragments`), and they can be read back one by one
(`Stmt.readable_fragmentsAll`).
-/

namespace Scriptlet

open Lexical

namespace Fragment

/-- Fragments in parentheses, if asked for. -/
def wrap (inParens : Bool) (content : List Fragment) : List Fragment :=
  if inParens then mark .leftParen "(" :: (content ++ [mark .rightParen ")"]) else content

/-- Fragments on a line inside some levels of braces. -/
def line (indent : Nat) (content : List Fragment) : List Fragment :=
  List.replicate indent (skip '\t') ++ (content ++ [skip '\n'])

end Fragment

open Fragment

/-- The kind of token that spells an operator. -/
def Operator.kind : Operator → TokenKind
  | .add => .plus
  | .sub => .minus
  | .mul => .star
  | .div => .slash
  | .unknown code => .unknown code

/-- The fragments of a printed expression. -/
def Expr.fragments : Expr → List Fragment
  | .number value _ => [.word .integer ((Decimal.chars value.toInt).map Glyph.ofChar)]
  | .string value _ =>
    [.word .string (Glyph.ofChar '"' :: (Glyph.decode value ++ [Glyph.ofChar '"']))]
  | .variableRef name _ => [mark .identifier name]
  | .binary left operator right _ =>
    Fragment.wrap (left.needsParens operator false) left.fragments ++
      (skip ' ' :: mark operator.kind operator.sign :: skip ' ' ::
        Fragment.wrap (right.needsParens operator true) right.fragments)
  | .gap => []

namespace Stmt

/-- The fragments of the line that opens a block behind a condition. -/
def openingFragments (indent : Nat) (kind : TokenKind) (word : String) (condition : Expr) :
    List Fragment :=
  Fragment.line indent (mark kind word :: skip ' ' :: mark .leftParen "(" ::
    (condition.fragments ++ [mark .rightParen ")", skip ' ', mark .leftBrace braceOpen]))

/-- The fragments of the line that closes a block. -/
def closingFragments (indent : Nat) : List Fragment :=
  Fragment.line indent [mark .rightBrace braceClose]

/-- The fragments of the line between two blocks. -/
def elseFragments (indent : Nat) : List Fragment :=
  Fragment.line indent
    [mark .rightBrace braceClose, skip ' ', mark .elseWord "else", skip ' ', mark .leftBrace braceOpen]

mutual

/-- The fragments of a statement printed inside some levels of braces. -/
def fragments (indent : Nat) : Stmt → List Fragment
  | .assign name value _ =>
    Fragment.line indent (mark .identifier name :: skip ' ' :: mark .equals "=" :: skip ' ' ::
      (value.fragments ++ [mark .semicolon ";"]))
  | .print value _ =>
    Fragment.line indent (mark .printWord "print" :: skip ' ' ::
      (value.fragments ++ [mark .semicolon ";"]))
  | .ifThen condition body _ =>
    openingFragments indent .ifWord "if" condition ++
      (fragmentsAll (indent + 1) body ++ closingFragments indent)
  | .ifElse condition body otherwise _ =>
    openingFragments indent .ifWord "if" condition ++
      (fragmentsAll (indent + 1) body ++
        (elseFragments indent ++
          (fragmentsAll (indent + 1) otherwise ++ closingFragments indent)))
  | .whileDo condition body _ =>
    openingFragments indent .whileWord "while" condition ++
      (fragmentsAll (indent + 1) body ++ closingFragments indent)
  | .gap => []

/-- The fragments of statements in order. -/
def fragmentsAll (indent : Nat) : List Stmt → List Fragment
  | [] => []
  | statement :: others => fragments indent statement ++ fragmentsAll indent others

end

end Stmt

/-! ## Printed text -/

/-- Bytes decode to some characters, whatever follows them. -/
def Bytes.Encode (bytes : Bytes) (glyphs : List Glyph) : Prop :=
  ∀ rest, Glyph.decode (bytes ++ rest) = glyphs ++ Glyph.decode rest

namespace Bytes

/-- Characters are encoded by their bytes. -/
theorem encode_ofChars (text : List Char) : (ofChars text).Encode (text.map Glyph.ofChar) :=
  Glyph.decode_ofChars_append text

/-- A string is encoded by its bytes. -/
theorem encode_ofString (text : String) : (ofString text).Encode (text.toList.map Glyph.ofChar) :=
  encode_ofChars text.toList

/-- Texts behind each other are encoded by bytes behind each other. -/
theorem Encode.append {left right : Bytes} {first second : List Glyph}
    (before : left.Encode first) (behind : right.Encode second) :
    (left ++ right).Encode (first ++ second) := by
  intro rest
  rw [List.append_assoc, before, behind, List.append_assoc]

/-- Parentheses around a text are encoded around its bytes. -/
theorem Encode.wrap {bytes : Bytes} {content : List Fragment} (inside : bytes.Encode (text content))
    (inParens : Bool) :
    (Expr.wrap inParens bytes).Encode (text (Fragment.wrap inParens content)) := by
  cases inParens with
  | false => exact inside
  | true =>
      have whole := ((encode_ofString "(").append inside).append (encode_ofString ")")
      simpa [Fragment.wrap, Expr.wrap] using whole

/-- A line is encoded with its indentation. -/
theorem Encode.line {bytes : Bytes} {content : List Fragment} (inside : bytes.Encode (text content))
    (indent : Nat) : (Stmt.line indent bytes).Encode (text (Fragment.line indent content)) := by
  have tabs : text (List.replicate indent (skip '\t')) =
      (List.replicate indent '\t').map Glyph.ofChar := by
    rw [← text_map_blank ((List.replicate indent '\t').map Glyph.ofChar), List.map_map,
      List.map_replicate]
    rfl
  have whole := ((encode_ofChars (List.replicate indent '\t')).append inside).append
    (encode_ofString "\n")
  rw [← tabs] at whole
  simpa [Fragment.line, Stmt.line] using whole

end Bytes

/-- An expression that can be written has a text, made of its fragments. -/
theorem Expr.format_fragments {expr : Expr} (writable : expr.Every Expr.Writable) :
    ∃ bytes, expr.format = .ok bytes ∧ bytes.Encode (text expr.fragments) := by
  induction expr with
  | number value span =>
      refine ⟨_, rfl, ?_⟩
      simpa [Expr.fragments, glyphs] using Bytes.encode_ofChars (Decimal.chars value.toInt)
  | string value span =>
      refine ⟨_, rfl, ?_⟩
      obtain ⟨content, rfl, _⟩ := writable
      have whole := ((Bytes.encode_ofString "\"").append (Bytes.encode_ofChars content)).append
        (Bytes.encode_ofString "\"")
      simpa [Expr.fragments, glyphs, Glyph.decode_ofChars] using whole
  | variableRef name span =>
      refine ⟨_, rfl, ?_⟩
      simpa [Expr.fragments] using Bytes.encode_ofString name
  | binary left operator right span ihLeft ihRight =>
      obtain ⟨_, writableLeft, writableRight⟩ := writable
      obtain ⟨first, formatLeft, before⟩ := ihLeft writableLeft
      obtain ⟨second, formatRight, behind⟩ := ihRight writableRight
      refine ⟨_, by rw [Expr.format, formatLeft, formatRight]; rfl, ?_⟩
      have whole := ((before.wrap (left.needsParens operator false)).append
        (Bytes.encode_ofString (" " ++ operator.sign ++ " "))).append
          (behind.wrap (right.needsParens operator true))
      simpa [Expr.fragments] using whole
  | gap => exact writable.elim

namespace Stmt

/-- The line that opens a block consists of its fragments. -/
theorem encode_opening {test : Bytes} {condition : Expr}
    (inside : test.Encode (text condition.fragments)) (indent : Nat) (kind : TokenKind)
    (word : String) :
    (opening indent word test).Encode (text (openingFragments indent kind word condition)) := by
  refine Bytes.Encode.line ?_ indent
  have whole := ((Bytes.encode_ofString (word ++ " (")).append inside).append
    (Bytes.encode_ofString (") " ++ braceOpen))
  simpa using whole

/-- The line that closes a block consists of its fragments. -/
theorem encode_closing (indent : Nat) : (closing indent).Encode (text (closingFragments indent)) :=
  Bytes.Encode.line (Bytes.encode_ofString braceClose) indent

private theorem encode_else (indent : Nat) :
    (line indent (Bytes.ofString (braceClose ++ " else " ++ braceOpen))).Encode (text (elseFragments indent)) :=
  Bytes.Encode.line (Bytes.encode_ofString (braceClose ++ " else " ++ braceOpen)) indent

mutual

/-- A statement that can be written has a text, made of its fragments. -/
theorem format_fragments (indent : Nat) :
    (statement : Stmt) → statement.Every Expr.Writable Stmt.Writable →
      ∃ bytes, format indent statement = .ok bytes ∧
        bytes.Encode (text (fragments indent statement))
  | .assign name value span, ⟨_, writable⟩ => by
      obtain ⟨inner, formatted, inside⟩ := Expr.format_fragments writable
      refine ⟨_, by rw [format, formatted]; rfl, ?_⟩
      refine Bytes.Encode.line ?_ indent
      have whole := ((Bytes.encode_ofString (name ++ " = ")).append inside).append
        (Bytes.encode_ofString ";")
      simpa using whole
  | .print value span, ⟨_, writable⟩ => by
      obtain ⟨inner, formatted, inside⟩ := Expr.format_fragments writable
      refine ⟨_, by rw [format, formatted]; rfl, ?_⟩
      refine Bytes.Encode.line ?_ indent
      have whole := ((Bytes.encode_ofString "print ").append inside).append
        (Bytes.encode_ofString ";")
      simpa using whole
  | .ifThen condition body span, ⟨_, writable, every⟩ => by
      obtain ⟨test, formatted, tested⟩ := Expr.format_fragments writable
      obtain ⟨inner, formattedBody, inside⟩ := formatAll_fragments (indent + 1) body every
      refine ⟨_, by rw [format, formatted, formattedBody]; rfl, ?_⟩
      have whole := ((encode_opening tested indent .ifWord "if").append inside).append
        (encode_closing indent)
      simpa [fragments] using whole
  | .ifElse condition body otherwise span, ⟨_, writable, every, others⟩ => by
      obtain ⟨test, formatted, tested⟩ := Expr.format_fragments writable
      obtain ⟨inner, formattedBody, inside⟩ := formatAll_fragments (indent + 1) body every
      obtain ⟨other, formattedOther, alternative⟩ :=
        formatAll_fragments (indent + 1) otherwise others
      refine ⟨_, by rw [format, formatted, formattedBody, formattedOther]; rfl, ?_⟩
      have whole := ((((encode_opening tested indent .ifWord "if").append inside).append
        (encode_else indent)).append alternative).append (encode_closing indent)
      simpa [fragments] using whole
  | .whileDo condition body span, ⟨_, writable, every⟩ => by
      obtain ⟨test, formatted, tested⟩ := Expr.format_fragments writable
      obtain ⟨inner, formattedBody, inside⟩ := formatAll_fragments (indent + 1) body every
      refine ⟨_, by rw [format, formatted, formattedBody]; rfl, ?_⟩
      have whole := ((encode_opening tested indent .whileWord "while").append inside).append
        (encode_closing indent)
      simpa [fragments] using whole

/-- Printed statements have the characters of their fragments. -/
theorem formatAll_fragments (indent : Nat) :
    (statements : List Stmt) → EveryIn Expr.Writable Stmt.Writable statements →
      ∃ bytes, formatAll indent statements = .ok bytes ∧
        bytes.Encode (text (fragmentsAll indent statements))
  | [], _ => ⟨[], rfl, fun _ => rfl⟩
  | statement :: others, ⟨writable, every⟩ => by
      obtain ⟨first, formatted, before⟩ := format_fragments indent statement writable
      obtain ⟨rest, formattedOthers, behind⟩ := formatAll_fragments indent others every
      refine ⟨_, by rw [formatAll, formatted, formattedOthers]; rfl, ?_⟩
      rw [fragmentsAll, text_append]
      exact before.append behind

end

end Stmt

/-! ## Reading the fragments back -/

namespace Fragment

/-- Fragments are readable in front of every text that breaks words. -/
def Freestanding (content : List Fragment) : Prop :=
  ∀ rest, Breaks rest → Readable rest content

private theorem breaks_mark {kind : TokenKind} {sign : Char} (outside : continuesWord sign = false)
    (others : List Fragment) (rest : List Glyph) :
    Breaks (text (mark kind (String.ofList [sign]) :: others) ++ rest) := by
  simp only [text_cons, glyphs_mark, String.toList_ofList]
  exact breaks_cons outside _

/-- A token of one character can be read in front of anything. -/
theorem readable_sign (sign : Char) {kind : TokenKind}
    (punctuation : TokenKind.ofPunctuation? sign = some kind) {others : List Fragment}
    {rest : List Glyph} (readable : Readable rest others) :
    Readable rest (mark kind (String.ofList [sign]) :: others) := by
  refine ⟨?_, ?_, readable⟩
  · simp only [mark, Valid, String.toList_ofList, Glyph.chars_map_ofChar]
    exact .punctuation punctuation
  · intro glyph _
    exact goesOnWith_of_ofPunctuation? punctuation glyph.char

/-- A blank can be read in front of anything. -/
theorem readable_skip {char : Char} (blank : isBlank char) {others : List Fragment}
    {rest : List Glyph} (readable : Readable rest others) : Readable rest (skip char :: others) :=
  ⟨blank, trivial, readable⟩

/-- What stands freely does so between parentheses. -/
theorem Freestanding.wrap {content : List Fragment} (free : Freestanding content)
    (inParens : Bool) : Freestanding (Fragment.wrap inParens content) := by
  cases inParens with
  | false => exact free
  | true =>
      intro rest _
      refine readable_sign '(' rfl
        (readable_append_iff.mpr ⟨free _ ?_, readable_sign ')' rfl trivial⟩)
      exact breaks_mark rfl [] rest

/-- A line is readable in front of every text if what stands on it is
freestanding. -/
theorem Freestanding.line {content : List Fragment} (free : Freestanding content) (indent : Nat)
    (rest : List Glyph) : Readable rest (Fragment.line indent content) := by
  refine readable_append_iff.mpr ⟨?_, readable_append_iff.mpr ⟨free _ ?_, ?_⟩⟩
  · have tabs : ∀ glyph ∈ List.replicate indent (Glyph.ofChar '\t'), isBlank glyph.char := by
      intro glyph member
      rw [List.eq_of_mem_replicate member]
      rfl
    have readable := readable_map_blank tabs (text (content ++ [skip '\n']) ++ rest)
    rwa [List.map_replicate] at readable
  · exact breaks_cons rfl rest
  · exact readable_skip rfl trivial

private theorem readable_operator {operator : Operator}
    (known : operator ∈ [Operator.add, .sub, .mul, .div]) {others : List Fragment}
    {rest : List Glyph} (readable : Readable rest others) :
    Readable rest (mark operator.kind operator.sign :: others) := by
  simp only [List.mem_cons, List.not_mem_nil, or_false] at known
  rcases known with rfl | rfl | rfl | rfl
  · exact readable_sign '+' rfl readable
  · exact readable_sign '-' rfl readable
  · exact readable_sign '*' rfl readable
  · exact readable_sign '/' rfl readable

end Fragment

/-- A name is a valid token. -/
theorem IsName.valid_mark {name : String} (named : IsName name) :
    (mark .identifier name).Valid := by
  obtain ⟨free, first, others, spelling, start, letters⟩ := named
  have spelled := Spells.word start letters
  rw [← spelling, String.ofList_toList, ofWord_eq_identifier_iff.mpr free] at spelled
  rw [mark, Valid, Glyph.chars_map_ofChar]
  exact spelled

/-- The fragments of an expression stand freely. -/
theorem Expr.freestanding_fragments {expr : Expr} (writable : expr.Every Expr.Writable) :
    Freestanding expr.fragments := by
  induction expr with
  | number value span =>
      intro rest breaks
      refine ⟨?_, breaks.endsBefore .integer, trivial⟩
      obtain ⟨first, others, written, start, digits⟩ := Decimal.chars_eq_cons writable
      rw [Valid, Glyph.chars_map_ofChar, written]
      exact .integer start digits
  | string value span =>
      intro rest breaks
      obtain ⟨content, rfl, unquoted⟩ := writable
      refine ⟨?_, breaks.endsBefore .string, trivial⟩
      rw [Valid, Glyph.decode_ofChars, Glyph.chars_cons, Glyph.chars_append,
        Glyph.chars_map_ofChar]
      exact .string unquoted
  | variableRef name span =>
      intro rest breaks
      exact ⟨writable.valid_mark, breaks.endsBefore .identifier, trivial⟩
  | binary left operator right span ihLeft ihRight =>
      obtain ⟨known, writableLeft, writableRight⟩ := writable
      intro rest breaks
      refine readable_append_iff.mpr ⟨(ihLeft writableLeft).wrap _ _ (breaks_cons rfl _), ?_⟩
      refine readable_skip rfl (readable_operator known (readable_skip rfl ?_))
      exact (ihRight writableRight).wrap _ rest breaks
  | gap => exact writable.elim

/-- A keyword is a valid token. -/
theorem valid_keyword (word : String) (keyword : word ∈ keywords) :
    (mark (.ofWord word) word).Valid := by
  simp only [keywords, List.mem_cons, List.not_mem_nil, or_false] at keyword
  rcases keyword with rfl | rfl | rfl | rfl
  · exact @Spells.word 'i' ['f'] rfl (List.all_eq_true.mp rfl)
  · exact @Spells.word 'e' ['l', 's', 'e'] rfl (List.all_eq_true.mp rfl)
  · exact @Spells.word 'w' ['h', 'i', 'l', 'e'] rfl (List.all_eq_true.mp rfl)
  · exact @Spells.word 'p' ['r', 'i', 'n', 't'] rfl (List.all_eq_true.mp rfl)

/-- A word can be read in front of a blank. -/
theorem Fragment.readable_spaced {kind : TokenKind} {word : String} (valid : (mark kind word).Valid)
    {others : List Fragment} {rest : List Glyph} (readable : Readable rest others) :
    Readable rest (mark kind word :: skip ' ' :: others) :=
  ⟨valid, (breaks_cons rfl _).endsBefore kind, readable_skip rfl readable⟩

namespace Stmt

/-- An expression can be read in front of a semicolon. -/
theorem readable_stopped {value : Expr} (writable : value.Every Expr.Writable)
    (rest : List Glyph) : Readable rest (value.fragments ++ [mark .semicolon ";"]) := by
  refine readable_append_iff.mpr ⟨?_, readable_sign ';' rfl trivial⟩
  exact Expr.freestanding_fragments writable _ (breaks_cons rfl rest)

/-- The line that opens a block can be read. -/
theorem readable_opening (word : String) (keyword : word ∈ keywords) {condition : Expr}
    (writable : condition.Every Expr.Writable) (indent : Nat) (rest : List Glyph) :
    Readable rest (openingFragments indent (.ofWord word) word condition) := by
  refine Freestanding.line ?_ indent rest
  intro rest _
  refine readable_spaced (valid_keyword word keyword) (readable_sign '(' rfl ?_)
  refine readable_append_iff.mpr ⟨?_, ?_⟩
  · exact Expr.freestanding_fragments writable _ (breaks_cons rfl _)
  · exact readable_sign ')' rfl (readable_skip rfl (readable_sign '{' rfl trivial))

/-- The line that closes a block can be read. -/
theorem readable_closing (indent : Nat) (rest : List Glyph) :
    Readable rest (closingFragments indent) := by
  refine Freestanding.line ?_ indent rest
  intro rest _
  exact readable_sign '}' rfl trivial

private theorem readable_else (indent : Nat) (rest : List Glyph) :
    Readable rest (elseFragments indent) := by
  refine Freestanding.line ?_ indent rest
  intro rest _
  refine readable_sign '}' rfl (readable_skip rfl ?_)
  refine readable_spaced (valid_keyword "else" (by decide)) ?_
  exact readable_sign '{' rfl trivial

mutual

private theorem readable_fragments (indent : Nat) :
    (statement : Stmt) → statement.Every Expr.Writable Stmt.Writable →
      ∀ rest, Readable rest (fragments indent statement)
  | .assign name value span, ⟨named, writable⟩, rest => by
      refine Freestanding.line ?_ indent rest
      intro rest _
      refine readable_spaced named.valid_mark (readable_sign '=' rfl (readable_skip rfl ?_))
      exact readable_stopped writable rest
  | .print value span, ⟨_, writable⟩, rest => by
      refine Freestanding.line ?_ indent rest
      intro rest _
      exact readable_spaced (valid_keyword "print" (by decide)) (readable_stopped writable rest)
  | .ifThen condition body span, ⟨_, writable, every⟩, rest => by
      refine readable_append_iff.mpr ⟨readable_opening "if" (by decide) writable indent _, ?_⟩
      refine readable_append_iff.mpr ⟨readable_fragmentsAll (indent + 1) body every _, ?_⟩
      exact readable_closing indent rest
  | .ifElse condition body otherwise span, ⟨_, writable, every, others⟩, rest => by
      refine readable_append_iff.mpr ⟨readable_opening "if" (by decide) writable indent _, ?_⟩
      refine readable_append_iff.mpr ⟨readable_fragmentsAll (indent + 1) body every _, ?_⟩
      refine readable_append_iff.mpr ⟨readable_else indent _, ?_⟩
      refine readable_append_iff.mpr ⟨readable_fragmentsAll (indent + 1) otherwise others _, ?_⟩
      exact readable_closing indent rest
  | .whileDo condition body span, ⟨_, writable, every⟩, rest => by
      refine readable_append_iff.mpr ⟨readable_opening "while" (by decide) writable indent _, ?_⟩
      refine readable_append_iff.mpr ⟨readable_fragmentsAll (indent + 1) body every _, ?_⟩
      exact readable_closing indent rest

/-- Printed statements can be read back in front of every text. -/
theorem readable_fragmentsAll (indent : Nat) :
    (statements : List Stmt) → EveryIn Expr.Writable Stmt.Writable statements →
      ∀ rest, Readable rest (fragmentsAll indent statements)
  | [], _, _ => trivial
  | statement :: others, ⟨writable, every⟩, rest =>
      readable_append_iff.mpr
        ⟨readable_fragments indent statement writable _,
          readable_fragmentsAll indent others every rest⟩

end

end Stmt

end Scriptlet
