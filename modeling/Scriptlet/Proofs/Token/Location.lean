import Scriptlet.Proofs.Token.Joining
import Scriptlet.Proofs.Token.Session

/-! # Where tokens and errors stand

A lexer counts lines, columns and bytes while it reads. Whatever calls it serves, also
behind errors, the positions that it reports are those that one finds by counting in
the part of the source in front of them.
-/

namespace Scriptlet

open Lexical

namespace Position

/-- A position stands behind a part of a source that ends between two characters,
and says how many bytes, lines and columns that part has. -/
structure Marks (file : String) (source front : Bytes) (position : Position) : Prop where
  whole : ∃ back, source = front ++ back ∧
    Glyph.decode source = Glyph.decode front ++ Glyph.decode back
  file_eq : position.file = file
  offset_eq : position.offset = front.length
  line_eq : position.line = 1 + Glyph.newlines (Glyph.decode front)
  column_eq : position.column = 1 + (Glyph.lastLine (Glyph.decode front)).length

/-- A position is come to by reading some of the characters of a source. -/
def Reached (file : String) (source : Bytes) (position : Position) : Prop :=
  ∃ read ahead, Glyph.decode source = read ++ ahead ∧ position = (start file).afterAll read

/-- The position behind some of the characters of a source, as the bytes of these
characters tell it. -/
theorem exists_marks_afterAll {file : String} {source : Bytes} {read ahead : List Glyph}
    (decoded : Glyph.decode source = read ++ ahead) :
    ∃ front, Glyph.decode front = read ∧
      ((start file).afterAll read).Marks file source front := by
  obtain ⟨front, back, rfl, rfl, rfl⟩ := Glyph.exists_bytes_of_decode_eq_append decoded
  obtain ⟨line, column⟩ := line_column_afterAll_start file (Glyph.decode front)
  have offset := offset_afterAll_decode (start file) front
  have zero : (start file).offset = 0 := rfl
  rw [zero, Int.zero_add] at offset
  exact ⟨front, rfl, ⟨back, rfl, decoded⟩, file_afterAll _ _, offset, line, column⟩

/-- A position that was reached marks a place in the source. -/
theorem Reached.exists_marks {file : String} {source : Bytes} {position : Position}
    (reached : position.Reached file source) : ∃ front, position.Marks file source front := by
  obtain ⟨read, ahead, decoded, rfl⟩ := reached
  obtain ⟨front, _, marks⟩ := exists_marks_afterAll decoded
  exact ⟨front, marks⟩

end Position

namespace Lexical.Piece

private theorem string_body_append_rest (text : List Glyph) :
    (string text).body ++ (string text).rest = text := by
  have whole := List.takeWhile_append_dropWhile (p := fun glyph => glyph.char != '"') (l := text)
  unfold string
  cases found : text.dropWhile fun glyph => glyph.char != '"' with
  | nil =>
      rw [found] at whole
      exact whole
  | cons quote rest =>
      rw [found] at whole
      exact (List.append_assoc _ _ _).trans whole

/-- Behind its first character, a piece of text and what remains are the text. -/
theorem body_append_rest (first : Glyph) (text : List Glyph) :
    (cut first text).body ++ (cut first text).rest = text := by
  unfold cut
  cases TokenKind.ofPunctuation? first.char with
  | some kind => rfl
  | none =>
      simp only
      by_cases quote : first.char = '"'
      · rw [if_pos quote]
        exact string_body_append_rest text
      rw [if_neg quote]
      by_cases digit : first.char.isDigit
      · rw [if_pos digit]
        exact List.takeWhile_append_dropWhile
      rw [if_neg digit]
      by_cases letter : startsWord first.char
      · rw [if_pos letter]
        exact List.takeWhile_append_dropWhile
      · rw [if_neg letter]
        rfl

end Lexical.Piece

/-- The positions that a token tells. -/
def Token.ends (token : Token) : List Position :=
  [token.span.start, token.span.finish]

/-- The positions that a failure tells. -/
def LexFailure.positions : LexFailure → List Position
  | .lexical error => [error.position]
  | .unreadable _ => []

namespace Lexer

def Reply.positions : Reply → List Position
  | .token found => found.ends
  | .verdict _ => []
  | .failed failure => failure.positions

/-- The positions of a result, which are those of the answer to taking it. -/
def resultPositions (result : Except LexFailure Token) : List Position :=
  (Reply.ofResult .token result).positions

private theorem resultPositions_judge (fault : Option String) (first : Glyph) (piece : Piece)
    (span : Span) :
    resultPositions (judge fault first piece span) ⊆ [span.start, span.finish] := by
  unfold judge
  split
  · exact List.Subset.refl _
  · exact List.nil_subset _
  · exact List.Subset.refl _
  · exact List.nil_subset _
  · exact List.cons_subset_cons _ (List.nil_subset _)
  · exact List.cons_subset_cons _ (List.nil_subset _)

private theorem resultPositions_atEnd (fault : Option String) (position : Position) :
    resultPositions (atEnd fault position) ⊆ [position] := by
  cases fault with
  | none => exact List.cons_subset.mpr ⟨List.mem_cons_self, List.Subset.refl _⟩
  | some fault => exact List.nil_subset _

/-- What scanning does: it passes blanks, and judges the end of the text or a piece
cut off behind the blanks. -/
theorem scan_cases (lexer : Lexer) :
    lexer.scan = (atEnd lexer.fault (lexer.position.afterAll lexer.ahead),
        { lexer with ahead := [], position := lexer.position.afterAll lexer.ahead }) ∨
    ∃ blanks first piece, lexer.ahead = blanks ++ first :: (piece.body ++ piece.rest) ∧
      lexer.scan =
        (judge lexer.fault first piece ⟨lexer.position.afterAll blanks,
            (lexer.position.afterAll blanks).afterAll (first :: piece.body)⟩,
          { lexer with
            ahead := piece.rest
            position := (lexer.position.afterAll blanks).afterAll (first :: piece.body) }) := by
  have whole := List.takeWhile_append_dropWhile
    (p := fun glyph : Glyph => isBlank glyph.char) (l := lexer.ahead)
  unfold scan
  cases found : lexer.ahead.dropWhile fun glyph => isBlank glyph.char with
  | nil =>
      rw [found, List.append_nil] at whole
      rw [whole]
      exact .inl rfl
  | cons first text =>
      rw [found, ← Piece.body_append_rest first text] at whole
      exact .inr ⟨_, first, Piece.cut first text, whole.symm, rfl⟩

/-- Where a lexer is in a source: it has read the characters that are not ahead, and
its position is behind them. A token that it holds was found in the source. -/
structure Located (file : String) (source : Bytes) (lexer : Lexer) : Prop where
  reading : ∃ read, Glyph.decode source = read ++ lexer.ahead ∧
    lexer.position = (Position.start file).afterAll read
  holding : ∀ token ∈ lexer.peeked, ∀ position ∈ token.ends, position.Reached file source

variable {file : String} {source : Bytes} {lexer : Lexer}

private theorem located_ofInput (input : Input) (file : String) :
    (ofInput input file).Located file input.bytes where
  reading := ⟨[], rfl, rfl⟩
  holding token held := absurd held (Option.not_mem_none token)

/-- A scan stays in the source, and reports places in it. -/
theorem Located.scan (located : lexer.Located file source) :
    lexer.scan.2.Located file source ∧
      ∀ position ∈ resultPositions lexer.scan.1, position.Reached file source := by
  obtain ⟨⟨read, decoded, here⟩, holding⟩ := located
  rcases lexer.scan_cases with scanned | ⟨blanks, first, piece, split, scanned⟩
  · rw [scanned, here, ← Position.afterAll_append]
    have passed : Glyph.decode source = (read ++ lexer.ahead) ++ [] := by
      rw [decoded, List.append_nil]
    refine ⟨⟨⟨_, passed, rfl⟩, holding⟩, ?_⟩
    intro position member
    have same := List.mem_singleton.mp (resultPositions_atEnd _ _ member)
    exact ⟨_, _, passed, same⟩
  · rw [scanned, here, ← Position.afterAll_append, ← Position.afterAll_append]
    have started : Glyph.decode source =
        (read ++ blanks) ++ (first :: piece.body ++ piece.rest) := by
      rw [decoded, split, List.append_assoc]
      rfl
    have passed : Glyph.decode source =
        (read ++ blanks ++ first :: piece.body) ++ piece.rest := by
      rw [started, List.append_assoc (read ++ blanks)]
    refine ⟨⟨⟨_, passed, rfl⟩, holding⟩, ?_⟩
    intro position member
    rcases List.mem_cons.mp (resultPositions_judge _ _ _ _ member) with same | atFinish
    · exact ⟨_, _, started, same⟩
    · exact ⟨_, _, passed, List.mem_singleton.mp atFinish⟩

/-- The step of `Located.serveAll`, for taking. -/
theorem Located.next (located : lexer.Located file source) :
    lexer.next.2.Located file source ∧
      ∀ position ∈ resultPositions lexer.next.1, position.Reached file source := by
  unfold Lexer.next
  cases held : lexer.peeked with
  | none => exact located.scan
  | some token =>
      refine ⟨⟨located.reading, ?_⟩, located.holding token held⟩
      exact fun other none => absurd none (Option.not_mem_none other)

/-- The step of `Located.serveAll`: a call leaves the lexer in the source, and answers
with positions in it. -/
theorem Located.serve (located : lexer.Located file source) (call : Call) :
    (lexer.serve call).2.Located file source ∧
      ∀ position ∈ (lexer.serve call).1.positions, position.Reached file source := by
  obtain ⟨behind, reached⟩ := located.next
  by_cases looking : call = .next
  · subst looking
    exact ⟨behind, reached⟩
  rw [serve_of_ne_next lexer looking]
  rcases lexer.peek_cases with ⟨token, taken, seen⟩ | ⟨failure, taken, seen⟩
  · rw [taken] at reached
    rw [seen]
    refine ⟨⟨behind.reading, ?_⟩, ?_⟩
    · rintro _ ⟨⟩
      exact reached
    · cases call with
      | next => exact reached
      | peek => exact reached
      | peekIs kinds => exact fun position none => absurd none List.not_mem_nil
  · rw [taken] at reached
    rw [seen]
    exact ⟨behind, reached⟩

/-- Calls of any kind stay in the source. -/
theorem Located.serveAll (located : lexer.Located file source) (calls : List Call) :
    (lexer.serveAll calls).Located file source := by
  induction calls generalizing lexer with
  | nil => exact located
  | cons call calls ih => exact ih (located.serve call).1

/-- **Positions are true.** For every source and all calls, also behind calls that
failed: both ends of every token that is handed out, and the place of every lexical
error, stand behind whole characters of the source, and say the name of the file, the
number of bytes in front of them, one more than the number of newlines among these
characters, and one more than the number of characters behind the last newline. -/
theorem serve_positions_marked (input : Input) (file : String) (calls : List Call) (call : Call) :
    ∀ position ∈ (((ofInput input file).serveAll calls).serve call).1.positions,
      ∃ front, position.Marks file input.bytes front := by
  intro position member
  have located := (located_ofInput input file).serveAll calls
  exact ((located.serve call).2 position member).exists_marks

/-- A byte outside every character at the start of the second line. -/
def brokenByte : Input where
  bytes := Bytes.ofString "a\n" ++ 255 :: Bytes.ofString " 7"

/-- A source with a byte that encodes no character. -/
theorem brokenByte_serve_positions_marked :
    let position : Position := ⟨2, 3, 4, "main.peri"⟩
    position ∈
        (((ofInput brokenByte "main.peri").serveAll [.next, .peek]).serve .next).1.positions ∧
      ∃ front, position.Marks "main.peri" brokenByte.bytes front := by
  intro position
  have member : position ∈
      (((ofInput brokenByte "main.peri").serveAll [.next, .peek]).serve .next).1.positions := by
    decide +kernel
  exact ⟨member, serve_positions_marked brokenByte "main.peri" [.next, .peek] .next position member⟩

end Lexer

end Scriptlet
