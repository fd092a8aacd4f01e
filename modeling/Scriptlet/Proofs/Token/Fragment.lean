import Scriptlet.Proofs.Token.Spelling

/-! # Sources as fragments

A source that can be split into tokens is a list of fragments: blanks, and words
that are spelled as their kind demands and end where the next character cannot
belong to them. Splitting a source gives exactly the tokens of these fragments,
each at its place, and the end of the input behind them
(`tokenize_eq_ok_iff`).
-/

namespace Scriptlet

open Lexical

/-- A part of a source: a blank, or the characters of a token. -/
inductive Fragment where
  | blank (glyph : Glyph)
  | word (kind : TokenKind) (glyphs : List Glyph)
deriving DecidableEq, Repr

namespace Fragment

/-- The characters of a fragment. -/
def glyphs : Fragment → List Glyph
  | .blank glyph => [glyph]
  | .word _ glyphs => glyphs

/-- The token of a fragment that stands at a position, if it is a word. -/
def tokens (position : Position) : Fragment → List Token
  | .blank _ => []
  | .word kind glyphs => [⟨kind, Glyph.spelling glyphs, ⟨position, position.afterAll glyphs⟩⟩]

/-- Whether a fragment is what it claims to be. -/
def Valid : Fragment → Prop
  | .blank glyph => isBlank glyph.char
  | .word kind glyphs => Spells kind (Glyph.chars glyphs)

/-- Whether a fragment ends in front of a text. -/
def Ends : Fragment → List Glyph → Prop
  | .blank _, _ => True
  | .word kind _, rest => EndsBefore kind rest

/-- The characters of some fragments in order. -/
def text (fragments : List Fragment) : List Glyph :=
  fragments.flatMap glyphs

/-- The tokens of some fragments, the first of which stands at a position. -/
def tokensFrom (position : Position) : List Fragment → List Token
  | [] => []
  | fragment :: others =>
    fragment.tokens position ++ tokensFrom (position.afterAll fragment.glyphs) others

/-- Fragments that are valid and each end in front of what follows them, up to
some text behind all of them. -/
def Readable (rest : List Glyph) : List Fragment → Prop
  | [] => True
  | fragment :: others =>
    fragment.Valid ∧ fragment.Ends (text others ++ rest) ∧ Readable rest others

/-- The token that a text spells. -/
def mark (kind : TokenKind) (text : String) : Fragment :=
  .word kind (text.toList.map Glyph.ofChar)

/-- A blank of one character. -/
def skip (char : Char) : Fragment :=
  .blank (Glyph.ofChar char)

@[simp]
theorem glyphs_mark (kind : TokenKind) (text : String) :
    (mark kind text).glyphs = text.toList.map Glyph.ofChar :=
  rfl

@[simp]
theorem glyphs_skip (char : Char) : (skip char).glyphs = [Glyph.ofChar char] :=
  rfl

@[simp]
theorem text_nil : text [] = [] :=
  rfl

@[simp]
theorem text_cons (fragment : Fragment) (others : List Fragment) :
    text (fragment :: others) = fragment.glyphs ++ text others :=
  rfl

@[simp]
theorem text_append (left right : List Fragment) : text (left ++ right) = text left ++ text right :=
  List.flatMap_append

/-- The tokens of two parts of a source, where the second starts behind the first. -/
theorem tokensFrom_append (position : Position) (left right : List Fragment) :
    tokensFrom position (left ++ right) =
      tokensFrom position left ++ tokensFrom (position.afterAll (text left)) right := by
  induction left generalizing position with
  | nil => rfl
  | cons fragment others ih =>
      rw [List.cons_append, tokensFrom, ih, tokensFrom, text_cons, Position.afterAll_append,
        List.append_assoc]

/-- Fragments are readable if each part of them is, in front of what follows. -/
theorem readable_append_iff {rest : List Glyph} {left right : List Fragment} :
    Readable rest (left ++ right) ↔ Readable (text right ++ rest) left ∧ Readable rest right := by
  induction left with
  | nil => exact ⟨fun readable => ⟨trivial, readable⟩, fun readable => readable.2⟩
  | cons fragment others ih =>
      rw [List.cons_append, Readable, Readable, ih, text_append, List.append_assoc, and_assoc,
        and_assoc]

@[simp]
theorem text_map_blank (glyphs : List Glyph) : text (glyphs.map blank) = glyphs := by
  induction glyphs with
  | nil => rfl
  | cons glyph glyphs ih =>
      rw [List.map_cons, text_cons, ih]
      rfl

@[simp]
theorem tokensFrom_map_blank (position : Position) (glyphs : List Glyph) :
    tokensFrom position (glyphs.map blank) = [] := by
  induction glyphs generalizing position with
  | nil => rfl
  | cons glyph glyphs ih => exact ih _

/-- Characters that are skipped stand in the text. -/
theorem text_map_skip (chars : List Char) : text (chars.map skip) = chars.map Glyph.ofChar := by
  have blanks := text_map_blank (chars.map Glyph.ofChar)
  rwa [List.map_map] at blanks

/-- Characters that are skipped give no tokens. -/
theorem tokensFrom_map_skip (position : Position) (chars : List Char) :
    tokensFrom position (chars.map skip) = [] := by
  have nothing := tokensFrom_map_blank position (chars.map Glyph.ofChar)
  rwa [List.map_map] at nothing

/-- Blanks can be read in front of anything. -/
theorem readable_map_blank {glyphs : List Glyph} (blank : ∀ glyph ∈ glyphs, isBlank glyph.char)
    (rest : List Glyph) : Readable rest (glyphs.map .blank) := by
  induction glyphs with
  | nil => trivial
  | cons glyph glyphs ih =>
      refine ⟨blank glyph List.mem_cons_self, trivial, ih ?_⟩
      intro other member
      exact blank other (List.mem_cons_of_mem _ member)

/-- A valid part of a source is not empty. -/
theorem Valid.glyphs_ne_nil {fragment : Fragment} (valid : fragment.Valid) :
    fragment.glyphs ≠ [] := by
  cases fragment with
  | blank glyph => exact List.cons_ne_nil _ _
  | word kind glyphs =>
      rintro rfl
      exact nomatch valid

/-- Readable fragments have no more tokens than characters. -/
theorem length_tokensFrom_le {rest : List Glyph} {fragments : List Fragment}
    (readable : Readable rest fragments) (position : Position) :
    (tokensFrom position fragments).length ≤ (text fragments).length := by
  induction fragments generalizing position with
  | nil => exact Nat.le_refl 0
  | cons fragment others ih =>
      obtain ⟨valid, _, readable⟩ := readable
      have behind := ih readable (position.afterAll fragment.glyphs)
      have positive := List.length_pos_iff.mpr valid.glyphs_ne_nil
      have single : (fragment.tokens position).length ≤ 1 := by
        cases fragment with
        | blank glyph => exact Nat.zero_le 1
        | word kind glyphs => exact Nat.le_refl 1
      rw [tokensFrom, text_cons, List.length_append, List.length_append]
      omega

end Fragment

/-- A text that only separates tokens. -/
structure Gap where
  text : String
  blank : ∀ char ∈ text.toList, isBlank char

namespace Gap

/-- A gap does not matter for whether what is behind it can be read. -/
theorem readable_append_iff (gap : Gap) {rest : List Glyph} {others : List Fragment} :
    Fragment.Readable rest (gap.text.toList.map Fragment.skip ++ others) ↔
      Fragment.Readable rest others := by
  have blanks : ∀ glyph ∈ gap.text.toList.map Glyph.ofChar, isBlank glyph.char := by
    intro glyph member
    obtain ⟨char, inside, rfl⟩ := List.mem_map.mp member
    exact gap.blank char inside
  have readable := Fragment.readable_map_blank blanks (Fragment.text others ++ rest)
  rw [List.map_map] at readable
  rw [Fragment.readable_append_iff]
  exact ⟨fun both => both.2, fun behind => ⟨readable, behind⟩⟩

/-- A gap that is not empty ends what is in front of it. -/
theorem breaks {gap : Gap} (nonempty : gap.text ≠ "") (rest : List Glyph) :
    Breaks (gap.text.toList.map Glyph.ofChar ++ rest) := by
  have blank := gap.blank
  cases spelling : gap.text.toList with
  | nil => exact absurd (String.toList_eq_nil_iff.mp spelling) nonempty
  | cons first others =>
      rw [spelling] at blank
      have outside : continuesWord first = false := by
        have separates := blank first List.mem_cons_self
        simp only [isBlank, Bool.or_eq_true, decide_eq_true_eq] at separates
        rcases separates with ((rfl | rfl) | rfl) | rfl <;> rfl
      exact breaks_cons outside _

end Gap

/-- A token is spelled as its kind demands. -/
def Token.Spelled (token : Token) : Prop :=
  Spells token.kind token.lexeme.toList

/-- The tokens of what can be read are spelled as their kind is. -/
theorem Fragment.spelled_of_mem_tokensFrom {rest : List Glyph} {fragments : List Fragment}
    (readable : Readable rest fragments) (position : Position) :
    ∀ token ∈ tokensFrom position fragments, token.Spelled := by
  induction fragments generalizing position with
  | nil => exact List.forall_mem_nil _
  | cons fragment others ih =>
      obtain ⟨valid, _, readable⟩ := readable
      rw [tokensFrom, List.forall_mem_append]
      refine ⟨?_, ih readable _⟩
      cases fragment with
      | blank glyph => exact List.forall_mem_nil _
      | word kind glyphs =>
          rw [tokens, List.forall_mem_singleton, Token.Spelled, Glyph.spelling,
            String.toList_ofList]
          exact valid

namespace Lexer

private theorem scan_cons_blank {glyph : Glyph} (blank : isBlank glyph.char) (ahead : List Glyph)
    (position : Position) (fault : Option String) (peeked : Option Token) :
    scan ⟨glyph :: ahead, position, fault, peeked⟩ =
      scan ⟨ahead, position.after glyph, fault, peeked⟩ := by
  simp only [scan, List.takeWhile_cons_of_pos (p := fun glyph : Glyph => isBlank glyph.char) blank,
    List.dropWhile_cons_of_pos (p := fun glyph : Glyph => isBlank glyph.char) blank,
    Position.afterAll_cons]

/-- A token does not start with a blank. -/
theorem isBlank_head_of_spells {kind : TokenKind} {first : Char} {others : List Char}
    (spelled : Spells kind (first :: others)) : isBlank first = false := by
  have blank_cases : ∀ char : Char, isBlank char = true →
      TokenKind.ofPunctuation? char = none ∧ char.isDigit = false ∧ startsWord char = false ∧
        char ≠ '"' := by
    intro char blank
    simp only [isBlank, Bool.or_eq_true, decide_eq_true_eq] at blank
    rcases blank with ((rfl | rfl) | rfl) | rfl <;> decide
  rw [Bool.eq_false_iff]
  intro blank
  obtain ⟨sign, digit, letter, quote⟩ := blank_cases first blank
  generalize spelling : first :: others = chars at spelled
  cases spelled with
  | punctuation punctuation =>
      cases (List.cons.inj spelling).1
      exact nomatch sign.symm.trans punctuation
  | integer start digits =>
      cases (List.cons.inj spelling).1
      exact nomatch digit.symm.trans start
  | string unquoted => exact quote (List.cons.inj spelling).1
  | word start letters =>
      cases (List.cons.inj spelling).1
      exact nomatch letter.symm.trans start

/-- What a token piece gives: the token, unless it can go on and its end was not
seen because of a fault. -/
theorem judge_eq_ok_iff {fault : Option String} {first : Glyph} {piece : Piece} {span : Span}
    {token : Token} :
    judge fault first piece span = .ok token ↔
      ∃ kind, piece.form.kind? = some kind ∧
        token = ⟨kind, Glyph.spelling (first :: piece.body), span⟩ ∧
          (piece.form = .longest kind → piece.rest = [] → fault = none) := by
  obtain ⟨form, body, rest⟩ := piece
  cases form with
  | closed kind => simp [judge, Form.kind?, eq_comm]
  | longest kind => cases rest <;> cases fault <;> simp [judge, Form.kind?, eq_comm]
  | unclosed => cases fault <;> simp [judge, Form.kind?]
  | stray => simp [judge, Form.kind?]

private theorem scan_word {kind : TokenKind} {glyphs : List Glyph}
    (spelled : Spells kind (Glyph.chars glyphs)) (rest : List Glyph)
    (ends : EndsBefore kind rest) (position : Position) {fault : Option String}
    (seen : rest = [] → fault = none) (peeked : Option Token) :
    scan ⟨glyphs ++ rest, position, fault, peeked⟩ =
      (.ok ⟨kind, Glyph.spelling glyphs, ⟨position, position.afterAll glyphs⟩⟩,
        ⟨rest, position.afterAll glyphs, fault, peeked⟩) := by
  cases glyphs with
  | nil => exact nomatch spelled
  | cons first body =>
      have inked : ¬ isBlank first.char = true := by
        rw [isBlank_head_of_spells spelled]
        exact Bool.false_ne_true
      obtain ⟨form, cut, kinds⟩ := Piece.cut_eq_iff.mpr ⟨rfl, spelled, ends⟩
      have judged : judge fault first ⟨form, body, rest⟩
          ⟨position, position.afterAll (first :: body)⟩ =
            .ok ⟨kind, Glyph.spelling (first :: body),
              ⟨position, position.afterAll (first :: body)⟩⟩ :=
        judge_eq_ok_iff.mpr ⟨kind, kinds, rfl, fun _ => seen⟩
      simp only [scan, List.cons_append,
        List.takeWhile_cons_of_neg (p := fun glyph : Glyph => isBlank glyph.char) inked,
        List.dropWhile_cons_of_neg (p := fun glyph : Glyph => isBlank glyph.char) inked,
        Position.afterAll_nil, cut, judged]

/-- A token that was taken is the end of the input behind some blanks, or a word
behind some blanks that ends where the text that remains starts. -/
theorem scan_eq_ok {lexer next : Lexer} {token : Token} (scanned : lexer.scan = (.ok token, next)) :
    ∃ blanks, (∀ glyph ∈ blanks, isBlank glyph.char) ∧
      ((lexer.ahead = blanks ∧ lexer.fault = none ∧
          token = ⟨.endOfInput, "", .point (lexer.position.afterAll blanks)⟩) ∨
        ∃ kind glyphs rest, lexer.ahead = blanks ++ (glyphs ++ rest) ∧
          Spells kind (Glyph.chars glyphs) ∧ EndsBefore kind rest ∧
          token = ⟨kind, Glyph.spelling glyphs,
            ⟨lexer.position.afterAll blanks, (lexer.position.afterAll blanks).afterAll glyphs⟩⟩ ∧
          next = { lexer with
            ahead := rest
            position := (lexer.position.afterAll blanks).afterAll glyphs }) := by
  obtain ⟨split, blank, _⟩ :=
    (takeWhile_dropWhile_iff fun glyph : Glyph => isBlank glyph.char).mp
      ⟨rfl, (rfl : lexer.ahead.dropWhile _ = _)⟩
  refine ⟨_, blank, ?_⟩
  unfold scan at scanned
  simp only at scanned
  split at scanned
  · rename_i nothing
    rw [nothing, List.append_nil] at split
    obtain ⟨ended, rfl⟩ := Prod.mk.inj scanned
    left
    cases readable : lexer.fault with
    | none =>
        rw [readable] at ended
        exact ⟨split, rfl, (Except.ok.inj ended).symm⟩
    | some fault =>
        rw [readable] at ended
        exact nomatch ended
  · rename_i first text something
    rw [something] at split
    right
    cases cut : Piece.cut first text with
    | mk form body rest =>
        rw [cut] at scanned
        obtain ⟨judged, rfl⟩ := Prod.mk.inj scanned
        obtain ⟨kind, kinds, rfl, _⟩ := judge_eq_ok_iff.mp judged
        obtain ⟨rfl, spelled, ends⟩ := Piece.cut_eq_iff.mp ⟨form, cut, kinds⟩
        exact ⟨kind, first :: body, rest, split, spelled, ends, rfl, rfl⟩

/-- A token that was taken leaves less text, unless it is the end of the input. -/
theorem scan_shorter {lexer next : Lexer} {token : Token}
    (scanned : lexer.scan = (.ok token, next)) (going : token.kind ≠ .endOfInput) :
    next.ahead.length < lexer.ahead.length ∧ next.peeked = lexer.peeked := by
  obtain ⟨blanks, _, ⟨_, _, rfl⟩ | ⟨kind, glyphs, rest, ahead, spelled, _, _, rfl⟩⟩ :=
    scan_eq_ok scanned
  · exact absurd rfl going
  · have positive := List.length_pos_iff.mpr (Fragment.Valid.glyphs_ne_nil
      (show Fragment.Valid (.word kind glyphs) from spelled))
    simp only [Fragment.glyphs] at positive
    refine ⟨?_, rfl⟩
    simp only [ahead, List.length_append]
    omega

/-- **Reading fragments.** Taking all tokens of a text that starts with readable
fragments gives the tokens of the fragments and then those of the rest. The
induction follows the fragments: a blank takes no token, a word takes one. -/
theorem drain_text_append {rest : List Glyph} {fragments : List Fragment}
    (readable : Fragment.Readable rest fragments) (position : Position) {fault : Option String}
    (seen : rest = [] → fault = none) (limit : Nat) :
    drain (limit + (Fragment.tokensFrom position fragments).length)
        ⟨Fragment.text fragments ++ rest, position, fault, none⟩ =
      (drain limit ⟨rest, position.afterAll (Fragment.text fragments), fault, none⟩).map
        (Fragment.tokensFrom position fragments ++ ·) := by
  induction fragments generalizing position with
  | nil =>
      change drain limit ⟨rest, position, fault, none⟩ =
        (drain limit ⟨rest, position, fault, none⟩).map ([] ++ ·)
      cases drain limit ⟨rest, position, fault, none⟩ <;> rfl
  | cons fragment others ih =>
      obtain ⟨valid, ends, readable⟩ := readable
      have behind := ih readable (position.afterAll fragment.glyphs)
      rw [Fragment.text_cons, Position.afterAll_append, List.append_assoc]
      cases fragment with
      | blank glyph =>
          have skipped : ∀ count, drain count
              ⟨glyph :: (Fragment.text others ++ rest), position, fault, none⟩ =
                drain count ⟨Fragment.text others ++ rest, position.after glyph, fault, none⟩ := by
            intro count
            cases count with
            | zero => rfl
            | succ count => simp only [drain, next, scan_cons_blank valid]
          exact (skipped _).trans behind
      | word kind glyphs =>
          have unread : Fragment.text others ++ rest = [] → fault = none := by
            intro nothing
            exact seen (List.append_eq_nil_iff.mp nothing).2
          have taken := scan_word valid _ ends position unread none
          have going : kind ≠ .endOfInput := valid.kind_ne_endOfInput
          simp only [Fragment.glyphs] at behind ⊢
          simp only [Fragment.tokensFrom, Fragment.tokens, Fragment.glyphs, List.cons_append,
            List.nil_append, List.length_cons, ← Nat.add_assoc, drain, next, taken, going,
            ↓reduceIte, behind]
          cases drain limit ⟨rest, (position.afterAll glyphs).afterAll (Fragment.text others),
            fault, none⟩ <;> rfl

/-- All tokens of a text were taken only if the text consists of readable
fragments and nothing went wrong behind them. -/
theorem drain_eq_ok {limit : Nat} {lexer : Lexer} {tokens : List Token}
    (enough : lexer.ahead.length < limit) (fresh : lexer.peeked = none)
    (drained : drain limit lexer = .ok tokens) :
    lexer.fault = none ∧ ∃ fragments, lexer.ahead = Fragment.text fragments ∧
      Fragment.Readable [] fragments ∧
      tokens = Fragment.tokensFrom lexer.position fragments ++
        [⟨.endOfInput, "", .point (lexer.position.afterAll lexer.ahead)⟩] := by
  induction limit generalizing lexer tokens with
  | zero => exact absurd enough (Nat.not_lt_zero _)
  | succ limit ih =>
      cases scanned : lexer.scan with
      | mk result next =>
          simp only [drain, Lexer.next, fresh, scanned] at drained
          cases result with
          | error failure => exact nomatch drained
          | ok token =>
              obtain ⟨blanks, blank, ⟨nothing, readable, rfl⟩ |
                ⟨kind, glyphs, rest, ahead, spelled, ends, rfl, moved⟩⟩ := scan_eq_ok scanned
              · simp only [↓reduceIte, Except.ok.injEq] at drained
                refine ⟨readable, blanks.map .blank, ?_, Fragment.readable_map_blank blank _, ?_⟩
                · rw [Fragment.text_map_blank, nothing]
                · rw [Fragment.tokensFrom_map_blank, List.nil_append, ← drained, nothing]
              · simp only [spelled.kind_ne_endOfInput, ↓reduceIte] at drained
                obtain ⟨less, same⟩ := scan_shorter scanned spelled.kind_ne_endOfInput
                have shorter : next.ahead.length < limit := by omega
                have unpeeked : next.peeked = none := same.trans fresh
                cases others : drain limit next with
                | error failure =>
                    rw [others] at drained
                    exact nomatch drained
                | ok behind =>
                    rw [others] at drained
                    obtain ⟨readable, fragments, text, split, rfl⟩ := ih shorter unpeeked others
                    subst moved
                    simp only at text readable
                    cases Except.ok.inj drained
                    refine ⟨readable, blanks.map .blank ++ .word kind glyphs :: fragments,
                      ?_, ?_, ?_⟩
                    · rw [Fragment.text_append, Fragment.text_map_blank, Fragment.text_cons, ← text]
                      exact ahead
                    · refine Fragment.readable_append_iff.mpr
                        ⟨Fragment.readable_map_blank blank _, spelled, ?_, split⟩
                      rw [List.append_nil, ← text]
                      exact ends
                    · rw [Fragment.tokensFrom_append, Fragment.tokensFrom_map_blank,
                        Fragment.text_map_blank, List.nil_append, ahead, Position.afterAll_append,
                        Position.afterAll_append]
                      rfl

/-- A limit above the number of characters has no part in what is taken. -/
theorem drain_of_length_lt {limit : Nat} {lexer : Lexer} (enough : lexer.ahead.length < limit)
    (fresh : lexer.peeked = none) (more : Nat) : drain (limit + more) lexer = drain limit lexer := by
  induction limit generalizing lexer with
  | zero => exact absurd enough (Nat.not_lt_zero _)
  | succ limit ih =>
      rw [Nat.add_right_comm]
      rcases scanned : lexer.scan with ⟨failure | token, next⟩
      · simp only [drain, Lexer.next, fresh, scanned]
      · simp only [drain, Lexer.next, fresh, scanned]
        by_cases finished : token.kind = .endOfInput
        · rw [if_pos finished, if_pos finished]
        · obtain ⟨less, same⟩ := scan_shorter scanned finished
          rw [if_neg finished, if_neg finished, ih (by omega) (same.trans fresh)]

private theorem exists_lexical_of_judge {first : Glyph} {piece : Piece} {span : Span}
    {failure : LexFailure} (failed : judge none first piece span = .error failure) :
    ∃ error, failure = .lexical error := by
  obtain ⟨form, body, rest⟩ := piece
  cases form with
  | closed kind => cases failed
  | longest kind => cases rest <;> cases failed
  | unclosed =>
      cases failed
      exact ⟨_, rfl⟩
  | stray =>
      cases failed
      exact ⟨_, rfl⟩

/-- A text that can be read to its end is wrong, if no token can be had. -/
theorem next_of_readable {lexer : Lexer} (readable : lexer.fault = none) :
    lexer.next.2.fault = none ∧
      ∀ failure, lexer.next.1 = .error failure → ∃ error, failure = .lexical error := by
  unfold next
  cases lexer.peeked with
  | some token => exact ⟨readable, fun failure failed => nomatch failed⟩
  | none =>
      simp only [scan]
      cases lexer.ahead.dropWhile fun glyph => isBlank glyph.char with
      | nil =>
          simp only [readable]
          exact ⟨trivial, fun failure failed => nomatch failed⟩
      | cons first text =>
          simp only [readable]
          exact ⟨trivial, fun failure failed => exists_lexical_of_judge failed⟩

/-- Where the input can be read, draining fails only for an error in its characters. -/
theorem exists_lexical_of_drain {limit : Nat} {lexer : Lexer} {failure : LexFailure}
    (readable : lexer.fault = none) (failed : lexer.drain limit = .error failure) :
    ∃ error, failure = .lexical error := by
  induction limit generalizing lexer with
  | zero => cases failed
  | succ limit ih =>
      obtain ⟨behind, lexical⟩ := next_of_readable readable
      rw [drain] at failed
      rcases taken : lexer.next with ⟨complaint | token, rest⟩
      · rw [taken] at failed lexical
        cases failed
        exact lexical failure rfl
      · rw [taken] at failed behind
        simp only at failed
        split at failed
        · cases failed
        · cases drained : rest.drain limit with
          | error complaint =>
              rw [drained] at failed
              cases failed
              exact ih behind drained
          | ok tokens =>
              rw [drained] at failed
              cases failed

end Lexer

/-- A source that starts with readable fragments is split into their tokens and those
of the rest. -/
theorem tokenize_of_decode_eq_append {input : Input} {fragments : List Fragment}
    {rest : List Glyph} (decoded : Glyph.decode input.bytes = Fragment.text fragments ++ rest)
    (readable : Fragment.Readable rest fragments) (seen : rest = [] → input.fault = none)
    (file : String) :
    tokenize input file =
      (Lexer.drain (rest.length + 1)
        ⟨rest, (Position.start file).afterAll (Fragment.text fragments), input.fault, none⟩).map
          (Fragment.tokensFrom (.start file) fragments ++ ·) := by
  -- The limit counts characters, of which the fragments have no fewer than tokens.
  obtain ⟨spare, bound⟩ := Nat.exists_eq_add_of_le
    (Fragment.length_tokensFrom_le readable (.start file))
  have limit : (Glyph.decode input.bytes).length + 1 =
      rest.length + 1 + spare + (Fragment.tokensFrom (.start file) fragments).length := by
    rw [decoded, List.length_append, bound]
    omega
  have unlimited := @Lexer.drain_of_length_lt (rest.length + 1)
    ⟨rest, (Position.start file).afterAll (Fragment.text fragments), input.fault, none⟩
    (Nat.lt_succ_self _) rfl spare
  simp only [tokenize, Lexer.ofInput]
  rw [limit, decoded, Lexer.drain_text_append readable _ seen, unlimited]

/-- **The lexical language.** A source is split into tokens exactly if it can be
read to its end and consists of readable fragments, and the tokens are those of
the fragments with the end of the input behind them. -/
theorem tokenize_eq_ok_iff {input : Input} {file : String} {tokens : List Token} :
    tokenize input file = .ok tokens ↔
      input.fault = none ∧ ∃ fragments, Glyph.decode input.bytes = Fragment.text fragments ∧
        Fragment.Readable [] fragments ∧
        tokens = Fragment.tokensFrom (.start file) fragments ++
          [⟨.endOfInput, "",
            .point ((Position.start file).afterAll (Fragment.text fragments))⟩] := by
  constructor
  · intro read
    obtain ⟨readable, fragments, text, split, all⟩ :=
      Lexer.drain_eq_ok (Nat.lt_succ_self _) rfl read
    refine ⟨readable, fragments, text, split, ?_⟩
    rw [← text]
    exact all
  · rintro ⟨readable, fragments, text, split, rfl⟩
    rw [← List.append_nil (Fragment.text fragments)] at text
    rw [tokenize_of_decode_eq_append text split (fun _ => readable), readable]
    rfl

end Scriptlet
