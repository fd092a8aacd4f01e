import Mathlib.Data.List.Forall2
import Scriptlet.Proofs.Yaml.Scanning
import Scriptlet.Yaml.Node

/-! # Tables that were written line by line

A table of texts is written as one line for each entry, and a value may be continued in
further lines. Its tokens are those of its entries between the start and the end of a table
(`tokenize_table`), and the node that they make up has these entries in this order
(`readNode_table`).
-/

namespace Scriptlet

namespace Yaml

open Style

/-- The lines of an entry. -/
def entryLines (entry : String × String) : List Char :=
  entry.1.toList ++ ':' :: ' ' :: (write (entry.1.length + 2) entry.2 ++
    if leavesLineOpen entry.2.toList then ['\n'] else [])

/-- The lines of a table. -/
def tableLines (entries : List (String × String)) : List Char :=
  entries.flatMap entryLines

/-! ## Tokens -/

namespace Scanner

/-- A scanner is finished if its last token ends the stream. -/
theorem isFinished_eq {scanner : Scanner} {front : List TokenKind} {last : TokenKind}
    (kinds : scanner.tokens.map (·.kind) = front ++ [last]) :
    scanner.isFinished = decide (last = .streamEnd) := by
  have behind := congrArg List.getLast? kinds
  rw [List.getLast?_map, List.getLast?_append, List.getLast?_singleton, Option.some_or] at behind
  obtain ⟨token, found, rfl⟩ := Option.map_eq_some_iff.mp behind
  rw [isFinished, found, Option.any_some]

/-- A scanner goes on until a token ends the stream. -/
theorem finish_fetch {scanner next : Scanner} (fetched : scanner.fetch = .ok next)
    {front : List TokenKind} {last : TokenKind}
    (kinds : next.tokens.map (·.kind) = front ++ [last]) (goesOn : last ≠ .streamEnd)
    (steps : Nat) : finish (steps + 1) scanner = finish steps next := by
  simp [finish, fetched, isFinished_eq kinds, goesOn]

/-- Whether the scanner stands in front of a line of a table, before or inside it, with tokens
of some kinds behind it. -/
structure AtLine (scanner : Scanner) (opened : Bool) (chars : List Char)
    (kinds : List TokenKind) : Prop where
  unmarked : scanner.window.isMarked = false
  alone : scanner.keys = [none]
  indent : scanner.indent = if opened then 0 else -1
  indents : scanner.indents = if opened then [-1] else []
  kinds : scanner.tokens.map (·.kind) = kinds
  plain : PlainText chars
  lineStart : ∃ line, skipBlanks false false false scanner.keyAllowed scanner.mark scanner.chars =
    (true, ⟨line, 0⟩, chars)

/-- The kinds of the tokens of an entry, whose value may be bare. -/
def entryKinds (entry : String × String) (bare : Bool) : List TokenKind :=
  [.key, .scalar true entry.1, .value, .scalar bare entry.2]

/-- Whether the scanner stands behind a key, which may still be something else, and in front of
a colon, a blank and some characters. -/
structure AtColon (scanner : Scanner) (opened : Bool) (key : String) (chars : List Char)
    (kinds : List TokenKind) : Prop where
  unmarked : scanner.window.isMarked = false
  indent : scanner.indent = if opened then 0 else -1
  indents : scanner.indents = if opened then [-1] else []
  plain : PlainText chars
  text : scanner.chars = ':' :: ' ' :: chars
  saved : ∃ line required front last,
    scanner.keys = [some ⟨front.length, ⟨line, 0⟩, required⟩] ∧
    scanner.mark = ⟨line, key.toList.length⟩ ∧ scanner.tokens = front ++ [last] ∧
    front.map (·.kind) = kinds ∧ last.kind = .scalar true key

/-- Whether the scanner stands behind the colon of an entry, in front of a blank and some
characters. -/
structure BehindColon (scanner : Scanner) (chars : List Char) (kinds : List TokenKind) : Prop where
  unmarked : scanner.window.isMarked = false
  alone : scanner.keys = [none]
  indent : scanner.indent = 0
  indents : scanner.indents = [-1]
  noKey : scanner.keyAllowed = false
  plain : PlainText chars
  text : scanner.chars = ' ' :: chars
  kinds : scanner.tokens.map (·.kind) = kinds

private theorem skipBlanks_blank (allowed : Bool) (mark : Mark) (text : List Char) :
    skipBlanks false false false allowed mark (' ' :: text) =
      skipBlanks false false false allowed (mark.right 1) text := by
  rw [skipBlanks, if_neg (by simp), if_neg (by decide), if_pos (by simp),
    Mark.after_of_not_isBreak (by decide)]

/-- A single level without a key is fresh. -/
theorem fresh_of_alone {scanner : Scanner} (alone : scanner.keys = [none]) : scanner.Fresh := by
  simp [Fresh, alone]

/-- A key is a token of its own. -/
theorem AtLine.fetch_key {scanner : Scanner} {opened : Bool} {key : String} {chars : List Char}
    {kinds : List TokenKind}
    (place : scanner.AtLine opened (key.toList ++ ':' :: ' ' :: chars) kinds)
    (word : KeyWord key.toList) :
    ∃ after, scanner.fetch = .ok after ∧ after.AtColon opened key chars kinds := by
  obtain ⟨line, skips⟩ := place.lineStart
  obtain ⟨next, reaches⟩ :=
    exists_reaches place.unmarked (by simp [inFlow, place.alone]) skips place.plain
  have alone := reaches.keys.trans place.alone
  have outside : next.inFlow = false := by simp [inFlow, alone]
  have level : next.Level := by
    refine ⟨outside, ?_⟩
    rw [reaches.indent, place.indent, reaches.mark]
    cases opened <;> simp
  obtain ⟨first, head, unlisted, noDash, noQuestion, noPoint⟩ := word.starts
  obtain ⟨rest, split⟩ := List.head?_eq_some_iff.mp head
  obtain ⟨isWord, noColon⟩ := word.words first (List.mem_of_mem_head? head)
  have text : next.chars = first :: (rest ++ ':' :: ' ' :: chars) := by
    rw [reaches.chars, split, List.cons_append]
  have dispatch : next.fetchAt first (rest ++ ':' :: ' ' :: chars) = next.fetchBare :=
    fetchAt_word outside unlisted isWord (by simp [noDash, noQuestion, noColon])
      (by simp [isDocumentMark, startsOpening, startsClosing, noDash.symm, noPoint.symm])
  obtain ⟨required, fetched⟩ := fetchBare_key alone reaches.keyAllowed word.words reaches.chars
  have near : ¬next.mark.column + KeyStart.limit < (next.mark.right key.toList.length).column := by
    have short := word.short
    simp only [Mark.right]
    omega
  refine ⟨_, fetch_eq reaches.moves (fresh_of_alone alone) level text (dispatch.trans fetched) ?_,
    ?_⟩
  · simpa [Fresh, KeyStart.isStale, Mark.right] using near
  · exact {
      unmarked := reaches.unmarked
      indent := reaches.indent.trans place.indent
      indents := reaches.indents.trans place.indents
      plain := fun char member => place.plain char (by simp [member])
      text := rfl
      saved := ⟨line, required, next.tokens, _, by rw [reaches.mark],
        by simp [reaches.mark, Mark.right], rfl, by rw [reaches.tokens, place.kinds],
        by rw [String.ofList_toList]⟩ }

/-- A colon shows the key, and the table if this is its first entry. -/
theorem AtColon.fetch_colon {scanner : Scanner} {opened : Bool} {key : String} {chars : List Char}
    {kinds : List TokenKind} (place : scanner.AtColon opened key chars kinds)
    (word : KeyWord key.toList) :
    ∃ after, scanner.fetch = .ok after ∧ after.BehindColon chars
      (kinds ++ ((if opened then [] else [.tableStart]) ++ [.key, .scalar true key, .value])) := by
  obtain ⟨line, required, front, last, keys, mark, tokens, rfl, lastKind⟩ := place.saved
  have plain : PlainText (':' :: ' ' :: chars) := .cons (by decide) (.blank place.plain)
  have starts : StartsToken (':' :: ' ' :: chars) := by
    rintro _ ⟨⟩
    decide
  have skips := skipBlanks_token scanner.keyAllowed scanner.mark starts
  rw [← place.text] at skips plain
  obtain ⟨next, reaches⟩ := exists_reaches place.unmarked (by simp [inFlow, keys]) skips plain
  have nonempty : 0 < key.toList.length := by
    obtain ⟨first, head, -⟩ := word.starts
    exact List.length_pos_of_mem (List.mem_of_mem_head? head)
  have alone := reaches.keys.trans keys
  have outside : next.inFlow = false := by simp [inFlow, alone]
  have column : next.mark.column = key.toList.length := by rw [reaches.mark, mark]
  have fresh : next.Fresh := by
    have short := word.short
    simp [Fresh, alone, KeyStart.isStale, reaches.mark, mark]
    omega
  have level : next.Level := by
    refine ⟨outside, ?_⟩
    rw [reaches.indent, place.indent]
    cases opened <;> simp
  have text := reaches.chars.trans place.text
  have fetched := fetchValue_key alone (reaches.tokens.trans tokens) rfl text
  have dispatch : next.fetchAt ':' (' ' :: chars) = next.fetchValue := by
    simp [fetchAt, column, Nat.pos_iff_ne_zero.mp nonempty, startsSpace, isSpace, isBlank]
  refine ⟨_, fetch_eq reaches.moves fresh level text (dispatch.trans fetched) (by simp [Fresh]), ?_⟩
  exact {
    unmarked := reaches.unmarked
    alone := rfl
    indent := by
      simp only [reaches.indent, place.indent]
      cases opened <;> rfl
    indents := by
      simp only [reaches.indent, reaches.indents, place.indent, place.indents]
      cases opened <;> rfl
    noKey := rfl
    plain := place.plain
    text := rfl
    kinds := by
      simp only [reaches.indent, place.indent]
      cases opened <;> simp [lastKind] }

/-- A value is one token, behind which the next line starts. -/
theorem BehindColon.fetch_value {scanner : Scanner} {value : String} {column : Nat}
    {next : List Char} {kinds : List TokenKind}
    (place : scanner.BehindColon (write column value ++
      ((if leavesLineOpen value.toList then ['\n'] else []) ++ next)) kinds)
    (starts : StartsToken next) :
    ∃ (bare : Bool) (after : Scanner), (bare → isText value) ∧ scanner.fetch = .ok after ∧
      after.AtLine true next (kinds ++ [.scalar bare value]) := by
  have skips := skipBlanks_token scanner.keyAllowed (scanner.mark.right 1) (startsToken_write
    column value ((if leavesLineOpen value.toList then ['\n'] else []) ++ next))
  rw [← skipBlanks_blank, ← place.text] at skips
  obtain ⟨there, reaches⟩ :=
    exists_reaches place.unmarked (by simp [inFlow, place.alone]) skips place.plain
  have alone := reaches.keys.trans place.alone
  have indent := reaches.indent.trans place.indent
  have value : there.AtValue :=
    ⟨alone, reaches.keyAllowed.trans place.noKey, indent, by simp [reaches.mark, Mark.right]⟩
  obtain ⟨bare, ⟨char, rest, after, text, fetched, takes⟩, isText⟩ :=
    value.takesNext_write _ column starts reaches.chars
  obtain ⟨mark, chars, allowed, line, rfl, lineStart⟩ := takes
  refine ⟨bare, _, isText, fetch_eq reaches.moves (fresh_of_alone alone)
    ⟨value.outside, by simp [indent]⟩ text fetched (fresh_of_alone alone), ?_⟩
  exact {
    unmarked := reaches.unmarked
    alone := alone
    indent := indent
    indents := reaches.indents.trans place.indents
    kinds := by simp [reaches.tokens, place.kinds]
    plain := fun char member => place.plain char (by simp [member])
    lineStart := ⟨line, lineStart⟩ }

/-- What follows an entry is another one or the end. -/
theorem startsToken_tableLines {entries : List (String × String)}
    (words : ∀ entry ∈ entries, KeyWord entry.1.toList) : StartsToken (tableLines entries) := by
  cases entries with
  | nil => rintro _ ⟨⟩
  | cons entry entries =>
      have word := words entry List.mem_cons_self
      obtain ⟨first, head, unlisted, -⟩ := word.starts
      obtain ⟨rest, split⟩ := List.head?_eq_some_iff.mp head
      rw [tableLines, List.flatMap_cons, entryLines, split]
      rintro _ ⟨⟩
      refine ⟨(word.words first (List.mem_of_mem_head? head)).1, ?_⟩
      rintro rfl
      cases unlisted

/-- **A line of a table is cut into its tokens**, in three steps. -/
theorem AtLine.entry {scanner : Scanner} {opened : Bool} {entry : String × String}
    {next : List Char} {kinds : List TokenKind}
    (place : scanner.AtLine opened (entryLines entry ++ next) kinds)
    (word : KeyWord entry.1.toList) (starts : StartsToken next) :
    ∃ (bare : Bool) (after : Scanner), (bare → isText entry.2) ∧
      after.AtLine true next
        (kinds ++ (if opened then [] else [.tableStart]) ++ entryKinds entry bare) ∧
      ∀ steps, finish (steps + 3) scanner = finish steps after := by
  simp only [entryLines, List.append_assoc, List.cons_append] at place
  obtain ⟨first, keyFetched, atColon⟩ := place.fetch_key word
  obtain ⟨second, colonFetched, behindColon⟩ := atColon.fetch_colon word
  obtain ⟨bare, third, text, valueFetched, atLine⟩ := behindColon.fetch_value starts
  refine ⟨bare, third, text, ?_, fun steps => ?_⟩
  · simpa [entryKinds] using atLine
  · obtain ⟨_, _, front, last, -, -, tokens, -, lastKind⟩ := atColon.saved
    have keyKinds : first.tokens.map (·.kind) = front.map (·.kind) ++ [last.kind] := by
      rw [tokens, List.map_append, List.map_singleton]
    have colonKinds : second.tokens.map (·.kind) =
        (kinds ++ ((if opened then [] else [.tableStart]) ++ [.key, .scalar true entry.1])) ++
          [.value] := by
      simp [behindColon.kinds]
    calc finish (steps + 3) scanner
      _ = finish (steps + 2) first := finish_fetch keyFetched keyKinds (by simp [lastKind]) _
      _ = finish (steps + 1) second := finish_fetch colonFetched colonKinds (by simp) _
      _ = finish steps third := finish_fetch valueFetched atLine.kinds (by simp) _

/-- The end of the text ends the table. -/
theorem AtLine.finish_end {scanner : Scanner} {kinds : List TokenKind}
    (place : scanner.AtLine true [] kinds) (steps : Nat) :
    (finish (steps + 1) scanner).map (·.kind) = kinds ++ [.blockEnd, .streamEnd] := by
  obtain ⟨line, skips⟩ := place.lineStart
  obtain ⟨next, reaches⟩ :=
    exists_reaches place.unmarked (by simp [inFlow, place.alone]) skips place.plain
  have alone := reaches.keys.trans place.alone
  have indent : next.indent = 0 := reaches.indent.trans place.indent
  have indents : next.indents = [-1] := reaches.indents.trans place.indents
  have level : next.Level := ⟨by simp [inFlow, alone], by simp [indent]⟩
  obtain ⟨after, fetched, aloneAfter, tokens⟩ : ∃ after, next.fetchEnd = .ok after ∧
      after.keys = [none] ∧
      after.tokens = next.tokens ++ [⟨.blockEnd, line⟩] ++ [⟨.streamEnd, line⟩] := by
    refine ⟨_, by simp [fetchEnd, unindentTo, inFlow, alone, indent, indents, outdent, dropKey,
      key?, reaches.mark, Mark.closeLine, bind, Except.bind, pure, Except.pure]; rfl, ?_, ?_⟩
    · rfl
    · simp [setKey, allowKey, push]
  have fetches := fetch_eq_end reaches.moves (fresh_of_alone alone) level reaches.chars fetched
    (fresh_of_alone aloneAfter)
  have all : after.tokens.map (·.kind) = (kinds ++ [.blockEnd]) ++ [.streamEnd] := by
    simp [tokens, reaches.tokens, place.kinds]
  rw [finish, fetches]
  simp only [isFinished_eq all, decide_true, if_true, all, List.append_assoc]
  rfl

/-- **The lines of a table are cut into tokens** one after the other. -/
theorem AtLine.run {scanner : Scanner} {entries : List (String × String)} {kinds : List TokenKind}
    (place : scanner.AtLine true (tableLines entries) kinds)
    (words : ∀ entry ∈ entries, KeyWord entry.1.toList) :
    ∃ styled : List ((String × String) × Bool), styled.map (·.1) = entries ∧
      (∀ entry ∈ styled, entry.2 → isText entry.1.2) ∧
      ∃ after : Scanner,
        after.AtLine true [] (kinds ++ styled.flatMap fun entry => entryKinds entry.1 entry.2) ∧
        ∀ steps, finish (steps + 3 * entries.length) scanner = finish steps after := by
  induction entries generalizing scanner kinds with
  | nil =>
      refine ⟨[], rfl, by simp, scanner, ?_, fun _ => rfl⟩
      rwa [List.flatMap_nil, List.append_nil]
  | cons entry entries ih =>
      obtain ⟨word, others⟩ := List.forall_mem_cons.mp words
      have starts := startsToken_tableLines others
      rw [tableLines, List.flatMap_cons] at place
      obtain ⟨bare, next, text, there, first⟩ := place.entry word starts
      obtain ⟨styled, same, texts, after, atEnd, later⟩ := ih there others
      refine ⟨(entry, bare) :: styled, by rw [List.map_cons, same],
        List.forall_mem_cons.mpr ⟨text, texts⟩, after, ?_, fun steps => ?_⟩
      · simpa using atEnd
      · rw [List.length_cons, Nat.mul_succ, ← Nat.add_assoc, first, later]

end Scanner

private theorem plainText_write (column : Nat) (content : String) : PlainText (write column content) := by
  have written := spelling_write column content
  generalize write column content = text at written
  cases written with
  | block feed allowed =>
      refine plainText_block ?_ (plainText_of_allowsBlock allowed)
      intro empty
      rw [empty] at feed
      cases feed
  | double lineOpen => exact plainText_doubleQuoted column content.toList
  | bare lineOpen text allowed =>
      simp only [allowsBare, Bool.and_eq_true, List.all_eq_true] at allowed
      exact PlainText.bare allowed.1.1.1 column false
  | single lineOpen noFeed allowed =>
      simp only [allowsSingle, Bool.and_eq_true, List.all_eq_true] at allowed
      exact .append (.cons (by decide) (PlainText.single allowed.1.1 (column + 1) false false))
        (.cons (by decide) .nil)

/-- The lines of a table are plain. -/
theorem plainText_tableLines {entries : List (String × String)}
    (words : ∀ entry ∈ entries, KeyWord entry.1.toList) : PlainText (tableLines entries) := by
  intro char member
  obtain ⟨entry, listed, member⟩ := List.mem_flatMap.mp member
  have ending : PlainText (if leavesLineOpen entry.2.toList then ['\n'] else []) := by
    split
    · exact .cons (by decide) .nil
    · exact .nil
  exact PlainText.append (words entry listed).plain
    (.cons (by decide) (.blank (.append (plainText_write _ entry.2) ending))) char member

private theorem length_tableLines {entries : List (String × String)}
    (words : ∀ entry ∈ entries, KeyWord entry.1.toList) :
    3 * entries.length ≤ (tableLines entries).length := by
  induction entries with
  | nil => exact Nat.le_refl 0
  | cons entry entries ih =>
      obtain ⟨word, others⟩ := List.forall_mem_cons.mp words
      obtain ⟨first, head, -⟩ := word.starts
      have nonempty := List.length_pos_of_mem (List.mem_of_mem_head? head)
      have rest := ih others
      simp only [tableLines, List.flatMap_cons, entryLines, List.length_append,
        List.length_cons] at rest ⊢
      omega

/-- **The tokens of a table** are those of its entries, between its start and its end. -/
theorem tokenize_table {entries : List (String × String)} (nonempty : entries ≠ [])
    (words : ∀ entry ∈ entries, KeyWord entry.1.toList) :
    ∃ styled : List ((String × String) × Bool), styled.map (·.1) = entries ∧
      (∀ entry ∈ styled, entry.2 → isText entry.1.2) ∧
      (tokenize (tableLines entries)).map (·.kind) =
        .tableStart :: (styled.flatMap fun entry => Scanner.entryKinds entry.1 entry.2) ++
          [.blockEnd, .streamEnd] := by
  have plain := plainText_tableLines words
  have long := length_tableLines words
  have start : Scanner.AtLine
      { chars := tableLines entries, window := .ofText (tableLines entries) }
      false (tableLines entries) [] :=
    { unmarked := Window.startsMarked_of_plain plain
      alone := rfl
      indent := rfl
      indents := rfl
      kinds := rfl
      plain := plain
      lineStart := ⟨0, Scanner.skipBlanks_token true _ (Scanner.startsToken_tableLines words)⟩ }
  cases entries with
  | nil => exact absurd rfl nonempty
  | cons entry entries =>
      obtain ⟨word, others⟩ := List.forall_mem_cons.mp words
      obtain ⟨bare, next, text, there, first⟩ :=
        start.entry word (Scanner.startsToken_tableLines others)
      obtain ⟨styled, same, texts, after, atEnd, later⟩ := there.run others
      refine ⟨(entry, bare) :: styled, by rw [List.map_cons, same],
        List.forall_mem_cons.mpr ⟨text, texts⟩, ?_⟩
      obtain ⟨spare, enough⟩ := Nat.exists_eq_add_of_le long
      have steps : (tableLines (entry :: entries)).length + 1 =
          spare + 1 + 3 * entries.length + 3 := by
        rw [enough, List.length_cons]
        omega
      rw [tokenize, steps, first, later, atEnd.finish_end]
      simp

/-! ## Nodes -/

/-- Whether two nodes are the key and the value of an entry. -/
def Describes (nodes : Node × Node) (entry : String × String) : Prop :=
  ∃ (nameLine valueLine : Nat) (bare : Bool), (bare → isText entry.2) ∧
    nodes = (.scalar nameLine "" true entry.1, .scalar valueLine "" bare entry.2)

namespace Assembler

private theorem blockEntries_entry (depth : Nat) (keyLine nameLine colonLine valueLine : Nat)
    (entry : String × String) (bare : Bool) (rest : List Token) (anchors : List Anchor)
    (handles : List (String × String)) :
    blockEntries (depth + 3)
        ⟨⟨.key, keyLine⟩ :: ⟨.scalar true entry.1, nameLine⟩ :: ⟨.value, colonLine⟩ ::
          ⟨.scalar bare entry.2, valueLine⟩ :: rest, anchors, handles⟩ =
      (blockEntries (depth + 2) ⟨rest, anchors, handles⟩).map fun (nodes, assembly) =>
        ((.scalar nameLine "" true entry.1, .scalar valueLine "" bare entry.2) :: nodes,
          assembly) := by
  cases bare <;> rfl

private theorem node_table (depth line : Nat) (tokens : List Token) (anchors : List Anchor)
    (handles : List (String × String)) :
    node (depth + 1) true false ⟨⟨.tableStart, line⟩ :: tokens, anchors, handles⟩ =
      (blockEntries depth ⟨tokens, anchors, handles⟩).map fun (nodes, assembly) =>
        (.table line nodes, assembly) := by
  rfl

/-- **The tokens of entries make up nodes** for these entries. -/
theorem exists_blockEntries_eq {styled : List ((String × String) × Bool)}
    (texts : ∀ entry ∈ styled, entry.2 → isText entry.1.2) {tokens : List Token}
    {rest : List TokenKind}
    (kinds : tokens.map (·.kind) =
      (styled.flatMap fun entry => Scanner.entryKinds entry.1 entry.2) ++ .blockEnd :: rest)
    (anchors : List Anchor) (handles : List (String × String)) (depth : Nat) :
    ∃ nodes remaining,
      blockEntries (depth + styled.length + 2) ⟨tokens, anchors, handles⟩ =
        .ok (nodes, ⟨remaining, anchors, handles⟩) ∧
      remaining.map (·.kind) = rest ∧ List.Forall₂ Describes nodes (styled.map (·.1)) := by
  induction styled generalizing tokens with
  | nil =>
      obtain ⟨⟨_, line⟩, remaining, rfl, rfl, rfl⟩ := List.map_eq_cons_iff.mp kinds
      exact ⟨[], remaining, rfl, rfl, .nil⟩
  | cons entry styled ih =>
      obtain ⟨text, others⟩ := List.forall_mem_cons.mp texts
      rw [List.flatMap_cons, List.append_assoc] at kinds
      obtain ⟨⟨_, keyLine⟩, named, rfl, rfl, name⟩ := List.map_eq_cons_iff.mp kinds
      obtain ⟨⟨_, nameLine⟩, marked, rfl, rfl, colon⟩ := List.map_eq_cons_iff.mp name
      obtain ⟨⟨_, colonLine⟩, valued, rfl, rfl, value⟩ := List.map_eq_cons_iff.mp colon
      obtain ⟨⟨_, valueLine⟩, tokens, rfl, rfl, later⟩ := List.map_eq_cons_iff.mp value
      obtain ⟨nodes, remaining, reads, left, described⟩ := ih others later
      refine ⟨_, remaining, ?_, left, .cons ⟨nameLine, valueLine, entry.2, text, rfl⟩ described⟩
      rw [List.length_cons, ← Nat.add_assoc, Nat.add_right_comm _ 1 2]
      exact (blockEntries_entry (depth + styled.length) keyLine nameLine colonLine valueLine
        entry.1 entry.2 tokens anchors handles).trans (by rw [reads]; rfl)

private theorem document_table (line : Nat) (tokens : List Token) :
    document ⟨⟨.tableStart, line⟩ :: tokens, [], []⟩ =
      (node (2 * (tokens.length + 1) + 4) true false
        ⟨⟨.tableStart, line⟩ :: tokens, [], usualHandles⟩).bind
        fun (root, assembly) => (peek assembly).bind fun (_, assembly) =>
          .ok (some root, assembly) := by
  rfl

end Assembler

private theorem length_entryKinds (styled : List ((String × String) × Bool)) :
    (styled.flatMap fun entry => Scanner.entryKinds entry.1 entry.2).length =
      4 * styled.length := by
  induction styled with
  | nil => rfl
  | cons entry styled ih =>
      rw [List.flatMap_cons, List.length_append, ih, List.length_cons, Scanner.entryKinds]
      simp only [List.length_cons, List.length_nil]
      omega

/-- **A written table is read back**: the document is a table with these entries. -/
theorem readNode_table {entries : List (String × String)} (nonempty : entries ≠ [])
    (words : ∀ entry ∈ entries, KeyWord entry.1.toList) :
    ∃ line nodes, readNode (Bytes.ofChars (tableLines entries)) = .ok (some (.table line nodes)) ∧
      List.Forall₂ Describes nodes entries := by
  obtain ⟨styled, rfl, texts, kinds⟩ := tokenize_table nonempty words
  have text := readText_of_plain (plainText_tableLines words)
  generalize all : tokenize (tableLines (styled.map (·.1))) = tokens at kinds
  obtain ⟨⟨_, line⟩, inner, rfl, rfl, entries⟩ := List.map_eq_cons_iff.mp kinds
  have enough : styled.length ≤ inner.length := by
    have counted := congrArg List.length entries
    rw [List.length_map, List.append_eq, List.length_append, length_entryKinds] at counted
    omega
  obtain ⟨spare, split⟩ := Nat.exists_eq_add_of_le enough
  obtain ⟨nodes, remaining, reads, left, described⟩ :=
    Assembler.exists_blockEntries_eq texts entries [] Assembler.usualHandles
      (2 * spare + styled.length + 3)
  obtain ⟨⟨_, endLine⟩, others, rfl, rfl, -⟩ := List.map_eq_cons_iff.mp left
  have depth : 2 * (inner.length + 1) + 4 =
      (2 * spare + styled.length + 3) + styled.length + 2 + 1 := by omega
  refine ⟨line, nodes, ?_, described⟩
  have document := Assembler.document_table line inner
  rw [depth, Assembler.node_table, reads] at document
  rw [readNode, text]
  change StateT.run' Assembler.document { tokens := tokenize (tableLines (styled.map (·.1))) } = _
  rw [all]
  exact congrArg (Except.map Prod.fst) document

end Yaml

end Scriptlet
