import Scriptlet.Proofs.Yaml.Folding

/-! # Reading blocks

A text with line feeds is written as a block: a line that tells how the block ends, and then
the lines of the text behind a margin. Reading keeps the line breaks behind the last word it
has given out, since only the next word shows that they belong to the text. What one
character of the text does to a block is said once (`Stands.step`) and carried over the lines
(`Stands.run`); which line breaks stay at the end is then told by the sign in the first line
(`readBlockScalar_block`).
-/

namespace Scriptlet

namespace Yaml

open Style

namespace Block

/-- The line breaks that have been read but not given out. -/
def pending (block : Block) : List Char :=
  block.first ++ block.more

/-- Where reading stands in a block with a margin, in front of some characters of the text:
inside a line, or at the start of one. The first line may have to show the margin. -/
inductive Stands (block : Block) (mark : Mark) (chars : List Char) : Prop
  | inside (literal : block.folded = false) (inside : block.inside)
      (known : block.indent = some indentation) (clear : block.pending = [])
  | outside (literal : block.folded = false) (outside : block.inside = false)
      (lineStart : mark.column = 0) (known : block.indent = some indentation)
  | opening (literal : block.folded = false) (outside : block.inside = false)
      (lineStart : mark.column = 0) (unknown : block.indent = none) (shallow : block.outer = 0)
      (flush : block.reach = 0) (clear : block.pending = [])
      (word : ∃ char ∈ chars.head?, isSpace char = false)

end Block

private theorem readBlock_inside {block : Block} (inside : block.inside) {char : Char}
    (inline : isBreak char = false) (mark : Mark) (text : List Char) :
    readBlock block mark (char :: text) =
      (readBlock block (mark.after char) text).map (·.behind [char]) := by
  rw [readBlock, if_pos inside, if_neg (by simp [inline])]

/-- A line of a block ends, and the next one begins. -/
theorem readBlock_inside_break {block : Block} (inside : block.inside) {char : Char}
    (ends : isBreak char) (mark : Mark) (text : List Char) :
    readBlock block mark (char :: text) =
      readBlock { block with first := [char], reach := 0, inside := false }
        ⟨mark.line + 1, 0⟩ text := by
  rw [readBlock, if_pos inside, if_pos ends, Mark.after, if_pos ends]

private theorem readBlock_outside_break {block : Block} (outside : block.inside = false) {char : Char}
    (ends : isBreak char) (mark : Mark) (text : List Char) :
    readBlock block mark (char :: text) =
      readBlock { block with more := block.more ++ [char] } ⟨mark.line + 1, 0⟩ text := by
  have noBlank : char ≠ ' ' := by
    rintro rfl
    cases ends
  have noTab : char ≠ '\t' := by
    rintro rfl
    cases ends
  rw [readBlock, if_neg (by simp [outside]), if_neg (by simp [noBlank]), if_neg (by simp [noTab]),
    if_pos ends, Mark.after, if_pos ends]

/-- A blank of the indentation is passed over. -/
theorem readBlock_indent (block : Block) (outside : block.inside = false) (mark : Mark)
    (before : block.isBefore mark.column) (text : List Char) :
    readBlock block mark (' ' :: text) =
      readBlock { block with reach := max block.reach (mark.column + 1) } (mark.right 1) text := by
  rw [readBlock, if_neg (by simp [outside]), if_pos ⟨rfl, before⟩,
    Mark.after_of_not_isBreak (by decide)]

private theorem readBlock_margin {block : Block} (outside : block.inside = false)
    (before : ∀ column < indentation, block.isBefore column) {mark : Mark}
    (lineStart : mark.column = 0) (text : List Char) :
    readBlock block mark (margin ++ text) =
      readBlock { block with reach := max block.reach indentation } ⟨mark.line, indentation⟩
        text := by
  obtain ⟨line, column⟩ := mark
  obtain rfl : column = 0 := lineStart
  have second := readBlock_indent { block with reach := max block.reach 1 } outside ⟨line, 1⟩
    (before 1 (by decide)) text
  rw [Nat.max_assoc] at second
  exact (readBlock_indent block outside ⟨line, 0⟩ (before 0 (by decide)) (' ' :: text)).trans second

/-- The first character of a line, behind the margin, gives out the line breaks in front. -/
theorem readBlock_outside_word (block : Block) (mark : Mark) (literal : block.folded = false)
    (outside : block.inside = false) {char : Char} (inline : isBreak char = false)
    (noTab : char ≠ '\t') (indented : mark.column = block.column)
    (reached : char = ' ' → block.isBefore mark.column = false) (text : List Char) :
    readBlock block mark (char :: text) =
      (readBlock (block.enter char) (mark.right 1) text).map
        (·.behind (block.pending ++ [char])) := by
  have notIndent : ¬(char = ' ' ∧ block.isBefore mark.column) := by
    rintro ⟨blank, before⟩
    rw [reached blank] at before
    cases before
  have joined : block.joint char = block.pending := by
    simp [Block.joint, Block.pending, literal]
  rw [readBlock, if_neg (by simp [outside]), if_neg notIndent, if_neg (by simp [noTab]),
    if_neg (by simp [inline]), if_pos indented, joined, Mark.after_of_not_isBreak inline]

/-- A block ends where a line starts that is not indented. -/
theorem readBlock_next (block : Block) (mark : Mark) (outside : block.inside = false)
    (known : block.indent = some indentation) (lineStart : mark.column = 0)
    {next : List Char} (word : StartsWord next) :
    readBlock block mark next = .ok ⟨block.chomping.tail block.first block.more, mark, next⟩ := by
  cases next with
  | nil => rfl
  | cons char rest =>
      have notSpace := word char rfl
      have noTab : char ≠ '\t' := by
        rintro rfl
        cases notSpace
      have elsewhere : mark.column ≠ block.column := by
        simp [lineStart, Block.column, known, indentation]
      rw [readBlock, if_neg (by simp [outside]),
        if_neg (by simp [ne_blank_of_not_isSpace notSpace]), if_neg (by simp [noTab]),
        if_neg (by simp [isBreak_of_not_isSpace notSpace]), if_neg elsewhere]

namespace Block

/-- Reading over what is written for some characters leads from one place in a block to another
in front of the rest. The characters are those that were given out on the way and those that
are still pending. -/
structure Passes (block : Block) (mark : Mark) (chars rest : List Char) (block' : Block)
    (mark' : Mark) (given : List Char) : Prop where
  stands : Stands block' mark' rest
  inside : block'.inside = (chars.getLast?.map fun last => !isBreak last).getD block.inside
  chomping : block'.chomping = block.chomping
  text : given ++ block'.pending = block.pending ++ chars
  reads : ∀ next, readBlock block mark (blockLines (!block.inside) (chars ++ rest) ++ next) =
    (readBlock block' mark' (blockLines (!block'.inside) rest ++ next)).map (·.behind given)

/-- Nothing is passed without a character. -/
theorem Passes.refl {block : Block} {mark : Mark} {rest : List Char}
    (stands : Stands block mark rest) : Passes block mark [] rest block mark [] where
  stands := stands
  inside := rfl
  chomping := rfl
  text := (List.append_nil _).symm
  reads _ := (Spelled.map_behind_nil _).symm

/-- Characters are passed one after the other. -/
theorem Passes.trans {block block₁ block₂ : Block} {mark mark₁ mark₂ : Mark}
    {chars others rest given later : List Char}
    (first : Passes block mark chars (others ++ rest) block₁ mark₁ given)
    (second : Passes block₁ mark₁ others rest block₂ mark₂ later) :
    Passes block mark (chars ++ others) rest block₂ mark₂ (given ++ later) where
  stands := second.stands
  inside := by
    rw [second.inside, first.inside, List.getLast?_append]
    cases others.getLast? <;> rfl
  chomping := second.chomping.trans first.chomping
  text := by
    rw [List.append_assoc, second.text, ← List.append_assoc, first.text, List.append_assoc]
  reads next := by
    rw [List.append_assoc, first.reads, second.reads, Spelled.behind_behind]

/-- At the start of a line, the margin and a character of the text lead into the line. -/
theorem passes_enter {block : Block} {mark : Mark} {char : Char} (rest : List Char)
    (literal : block.folded = false) (outside : block.inside = false)
    (lineStart : mark.column = 0) (before : ∀ column < indentation, block.isBefore column)
    (shown : { block with reach := max block.reach indentation }.column = indentation)
    (reached : char = ' ' → block.isBefore indentation = false) (inline : isBreak char = false)
    (noTab : char ≠ '\t') :
    Passes block mark [char] rest
      ({ block with reach := max block.reach indentation }.enter char)
      ⟨mark.line, indentation + 1⟩ (block.pending ++ [char]) where
  stands := .inside literal rfl (congrArg some shown) rfl
  inside := by
    rw [List.getLast?_singleton, Option.map_some, inline]
    rfl
  chomping := rfl
  text := List.append_nil _
  reads next := by
    have lines : blockLines (!block.inside) (char :: rest) =
        margin ++ char :: blockLines false rest := by
      simp [blockLines, outside, inline]
    rw [List.singleton_append, lines, List.append_assoc, readBlock_margin outside before lineStart]
    exact readBlock_outside_word { block with reach := max block.reach indentation }
      ⟨mark.line, indentation⟩ literal outside inline noTab shown.symm reached _

/-- **One character of the text is passed** wherever reading stands. -/
theorem Stands.step {block : Block} {mark : Mark} {char : Char} {rest : List Char}
    (stands : Stands block mark (char :: rest)) (noTab : char ≠ '\t') :
    ∃ block' mark' given, Passes block mark [char] rest block' mark' given := by
  cases stands with
  | inside literal inside known clear =>
      obtain ⟨noFirst, noMore⟩ := List.append_eq_nil_iff.mp clear
      cases ends : isBreak char with
      | true =>
          refine ⟨{ block with first := [char], reach := 0, inside := false }, ⟨mark.line + 1, 0⟩,
            [], .outside literal rfl rfl known, by simp [ends], rfl, ?_, fun next => ?_⟩
          · simp [pending, noFirst, noMore]
          · rw [Spelled.map_behind_nil, ← readBlock_inside_break inside ends]
            simp [blockLines, ends]
      | false =>
          refine ⟨block, mark.after char, [char], .inside literal inside known clear,
            by simp [ends, inside], rfl, ?_, fun next => ?_⟩
          · rw [clear]
            rfl
          · rw [← readBlock_inside inside ends]
            simp [blockLines, ends, inside]
  | outside literal outside lineStart known =>
      cases ends : isBreak char with
      | true =>
          refine ⟨{ block with more := block.more ++ [char] }, ⟨mark.line + 1, 0⟩, [],
            .outside literal outside rfl known, by simp [ends, outside], rfl, ?_, fun next => ?_⟩
          · simp [pending]
          · rw [Spelled.map_behind_nil, ← readBlock_outside_break outside ends]
            simp [blockLines, ends, outside]
      | false =>
          have before : ∀ column < indentation, block.isBefore column := by
            intro column less
            simp [isBefore, known, less]
          exact ⟨_, _, _, passes_enter rest literal outside lineStart before
            (by simp [column, known]) (fun _ => by simp [isBefore, known]) ends noTab⟩
  | opening literal outside lineStart unknown shallow flush clear word =>
      obtain ⟨other, head, notSpace⟩ := word
      obtain rfl : char = other := Option.some.inj head
      have before : ∀ column < indentation, block.isBefore column := by
        intro column less
        simp [isBefore, unknown]
      exact ⟨_, _, _, passes_enter rest literal outside lineStart before
        (by simp [column, unknown, shallow, flush, indentation])
        (fun blank => absurd blank (ne_blank_of_not_isSpace notSpace))
        (isBreak_of_not_isSpace notSpace) noTab⟩

/-- **All characters of the text are passed**, one after the other. -/
theorem Stands.run {block : Block} {mark : Mark} {chars rest : List Char}
    (stands : Stands block mark (chars ++ rest)) (noTab : ∀ char ∈ chars, char ≠ '\t') :
    ∃ block' mark' given, Passes block mark chars rest block' mark' given := by
  induction chars generalizing block mark with
  | nil => exact ⟨block, mark, [], .refl stands⟩
  | cons char others ih =>
      obtain ⟨here, later⟩ := List.forall_mem_cons.mp noTab
      obtain ⟨_, _, _, first⟩ := stands.step here
      obtain ⟨_, _, _, second⟩ := ih first.stands later
      exact ⟨_, _, _, first.trans second⟩

end Block

/-! ## The end of a block -/

namespace Chomping

/-- The sign of a chomping in the first line of a block. -/
def sign : Chomping → List Char
  | .strip => ['-']
  | .clip => []
  | .keep => ['+']

/-- The line break that ends the last line if it is no part of the text. -/
def ending : Chomping → List Char
  | .strip => ['\n']
  | .clip => []
  | .keep => []

/-- Whether a chomping keeps what a text ends with: no line break, one behind a word, or
any. -/
inductive Fits : Chomping → List Char → Prop
  | strip {body : List Char} {last : Char} (inline : isBreak last = false) :
      Fits .strip (body ++ [last])
  | clip {body : List Char} {previous last : Char} (inline : isBreak previous = false)
      (ends : isBreak last) : Fits .clip (body ++ [previous] ++ [last])
  | keep {body : List Char} {last : Char} (ends : isBreak last) : Fits .keep (body ++ [last])

end Chomping

/-- The sign of a block tells how its text ends. -/
theorem exists_blockChomping_eq {chars : List Char} (nonempty : chars ≠ []) :
    ∃ chomping : Chomping, blockChomping chars = chomping.sign ∧ chomping.Fits chars := by
  obtain rfl | ⟨body, last, rfl⟩ := List.eq_nil_or_concat chars
  · exact absurd rfl nonempty
  rw [List.concat_eq_append]
  obtain rfl | ⟨front, previous, rfl⟩ := List.eq_nil_or_concat body
  · cases ends : isBreak last with
    | false => exact ⟨.strip, by simp [blockChomping, Chomping.sign, ends], .strip ends⟩
    | true => exact ⟨.keep, by simp [blockChomping, Chomping.sign, ends], .keep ends⟩
  · rw [List.concat_eq_append]
    cases ends : isBreak last with
    | false => exact ⟨.strip, by simp [blockChomping, Chomping.sign, ends], .strip ends⟩
    | true =>
        cases again : isBreak previous with
        | true => exact ⟨.keep, by simp [blockChomping, Chomping.sign, ends, again], .keep ends⟩
        | false =>
            exact ⟨.clip, by simp [blockChomping, Chomping.sign, ends, again], .clip again ends⟩

namespace Block.Stands

variable {block : Block} {mark : Mark} {chars : List Char}

/-- Inside of a line nothing is pending. -/
theorem pending_of_inside (stands : block.Stands mark chars) (inside : block.inside) :
    block.pending = [] := by
  cases stands with
  | inside literal inside known clear => exact clear
  | outside _ outside => simp [outside] at inside
  | opening _ outside => simp [outside] at inside

private theorem known_of_inside (stands : block.Stands mark chars) (inside : block.inside) :
    block.indent = some indentation := by
  cases stands with
  | inside literal inside known clear => exact known
  | outside _ outside => simp [outside] at inside
  | opening _ outside => simp [outside] at inside

/-- A line break that ends a line, and then the end of the block. -/
theorem readBlock_lineEnd (stands : block.Stands mark chars) (inside : block.inside) {char : Char}
    (ends : isBreak char) {next : List Char} (word : StartsWord next) :
    readBlock block mark (char :: next) =
      .ok ⟨block.chomping.tail [char] [], ⟨mark.line + 1, 0⟩, next⟩ := by
  obtain ⟨-, noMore⟩ := List.append_eq_nil_iff.mp (stands.pending_of_inside inside)
  have closes := readBlock_next { block with first := [char], reach := 0, inside := false }
    ⟨mark.line + 1, 0⟩ rfl (stands.known_of_inside inside) rfl word
  rw [readBlock_inside_break inside ends, closes, noMore]

/-- The end of the block at the start of a line. -/
theorem readBlock_lineStart (stands : block.Stands mark []) (outside : block.inside = false)
    {next : List Char} (word : StartsWord next) :
    ∃ line, readBlock block mark next =
      .ok ⟨block.chomping.tail block.first block.more, ⟨line, 0⟩, next⟩ := by
  cases stands with
  | inside _ inside => simp [outside] at inside
  | opening _ _ _ _ _ _ _ word =>
      obtain ⟨_, member, -⟩ := word
      cases member
  | outside _ _ lineStart known =>
      refine ⟨mark.line, ?_⟩
      rw [readBlock_next block mark outside known lineStart word, ← lineStart]

end Block.Stands

/-- **The lines of a text are read back** by a block whose chomping fits the text. -/
theorem readBlock_blockLines {block : Block} {mark : Mark} {chars : List Char}
    (stands : block.Stands mark chars) (outside : block.inside = false)
    (clear : block.pending = []) (fits : block.chomping.Fits chars)
    (noTab : ∀ char ∈ chars, char ≠ '\t') {next : List Char} (word : StartsWord next) :
    ∃ line, readBlock block mark (blockLines true chars ++ (block.chomping.ending ++ next)) =
      .ok ⟨chars, ⟨line, 0⟩, next⟩ := by
  generalize sign : block.chomping = chomping at fits
  cases fits with
  | @strip body last inline =>
      rw [← List.append_nil (body ++ [last])] at stands
      obtain ⟨block', mark', given, passes⟩ := stands.run noTab
      have inside : block'.inside := by simpa [inline] using passes.inside
      have text := passes.text
      rw [passes.stands.pending_of_inside inside, clear, List.append_nil] at text
      have closes := passes.stands.readBlock_lineEnd inside (by decide : isBreak '\n') word
      have reads := passes.reads ('\n' :: next)
      rw [outside, List.append_nil, blockLines, List.nil_append, closes, passes.chomping, sign,
        text] at reads
      exact ⟨_, by simpa [Except.map, Spelled.behind, Chomping.tail, Chomping.ending] using reads⟩
  | @keep body last ends =>
      rw [← List.append_nil (body ++ [last])] at stands
      obtain ⟨block', mark', given, passes⟩ := stands.run noTab
      have outside' : block'.inside = false := by simpa [ends] using passes.inside
      obtain ⟨line, closes⟩ := passes.stands.readBlock_lineStart outside' word
      have reads := passes.reads next
      have text := passes.text
      rw [clear, List.nil_append, Block.pending] at text
      rw [outside, List.append_nil, blockLines, List.nil_append, closes, passes.chomping,
        sign] at reads
      exact ⟨line, by simpa [Except.map, Spelled.behind, Chomping.tail, Chomping.ending, text]
        using reads⟩
  | @clip body previous last inline ends =>
      obtain ⟨block', mark', given, passes⟩ := stands.run fun char member =>
        noTab char (List.mem_append_left _ member)
      have inside : block'.inside := by simpa [inline] using passes.inside
      have text := passes.text
      rw [passes.stands.pending_of_inside inside, clear, List.append_nil] at text
      have closes := passes.stands.readBlock_lineEnd inside ends word
      have reads := passes.reads next
      have last : blockLines (!block'.inside) [last] = [last] := by simp [blockLines, ends]
      rw [outside, last, List.singleton_append, closes, passes.chomping, sign, text] at reads
      exact ⟨_, by simpa [Except.map, Spelled.behind, Chomping.tail, Chomping.ending] using reads⟩

/-! ## Whole blocks -/

/-- The signs in the first line of a block. -/
theorem read_signs (line : Nat) (shown : Bool) (chomping : Chomping) (lines : List Char) :
    BlockHeader.read line
        ((if shown then [] else Decimal.digits indentation) ++ chomping.sign ++ '\n' :: lines) =
      .ok ({ chomping, indentation := if shown then none else some indentation },
        '\n' :: lines) := by
  have digits : Decimal.digits indentation = ['2'] := by decide
  rw [digits]
  cases shown <;> cases chomping <;>
    simp [BlockHeader.read, BlockHeader.readChomping, BlockHeader.readIndentation,
      Chomping.sign, Chomping.ofChar?, Except.map, indentation]

/-- The sign of a block gives its text the ending that it has. -/
theorem Chomping.Fits.ending_eq {chomping : Chomping} {chars : List Char}
    (fits : chomping.Fits chars) (feed : chars.contains '\n') (allowed : allowsBlock chars) :
    (if leavesLineOpen chars then ['\n'] else []) = chomping.ending := by
  have whole : leavesLineOpen chars = !chars.getLast?.any isBreak := by
    rw [leavesLineOpen, feed, allowed, Bool.true_and, Bool.true_and]
  rw [whole]
  cases fits with
  | strip inline => simp [inline, Chomping.ending]
  | clip inline ends => simp [ends, Chomping.ending]
  | keep ends => simp [ends, Chomping.ending]

/-- A text that a block can hold is plain. -/
theorem plainText_of_allowsBlock {chars : List Char} (allowed : allowsBlock chars) :
    PlainText chars := by
  simp only [allowsBlock, Bool.and_eq_true, List.all_eq_true] at allowed
  exact allowed.1.1

/-- **A text that was written as a block is read back.** -/
theorem readBlockScalar_block {chars : List Char} (feed : chars.contains '\n')
    (allowed : allowsBlock chars) (mark : Mark) {next : List Char} (word : StartsWord next) :
    ∃ line, readBlockScalar false 0 mark
        ((block chars).tail ++ ((if leavesLineOpen chars then ['\n'] else []) ++ next)) =
      .ok ⟨chars, ⟨line, 0⟩, next⟩ := by
  have plain := plainText_of_allowsBlock allowed
  have noTab : ∀ char ∈ chars, char ≠ '\t' :=
    fun char member => ne_of_isPlain (plain char member) (by decide)
  obtain ⟨first, rest, rfl⟩ : ∃ first rest, chars = first :: rest := by
    cases chars with
    | nil => cases feed
    | cons first rest => exact ⟨first, rest, rfl⟩
  obtain ⟨chomping, signed, fits⟩ := exists_blockChomping_eq (List.cons_ne_nil first rest)
  rw [fits.ending_eq feed allowed]
  have said : blockIndentation (first :: rest) =
      if !isSpace first then [] else Decimal.digits indentation := by
    have same : (first = ' ' || isBreak first) = isSpace first := by
      simp [isSpace, isBlank, noTab first List.mem_cons_self]
    rw [blockIndentation, List.head?_cons, Option.any_some, same]
    cases isSpace first <;> rfl
  let start : Block :=
    { folded := false, chomping, outer := 0, indent := if !isSpace first then none else some 2 }
  have stands : start.Stands ⟨mark.line + 1, 0⟩ (first :: rest) := by
    cases space : isSpace first with
    | true => exact .outside rfl rfl rfl (by simp [start, space, indentation])
    | false =>
        exact .opening rfl rfl rfl (by simp [start, space]) rfl rfl rfl ⟨first, rfl, space⟩
  obtain ⟨line, reads⟩ := readBlock_blockLines stands rfl rfl fits noTab word
  refine ⟨line, ?_⟩
  have opened (lines : List Char) : readBlockScalar false 0 mark
      ((if !isSpace first then [] else Decimal.digits indentation) ++ chomping.sign ++
        '\n' :: lines) = readBlock start ⟨mark.line + 1, 0⟩ lines := by
    rw [readBlockScalar, read_signs]
    cases space : isSpace first <;> simp [start, space] <;> rfl
  rw [block, said, signed, ← reads, ← opened]
  simp only [List.cons_append, List.tail_cons, List.append_assoc]
  rfl

/-- A plain text is plain as a block. -/
theorem plainText_block {chars : List Char} (nonempty : chars ≠ []) (plain : PlainText chars) :
    PlainText (block chars) := by
  have said : PlainText (blockIndentation chars) := by
    unfold blockIndentation
    split
    · exact List.all_eq_true.mp (by decide)
    · exact .nil
  have signed : PlainText (blockChomping chars) := by
    obtain ⟨chomping, sign, -⟩ := exists_blockChomping_eq nonempty
    rw [sign]
    cases chomping <;> exact List.all_eq_true.mp (by decide)
  exact .append (.append (.cons (by decide) said) signed)
    (.cons (by decide) (plain.blockLines true))

end Yaml

end Scriptlet
