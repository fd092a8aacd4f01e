import Scriptlet.Proofs.Yaml.Folding

/-! # Reading texts in double quotes

Between double quotes every character can be written, by a letter or by its code if it
cannot stand for itself. An escaped character is read back as one (`readDouble_escape`), and
so is a text that was also folded into lines (`readDouble_double`). A blank behind a fold is
escaped, since it would be lost otherwise.
-/

namespace Scriptlet

namespace Yaml

open Style

/-! ## Steps of the reader -/

/-- A blank or a line end between double quotes is kept until the next word. -/
theorem readDouble_space {char : Char} (space : isSpace char) (gap : List Char) (mark : Mark)
    (text : List Char) :
    readDouble (.gap false gap) mark (char :: text) =
      readDouble (.gap false (gap ++ [char])) (mark.after char) text :=
  if_pos space

/-- Inside a line only the closing quote and the backslash are signs. -/
theorem readDouble_sign {char : Char} (sign : isSpace char = false) (gap : List Char) {mark : Mark}
    (inside : 0 < mark.column) (text : List Char) :
    readDouble (.gap false gap) mark (char :: text) =
      if char = '"' then
        .ok ⟨joinWords gap, mark.right 1, text⟩
      else if char = '\\' then
        (readDouble .escape (mark.right 1) text).map (·.behind (joinWords gap))
      else
        (readDouble .text (mark.right 1) text).map (·.behind (joinWords gap ++ [char])) :=
  (if_neg (by simp [sign])).trans (if_neg (by simp [isDocumentMark_of_inside inside]))

/-- A character behind a backslash is an escape with a code or a letter, or an error. -/
theorem readDouble_escape_cons {char : Char} (inline : isBreak char = false) (mark : Mark)
    (text : List Char) :
    readDouble .escape mark (char :: text) =
      match codeWidth? char, unescape? char with
      | some width, _ => readDouble (.code width 0) (mark.right 1) text
      | none, some meant => (readDouble .text (mark.right 1) text).map (·.behind [meant])
      | none, none => .error (.word mark.line .badEscape) :=
  if_neg (by simp [inline])

/-! ## Codes of characters -/

/-- The number that hexadecimal digits denote behind those of another number. -/
def denote? (value : Nat) (digits : List Char) : Option Nat :=
  digits.foldlM (fun number digit => (Scalar.digitValue? digit).map (16 * number + ·)) value

/-- Digits are read from the front, and those behind go on with the number. -/
theorem denote?_append (value : Nat) (digits others : List Char) :
    denote? value (digits ++ others) = (denote? value digits).bind (denote? · others) := by
  exact List.foldlM_append

private theorem denote?_zeros (count : Nat) : denote? 0 (List.replicate count '0') = some 0 := by
  induction count with
  | zero => rfl
  | succ count ih => exact ih

/-- The digits of a number to base 16 are read as what they stand for. -/
theorem digitValue?_toUpper_digitChar :
    ∀ digit < 16, Scalar.digitValue? digit.digitChar.toUpper = some digit := by
  decide

private theorem denote?_toDigits (number : Nat) :
    denote? 0 ((Nat.toDigits 16 number).map Char.toUpper) = some number := by
  induction number using Nat.strongRecOn with
  | ind number ih =>
      by_cases small : number < 16
      · rw [Nat.toDigits_of_lt_base small]
        simp [denote?, digitValue?_toUpper_digitChar number small]
      · have split : 16 * (number / 16) + number % 16 = number := Nat.div_add_mod number 16
        have rest : number % 16 < 16 := Nat.mod_lt number (by decide)
        have front := ih (number / 16) (by omega)
        have joined := Nat.toDigits_append_toDigits (b := 16) (by decide)
          (show 0 < number / 16 by omega) rest
        rw [split] at joined
        rw [← joined, List.map_append, denote?_append, front, Nat.toDigits_of_lt_base rest]
        simp [denote?, digitValue?_toUpper_digitChar _ rest, split]

/-- A number that fits has the width that it is written with. -/
theorem length_hex {width number : Nat} (fits : number < Nat.pow 16 width) (positive : 0 < width) :
    (hex width number).length = width := by
  have short := (Nat.length_toDigits_le_iff (by decide) positive).mpr fits
  simp only [hex, Quoted.hex, List.length_map, List.length_append, List.length_replicate]
  omega

/-- A number written with some width is read as that number. -/
theorem denote?_hex (width number : Nat) : denote? 0 (hex width number) = some number := by
  rw [hex, Quoted.hex, List.map_append, List.map_replicate, denote?_append]
  exact (congrArg (Option.bind · _) (denote?_zeros _)).trans (denote?_toDigits number)

/-- The characters between a blank and a tilde are plain. -/
theorem isPlain_of_between {low high char : Char} (least : low ≤ char) (most : char ≤ high)
    (above : 0x20 ≤ low.toNat) (below : high.toNat ≤ 0x7e) : isPlain char := by
  have atLeast : 0x20 ≤ char.toNat := Nat.le_trans above (UInt32.le_iff_toNat_le.mp least)
  have atMost : char.toNat ≤ 0x7e := Nat.le_trans (UInt32.le_iff_toNat_le.mp most) below
  simp [isPlain, atLeast, atMost]

private theorem isPlain_of_digitValue? {digit : Char} {value : Nat}
    (reads : Scalar.digitValue? digit = some value) : isPlain digit := by
  unfold Scalar.digitValue? at reads
  by_cases decimal : digit.isDigit
  · simp only [Char.isDigit, Bool.and_eq_true, decide_eq_true_eq] at decimal
    have least : '0' ≤ digit := decimal.1
    have most : digit ≤ '9' := decimal.2
    exact isPlain_of_between least most (by decide) (by decide)
  by_cases lower : 'a' ≤ digit ∧ digit ≤ 'f'
  · exact isPlain_of_between lower.1 lower.2 (by decide) (by decide)
  by_cases upper : 'A' ≤ digit ∧ digit ≤ 'F'
  · exact isPlain_of_between upper.1 upper.2 (by decide) (by decide)
  · rw [if_neg decimal, if_neg lower, if_neg upper] at reads
    cases reads

private theorem plainText_of_denote? {value code : Nat} {digits : List Char}
    (denotes : denote? value digits = some code) : PlainText digits := by
  induction digits generalizing value with
  | nil => exact .nil
  | cons digit others ih =>
      obtain ⟨number, found, denotes⟩ := Option.bind_eq_some_iff.mp denotes
      obtain ⟨meant, reads, rfl⟩ := Option.map_eq_some_iff.mp found
      exact .cons (isPlain_of_digitValue? reads) (ih denotes)

private theorem readDouble_code {digits : List Char} {value code : Nat}
    (denotes : denote? value digits = some code) (nonempty : digits ≠ []) (valid : code.isValidChar)
    (mark : Mark) (text : List Char) :
    readDouble (.code digits.length value) mark (digits ++ text) =
      (readDouble .text (mark.right digits.length) text).map (·.behind [Char.ofNat code]) := by
  induction digits generalizing value mark with
  | nil => exact absurd rfl nonempty
  | cons digit others ih =>
      obtain ⟨number, found, denotes⟩ := Option.bind_eq_some_iff.mp denotes
      obtain ⟨meant, reads, rfl⟩ := Option.map_eq_some_iff.mp found
      rw [List.cons_append, readDouble, reads]
      cases others with
      | nil =>
          obtain rfl : 16 * value + meant = code := Option.some.inj denotes
          simp [valid]
      | cons next others =>
          have rest := ih denotes (by simp) (mark.right 1)
          simp only [List.length_cons, Nat.lt_add_left_iff_pos, Nat.zero_lt_succ, if_true,
            Nat.add_sub_cancel]
          rw [List.length_cons] at rest
          rw [rest]
          simp [Mark.right, Nat.add_assoc, Nat.add_comm 1]

/-! ## Escaped characters -/

/-- Letters that stand for characters are read as these characters. -/
theorem escapeLetters_read :
    escapeLetters.all fun pair =>
      !isBreak pair.2 && codeWidth? pair.2 = none && unescape? pair.2 = some pair.1 := by
  decide

/-- A letter that is found is in the table. -/
theorem mem_of_lookup {char letter : Char} (found : escapeLetters.lookup char = some letter) :
    (char, letter) ∈ escapeLetters := by
  obtain ⟨before, behind, split, -⟩ := List.lookup_eq_some_iff.mp found
  rw [split]
  simp

/-- A backslash and the sign behind it are read over the gap in front of them. -/
theorem readDouble_backslash (gap : List Char) {mark : Mark} (inside : 0 < mark.column)
    (text : List Char) :
    readDouble (.gap false gap) mark ('\\' :: text) =
      (readDouble .escape (mark.right 1) text).map (·.behind (joinWords gap)) := by
  rw [readDouble_sign (by decide) gap inside, if_neg (by decide), if_pos rfl]

private theorem readDouble_letter {char letter : Char}
    (found : escapeLetters.lookup char = some letter) (mark : Mark) (text : List Char) :
    readDouble .escape mark (letter :: text) =
      (readDouble .text (mark.right 1) text).map (·.behind [char]) := by
  have read := List.all_eq_true.mp escapeLetters_read _ (mem_of_lookup found)
  simp only [Bool.and_eq_true, Bool.not_eq_true', decide_eq_true_eq] at read
  obtain ⟨⟨inline, noCode⟩, meant⟩ := read
  rw [readDouble_escape_cons inline, noCode, meant]

private theorem readDouble_hex {sign : Char} {width : Nat} (announced : codeWidth? sign = some width)
    (inline : isBreak sign = false) {char : Char} (fits : char.toNat < Nat.pow 16 width)
    (positive : 0 < width) (mark : Mark) (text : List Char) :
    readDouble .escape mark (sign :: hex width char.toNat ++ text) =
      (readDouble .text (mark.right (width + 1)) text).map (·.behind [char]) := by
  have length := length_hex fits positive
  have nonempty : hex width char.toNat ≠ [] := by
    intro empty
    rw [empty] at length
    exact absurd length (Nat.ne_of_lt positive)
  have reads := readDouble_code (denote?_hex width char.toNat) nonempty char.valid
    (mark.right 1) text
  rw [length, Char.ofNat_toNat] at reads
  rw [List.cons_append, readDouble_escape_cons inline, announced]
  refine reads.trans ?_
  simp only [Mark.right, Nat.add_assoc, Nat.add_comm 1]

private theorem exists_escape_eq (char : Char) :
    ∃ body, escape char = '\\' :: body ∧
      ∀ (mark : Mark) (text : List Char), readDouble .escape mark (body ++ text) =
        (readDouble .text (mark.right body.length) text).map (·.behind [char]) := by
  have coded (sign : Char) (width : Nat) (announced : codeWidth? sign = some width)
      (inline : isBreak sign = false) (fits : char.toNat < Nat.pow 16 width) (positive : 0 < width)
      (written : escape char = '\\' :: sign :: hex width char.toNat) :
      ∃ body, escape char = '\\' :: body ∧
        ∀ (mark : Mark) (text : List Char), readDouble .escape mark (body ++ text) =
          (readDouble .text (mark.right body.length) text).map (·.behind [char]) := by
    refine ⟨_, written, fun mark text => ?_⟩
    rw [readDouble_hex announced inline fits positive, List.length_cons,
      length_hex fits positive]
  have bounded : char.toNat < Nat.pow 16 8 := char.val.toNat_lt
  cases found : escapeLetters.lookup char with
  | some letter =>
      exact ⟨[letter], by rw [escape, found], fun mark text => readDouble_letter found mark text⟩
  | none =>
      by_cases small : char.toNat ≤ 0xff
      · exact coded 'x' 2 rfl rfl (Nat.lt_succ_of_le small) (by decide)
          (by rw [escape, found]; simp [small])
      · by_cases medium : char.toNat ≤ 0xffff
        · exact coded 'u' 4 rfl rfl (Nat.lt_succ_of_le medium) (by decide)
            (by rw [escape, found]; simp [small, medium])
        · exact coded 'U' 8 rfl rfl bounded (by decide)
            (by rw [escape, found]; simp [small, medium])

/-- **An escaped character is read back**, behind a gap. -/
theorem readDouble_escape (char : Char) (gap : List Char) {mark : Mark} (inside : 0 < mark.column)
    (text : List Char) :
    readDouble (.gap false gap) mark (escape char ++ text) =
      (readDouble .text (mark.right (escape char).length) text).map
        (·.behind (joinWords gap ++ [char])) := by
  obtain ⟨body, written, reads⟩ := exists_escape_eq char
  rw [written, List.cons_append, readDouble_backslash gap inside, reads, Spelled.behind_behind,
    List.length_cons]
  simp only [Mark.right, Nat.add_assoc, Nat.add_comm 1]

/-! ## Whole texts -/

/-- A double quote ends the text. -/
theorem readDouble_closing (gap : List Char) {mark : Mark} (inside : 0 < mark.column)
    (next : List Char) :
    readDouble (.gap false gap) mark ('"' :: next) = .ok ⟨joinWords gap, mark.right 1, next⟩ := by
  rw [readDouble_sign (by decide) gap inside, if_pos rfl]

/-- A blank between double quotes is kept until the next word. -/
theorem readDouble_blank (gap : List Char) (mark : Mark) (text : List Char) :
    readDouble (.gap false gap) mark (' ' :: text) =
      readDouble (.gap false (gap ++ [' '])) (mark.right 1) text := by
  rw [readDouble_space (by decide), Mark.after_of_not_isBreak (by decide)]

/-- A line end with a margin between double quotes is kept until the next word. -/
theorem readDouble_fold (mark : Mark) (text : List Char) :
    readDouble .text mark ('\n' :: margin ++ text) =
      readDouble (.gap false ('\n' :: margin)) ⟨mark.line + 1, 2⟩ text := by
  rw [List.cons_append, Quoting.text, readDouble_space (by decide)]
  exact (readDouble_blank ['\n'] ⟨mark.line + 1, 0⟩ _).trans
    (readDouble_blank ['\n', ' '] ⟨mark.line + 1, 1⟩ text)

private theorem readDouble_word {char : Char} (word : isSpace char = false)
    (unescaped : isEscaped char = false) (gap : List Char) {mark : Mark}
    (inside : 0 < mark.column) (text : List Char) :
    readDouble (.gap false gap) mark (char :: text) =
      (readDouble .text (mark.right 1) text).map (·.behind (joinWords gap ++ [char])) := by
  simp only [isEscaped, Bool.or_eq_false_iff, decide_eq_false_iff_not] at unescaped
  obtain ⟨⟨-, noQuote⟩, noBackslash⟩ := unescaped
  rw [readDouble_sign word gap inside, if_neg noQuote, if_neg noBackslash]

/-- A text whose characters are all escaped is read back. -/
theorem readDouble_flatMap_escape (chars : List Char) (mark : Mark) (inside : 0 < mark.column)
    (next : List Char) :
    ∃ behind, readDouble .text mark (chars.flatMap escape ++ '"' :: next) =
      .ok ⟨chars, behind, next⟩ := by
  induction chars generalizing mark with
  | nil => exact ⟨_, readDouble_closing [] inside next⟩
  | cons char rest ih =>
      obtain ⟨behind, reads⟩ := ih (mark.right (escape char).length) (Nat.lt_add_right _ inside)
      refine ⟨behind, ?_⟩
      rw [List.flatMap_cons, List.append_assoc, Quoting.text, readDouble_escape char [] inside]
      exact congrArg (Except.map _) reads

private theorem readDouble_escaped_blank (mark : Mark) (text : List Char) :
    readDouble .escape mark (' ' :: text) =
      (readDouble .text (mark.right 1) text).map (·.behind [' ']) := rfl

private theorem not_isSpace_of_not_isEscaped {char : Char} (unescaped : isEscaped char = false)
    (notBlank : char ≠ ' ') : isSpace char = false := by
  simp only [isEscaped, Bool.or_eq_false_iff, Bool.not_eq_false'] at unescaped
  obtain ⟨⟨⟨plain, inline⟩, -⟩, -⟩ := unescaped
  have noTab : char ≠ '\t' := ne_of_isPlain plain (by decide)
  simp [isSpace, isBlank, inline, notBlank, noTab]

/-- A place in a text that is written in double quotes: for the writer the column and whether a
blank stands in front, for the reader what it stands behind and the mark. -/
structure DoublePlace where
  column : Nat
  blankBefore : Bool
  state : Quoting
  mark : Mark

namespace DoublePlace

/-- What a gap stands for. A backslash stands for nothing. -/
def pending (place : DoublePlace) : List Char :=
  match place.state with
  | .gap _ gap => joinWords gap
  | _ => []

/-- What is read for characters that are written from a place on to the closing quote. -/
def Reads (next : List Char) (place : DoublePlace) (chars content : List Char) : Prop :=
  ∃ behind, readDouble place.state place.mark
      (Style.double place.column place.blankBefore chars ++ '"' :: next) =
    .ok ⟨content, behind, next⟩

/-- Whether writing and reading can stand at a place in front of some characters: behind a gap,
or behind a backslash that keeps a blank from being lost. -/
inductive Stands : DoublePlace → List Char → Prop
  | gap {column : Nat} {blankBefore : Bool} {gap : List Char} {mark : Mark} {chars : List Char}
      (shape : Style.Gap chars gap)
      (noGap : blankBefore = false → chars.head? = some ' ' → gap = [])
      (inside : 0 < mark.column) : Stands ⟨column, blankBefore, .gap false gap, mark⟩ chars
  | escape {column : Nat} {mark : Mark} (rest : List Char) :
      Stands ⟨column, true, .escape, mark⟩ (' ' :: rest)

/-- Right behind something that was read, any text can follow. -/
theorem stands_text (column : Nat) (blankBefore : Bool) {mark : Mark} (inside : 0 < mark.column)
    (chars : List Char) : Stands ⟨column, blankBefore, .text, mark⟩ chars :=
  .gap (.nil chars) (fun _ _ => rfl) inside

variable {column : Nat} {blankBefore : Bool} {gap : List Char} {mark : Mark} {char : Char}
  {rest next : List Char}

private theorem passes_escape (inside : 0 < mark.column) (escaped : isEscaped char) :
    Passes Stands pending (Reads next) ⟨column, blankBefore, .gap false gap, mark⟩ char rest := by
  refine ⟨⟨column + (escape char).length, false, .text, mark.right (escape char).length⟩,
    joinWords gap ++ [char], stands_text _ _ (Nat.lt_add_right _ inside) rest,
    List.append_nil _, ?_⟩
  rintro content ⟨behind, reads⟩
  refine ⟨behind, ?_⟩
  rw [Style.double, if_pos escaped, List.append_assoc, readDouble_escape char gap inside, reads]
  rfl

/-- A line break takes the place of a blank. If another blank follows, a backslash keeps it. -/
theorem passes_fold (breaks : breaksAt column blankBefore && !rest.isEmpty) :
    Passes Stands pending (Reads next) ⟨column, blankBefore, .text, mark⟩ ' ' rest := by
  by_cases another : rest.head? = some ' '
  · obtain ⟨others, rfl⟩ := List.head?_eq_some_iff.mp another
    refine ⟨⟨indentation + 1, true, .escape, ⟨mark.line + 1, 3⟩⟩, [' '], .escape others, rfl, ?_⟩
    rintro content ⟨behind, reads⟩
    refine ⟨behind, ?_⟩
    rw [Style.double, if_neg (by decide), if_pos rfl, if_pos breaks, if_pos another,
      List.append_assoc]
    exact (readDouble_fold mark _).trans
      ((readDouble_backslash ('\n' :: margin) Nat.zero_lt_two _).trans
        (congrArg (Except.map _) reads))
  · refine ⟨⟨indentation, true, .gap false ('\n' :: margin), ⟨mark.line + 1, 2⟩⟩, [],
      .gap (.fold another) (fun _ head => absurd head another) Nat.zero_lt_two, rfl, ?_⟩
    rintro content ⟨behind, reads⟩
    refine ⟨behind, ?_⟩
    rw [Style.double, if_neg (by decide), if_pos rfl, if_pos breaks, if_neg another,
      List.append_assoc]
    exact (readDouble_fold mark _).trans reads

/-- A blank that is not folded is passed. -/
theorem passes_blank (shape : Style.Gap (' ' :: rest) gap)
    (unbroken : ¬(breaksAt column blankBefore && !rest.isEmpty)) :
    Passes Stands pending (Reads next) ⟨column, blankBefore, .gap false gap, mark⟩ ' ' rest := by
  obtain ⟨shape, joined⟩ := shape.snoc
  refine ⟨⟨column + 1, true, .gap false (gap ++ [' ']), mark.right 1⟩, [],
    .gap shape (fun impossible => ?_) (Nat.succ_pos _), joined, ?_⟩
  · cases impossible
  · rintro content ⟨behind, reads⟩
    refine ⟨behind, ?_⟩
    rw [Style.double, if_neg (by decide), if_pos rfl, if_neg unbroken, List.cons_append,
      readDouble_blank, reads]
    rfl

/-- A character of a word is passed. -/
theorem passes_word (inside : 0 < mark.column) (unescaped : isEscaped char = false)
    (notBlank : char ≠ ' ') :
    Passes Stands pending (Reads next) ⟨column, blankBefore, .gap false gap, mark⟩ char rest := by
  refine ⟨⟨column + 1, false, .text, mark.right 1⟩, joinWords gap ++ [char],
    stands_text _ _ (Nat.succ_pos _) rest, List.append_nil _, ?_⟩
  rintro content ⟨behind, reads⟩
  refine ⟨behind, ?_⟩
  rw [Style.double, if_neg (by simp [unescaped]), if_neg notBlank, List.cons_append,
    readDouble_word (not_isSpace_of_not_isEscaped unescaped notBlank) unescaped gap inside, reads]
  rfl

private theorem passes_escaped_blank :
    Passes Stands pending (Reads next) ⟨column, true, .escape, mark⟩ ' ' rest := by
  refine ⟨⟨column + 1, true, .text, mark.right 1⟩, [' '],
    stands_text _ _ (Nat.succ_pos _) rest, rfl, ?_⟩
  rintro content ⟨behind, reads⟩
  refine ⟨behind, ?_⟩
  have written : Style.double column true (' ' :: rest) =
      ' ' :: Style.double (column + 1) true rest := rfl
  rw [written, List.cons_append, readDouble_escaped_blank, reads]
  rfl

/-- **One character of a text in double quotes is passed**, wherever it stands. -/
theorem Stands.passes {place : DoublePlace} (stands : place.Stands (char :: rest)) :
    Passes Stands pending (Reads next) place char rest := by
  cases stands with
  | escape => exact passes_escaped_blank
  | @gap column blankBefore gap mark _ shape noGap inside =>
      cases escaped : isEscaped char with
      | true => exact passes_escape inside escaped
      | false =>
          by_cases blank : char = ' '
          · subst blank
            by_cases breaks : breaksAt column blankBefore && !rest.isEmpty
            · obtain ⟨long, _⟩ := Bool.and_eq_true_iff.mp breaks
              obtain rfl := noGap (not_blankBefore_of_breaksAt long) rfl
              exact passes_fold breaks
            · exact passes_blank shape breaks
          · exact passes_word inside escaped blank

end DoublePlace

/-- **A text that was written in double quotes is read back.** -/
theorem readDouble_double (chars : List Char) (column : Nat) {mark : Mark}
    (inside : 0 < mark.column) (next : List Char) :
    ∃ behind, readDouble .text mark (Style.double column false chars ++ '"' :: next) =
      .ok ⟨chars, behind, next⟩ := by
  refine reads_of_passes DoublePlace.Stands DoublePlace.pending (DoublePlace.Reads next)
    (fun _ _ _ stands => stands.passes) (fun place stands => ?_)
    (DoublePlace.stands_text column false inside chars)
  cases stands with
  | gap _ _ inside => exact ⟨_, readDouble_closing _ inside next⟩

/-- **Double quotes.** A text that is written between double quotes is read back. -/
theorem readDouble_doubleQuoted (chars : List Char) (column : Nat) (mark : Mark)
    (inside : 0 < mark.column) (next : List Char) :
    ∃ behind, readDouble .text mark ((doubleQuoted column chars).tail ++ next) =
      .ok ⟨chars, behind, next⟩ := by
  simp only [doubleQuoted, List.cons_append, List.tail_cons, List.append_assoc, List.nil_append]
  split
  · exact readDouble_flatMap_escape chars mark inside next
  · exact readDouble_double chars (column + 1) inside next

/-! ## Written characters -/

/-- An escape is plain. -/
theorem plainText_escape (char : Char) : PlainText (escape char) := by
  have coded (sign : Char) (width : Nat) (plain : isPlain sign) :
      PlainText ('\\' :: sign :: hex width char.toNat) :=
    .cons (by decide) (.cons plain (plainText_of_denote? (denote?_hex width char.toNat)))
  have letters : escapeLetters.all fun pair => isPlain pair.2 := by decide
  unfold escape
  split
  case h_1 letter found =>
      exact .cons (by decide)
        (.cons (List.all_eq_true.mp letters _ (mem_of_lookup found)) .nil)
  case h_2 =>
      split
      · exact coded 'x' 2 (by decide)
      · split
        · exact coded 'u' 4 (by decide)
        · exact coded 'U' 8 (by decide)

private theorem plainText_double (chars : List Char) (column : Nat) (blankBefore : Bool) :
    PlainText (double column blankBefore chars) := by
  fun_induction double column blankBefore chars with
  | case1 => exact .nil
  | case2 _ _ char _ _ ih => exact .append (plainText_escape char) ih
  | case3 _ _ _ _ _ _ ih => exact .append (.cons (by decide) .margin) (.cons (by decide) ih)
  | case4 _ _ _ _ _ _ ih => exact .fold ih
  | case5 _ _ _ _ _ ih => exact .blank ih
  | case6 _ _ char _ unescaped _ ih =>
      simp only [isEscaped, Bool.or_eq_true, not_or, Bool.not_eq_true', Bool.not_eq_false]
        at unescaped
      exact .cons unescaped.1.1.1 ih

/-- Any text is plain between double quotes. -/
theorem plainText_doubleQuoted (column : Nat) (chars : List Char) :
    PlainText (doubleQuoted column chars) := by
  have inside : PlainText (if chars.head? = some byteOrderMark then chars.flatMap escape
      else double (column + 1) false chars) := by
    split
    · intro char member
      obtain ⟨other, -, written⟩ := List.mem_flatMap.mp member
      exact plainText_escape other char written
    · exact plainText_double chars _ _
  exact .append (.cons (by decide) inside) (.cons (by decide) .nil)

end Yaml

end Scriptlet
