import Scriptlet.Proofs.Code.Scanning
import Scriptlet.Text.Quoted

/-!
# Quoted texts in code

A text that is written between quotes is scanned as one symbol. Characters that cannot stand for
themselves are escaped in a way that code allows.
-/

namespace Scriptlet

namespace Code

/-! ## Codes of characters -/

/-- The digits of a number to base 16 are read as what they stand for. -/
theorem digit?_digitChar : ∀ digit < 16, Escape.digit? digit.digitChar = some digit := by
  decide

/-- Digits are read from the front, and those behind go on with the number. -/
theorem number?_append (front back : List Char) :
    Escape.number? 16 (front ++ back) = (Escape.number? 16 front).bind fun number =>
      back.foldlM (fun number char => do
        let digit ← Escape.digit? char
        if digit < 16 then some (number * 16 + digit) else none) number := by
  exact List.foldlM_append

private theorem number?_toDigits (number : Nat) :
    Escape.number? 16 (Nat.toDigits 16 number) = some number := by
  induction number using Nat.strongRecOn with
  | ind number ih =>
    by_cases small : number < 16
    · rw [Nat.toDigits_of_lt_base small]
      simp [Escape.number?, digit?_digitChar number small, small]
    · have split : 16 * (number / 16) + number % 16 = number := Nat.div_add_mod number 16
      have rest : number % 16 < 16 := Nat.mod_lt number (by decide)
      have front := ih (number / 16) (by omega)
      have joined := Nat.toDigits_append_toDigits (b := 16) (by decide)
        (show 0 < number / 16 by omega) rest
      rw [split] at joined
      rw [← joined, number?_append, front, Nat.toDigits_of_lt_base rest]
      simp only [Option.bind_some, List.foldlM_cons, List.foldlM_nil, digit?_digitChar _ rest,
        Option.bind_eq_bind, if_pos rest, Option.pure_def]
      rw [Nat.mul_comm, split]

/-- A number written with some width is read as that number. -/
theorem number?_hex (width number : Nat) :
    Escape.number? 16 (Quoted.hex width number) = some number := by
  have zeros (count : Nat) : Escape.number? 16 (List.replicate count '0') = some 0 := by
    induction count with
    | zero => rfl
    | succ count ih => exact ih
  rw [Quoted.hex, number?_append, zeros]
  exact number?_toDigits number

/-- A number that fits has the width that it is written with. -/
theorem length_hex {width number : Nat} (fits : number < Nat.pow 16 width) (positive : 0 < width) :
    (Quoted.hex width number).length = width := by
  have short := (Nat.length_toDigits_le_iff (by decide) positive).mpr fits
  simp only [Quoted.hex, List.length_append, List.length_replicate]
  omega

/-! ## Escaped characters -/

/-- Whether a character stands for itself between double quotes. -/
def isPlain (char : Char) : Bool :=
  !(['"', '\\', '\n'] ++ Lexemes.excluded).contains char

/-- A test that no other character passes tells which ones stand for themselves. -/
theorem isPlain_of {test : Char → Bool}
    (absent : (['"', '\\', '\n'] ++ Lexemes.excluded).any test = false) {char : Char}
    (passes : test char = true) : isPlain char = true := by
  rw [isPlain, Bool.not_eq_true', ← Bool.not_eq_true, List.contains_iff_mem]
  intro member
  exact List.any_eq_false.mp absent char member passes

/-- Digits need no escape. -/
theorem isPlain_of_digits {chars : List Char} {start number : Nat}
    (digits : chars.foldlM (fun number char => do
      let digit ← Escape.digit? char
      if digit < 16 then some (number * 16 + digit) else none) start = some number) :
    chars.all isPlain = true := by
  induction chars generalizing start with
  | nil => rfl
  | cons char chars ih =>
    obtain ⟨next, first, digits⟩ := Option.bind_eq_some_iff.mp digits
    obtain ⟨digit, found, -⟩ := Option.bind_eq_some_iff.mp first
    have plain : isPlain char = true := by
      have absent : (['"', '\\', '\n'] ++ Lexemes.excluded).any
          (fun char => (Escape.digit? char).isSome) = false := by
        decide
      exact isPlain_of absent (by rw [found]; rfl)
    rw [List.all_cons, plain, Bool.true_and]
    exact ih digits

private theorem isPlain_of_escapeLetter? {char letter : Char}
    (found : Quoted.escapeLetter? char = some letter) : isPlain letter = true := by
  unfold Quoted.escapeLetter? at found
  split at found <;> cases found <;> rfl

/-- A character between double quotes stands for itself, or a backslash is in front of it or of what
stands for it. -/
theorem escape_eq (char : Char) :
    (Quoted.escape '"' char = [char] ∧ isPlain char = true) ∨
      ∃ letter digits, Quoted.escape '"' char = '\\' :: letter :: digits ∧
        (isPlain letter = true ∨ letter = '"' ∨ letter = '\\') ∧ digits.all isPlain = true := by
  unfold Quoted.escape
  split
  · next special =>
    exact .inr ⟨char, [], rfl, .inr special, rfl⟩
  · next special =>
    split
    · next printable =>
      have absent : (['"', '\\', '\n'] ++ Lexemes.excluded).any
          (fun char => isPrintable char && char ≠ '"' && char ≠ '\\') = false := by
        decide +kernel
      refine .inl ⟨rfl, isPlain_of absent ?_⟩
      simpa [printable, not_or] using special
    · split
      · next letter found =>
        exact .inr ⟨letter, [], rfl, .inl (isPlain_of_escapeLetter? found), rfl⟩
      · split
        · exact .inr ⟨'x', _, rfl, .inl rfl, isPlain_of_digits (number?_hex _ _)⟩
        · split
          · exact .inr ⟨'u', _, rfl, .inl rfl, isPlain_of_digits (number?_hex _ _)⟩
          · exact .inr ⟨'U', _, rfl, .inl rfl, isPlain_of_digits (number?_hex _ _)⟩

/-- An escape with a letter counts as one character. -/
theorem length?_letter {letter : Char} (known : letter = '"' ∨ (Escape.letter? letter).isSome = true)
    (rest : List Char) :
    Literal.length? '"' ('\\' :: letter :: rest) = (Literal.length? '"' rest).map (· + 1) := by
  have other (code : Char) (unknown : ¬(code = '"' ∨ (Escape.letter? code).isSome = true)) :
      letter ≠ code := by
    rintro rfl
    exact unknown known
  have byte := other 'x' (by decide)
  have short := other 'u' (by decide)
  have long := other 'U' (by decide)
  have counted : Literal.length? '"' ('\\' :: letter :: rest) =
      (Literal.length? '"' rest).bind fun length => some (length + 1) := by
    rcases rest with _ | ⟨first, _ | ⟨second, rest⟩⟩
    · simp [Literal.length?, known]
    all_goals
      rw [Literal.length?, if_pos known]
      · rfl
      all_goals simp [byte, short, long]
  rw [counted]
  cases Literal.length? '"' rest <;> rfl

private theorem length?_plain {char : Char} (plain : char ≠ '\\') (rest : List Char) :
    Literal.length? '"' (char :: rest) = (Literal.length? '"' rest).map (· + 1) := by
  rw [Literal.length?, if_neg plain]
  · cases Literal.length? '"' rest <;> rfl
  all_goals simp [plain]

/-- An escape with a code of the right width counts as one character. -/
theorem length?_code {code : Char} {width number : Nat} (rest : List Char)
    (fits : number < Nat.pow 16 width)
    (known : code = 'x' ∧ width = 2 ∨ code = 'u' ∧ width = 4 ∨ code = 'U' ∧ width = 8)
    (valid : number.isValidChar) (small : width = 2 → number < 256) :
    Literal.length? '"' ('\\' :: code :: (Quoted.hex width number ++ rest)) =
      (Literal.length? '"' rest).map (· + 1) := by
  have positive : 0 < width := by omega
  have length := length_hex fits positive
  have read := number?_hex width number
  generalize Quoted.hex width number = digits at length read
  obtain ⟨rfl, rfl⟩ | ⟨rfl, rfl⟩ | ⟨rfl, rfl⟩ := known
  · match digits, length with
    | [a, b], _ =>
      rw [List.cons_append, List.cons_append, List.nil_append, Literal.length?, read]
      simp only [Option.bind_eq_bind, Option.bind_some, Escape.byte?, if_pos (small rfl)]
      cases Literal.length? '"' rest <;> rfl
  · match digits, length with
    | [a, b, c, d], _ =>
      simp only [List.cons_append, List.nil_append]
      rw [Literal.length?, read]
      simp only [Option.bind_eq_bind, Option.bind_some, Escape.char?, if_pos valid]
      cases Literal.length? '"' rest <;> rfl
  · match digits, length with
    | [a, b, c, d, e, f, g, h], _ =>
      simp only [List.cons_append, List.nil_append]
      rw [Literal.length?, read]
      simp only [Option.bind_eq_bind, Option.bind_some, Escape.char?, if_pos valid]
      cases Literal.length? '"' rest <;> rfl

private theorem length?_escape (char : Char) (rest : List Char) :
    Literal.length? '"' (Quoted.escape '"' char ++ rest) = (Literal.length? '"' rest).map (· + 1) := by
  unfold Quoted.escape
  split
  · next special =>
    refine length?_letter (special.imp_right ?_) rest
    rintro rfl
    rfl
  · next special =>
    split
    · exact length?_plain (fun same => special (.inr same)) rest
    · split
      · next letter found =>
        refine length?_letter (.inr ?_) rest
        unfold Quoted.escapeLetter? at found
        split at found <;> cases found <;> rfl
      · have valid := char.valid
        split
        · next small =>
          have fits : char.toNat < 256 := by omega
          exact length?_code rest (by simpa using fits) (.inl ⟨rfl, rfl⟩) valid fun _ => fits
        · split
          · next small =>
            exact length?_code rest (by simpa using small) (.inr (.inl ⟨rfl, rfl⟩)) valid nofun
          · have bound : char.toNat < 0x110000 := by
              obtain low | ⟨-, high⟩ := valid
              · exact Nat.lt_trans low (by decide)
              · exact high
            have fits : char.toNat < Nat.pow 16 8 := Nat.lt_trans bound (by decide)
            exact length?_code rest fits (.inr (.inr ⟨rfl, rfl⟩)) valid nofun

private theorem isWellFormed_escape (content : List Char) :
    Literal.isWellFormed '"' (content.flatMap (Quoted.escape '"')) = true := by
  have length : Literal.length? '"' (content.flatMap (Quoted.escape '"')) = some content.length := by
    induction content with
    | nil => rfl
    | cons char content ih => rw [List.flatMap_cons, length?_escape, ih]; rfl
  simp [Literal.isWellFormed, length]

/-! ## Scanning -/

namespace Scan

/-- Characters that stand for themselves. -/
theorem run_plain (scan : Scan) {chars text : List Char}
    (stage : scan.stage = .quoted '"' false chars) (plain : text.all isPlain = true) :
    ∃ after, scan.run text = some after ∧ after.stage = .quoted '"' false (text.reverse ++ chars) ∧
      after.symbols = scan.symbols := by
  induction text generalizing scan chars with
  | nil => exact ⟨scan, rfl, stage, rfl⟩
  | cons char text ih =>
    rw [List.all_cons, Bool.and_eq_true] at plain
    have passed : scan.next char = some { scan with
        stage := .quoted '"' false (char :: chars), place := scan.place.after char } := by
      obtain ⟨quote, backslash, line, -⟩ : char ≠ '"' ∧ char ≠ '\\' ∧ char ≠ '\n' ∧ _ := by
        simpa [isPlain] using plain.1
      simp [next, step, stage, quote, backslash, line]
    obtain ⟨after, runs, stage, found⟩ := ih { scan with
      stage := .quoted '"' false (char :: chars), place := scan.place.after char } rfl plain.2
    exact ⟨after, by rw [run_cons, passed, Option.bind_some, runs], by simpa using stage, found⟩

private theorem run_escape (scan : Scan) {chars : List Char} (stage : scan.stage = .quoted '"' false chars)
    (char : Char) :
    ∃ after, scan.run (Quoted.escape '"' char) = some after ∧
      after.stage = .quoted '"' false ((Quoted.escape '"' char).reverse ++ chars) ∧
      after.symbols = scan.symbols := by
  obtain ⟨same, plain⟩ | ⟨letter, digits, same, known, plain⟩ := escape_eq char
  · rw [same]
    exact scan.run_plain stage (by rw [List.all_cons, plain]; rfl)
  · have line : letter ≠ '\n' := by
      rintro rfl
      revert known
      decide
    have backslash : scan.next '\\' = some { scan with
        stage := .quoted '"' true ('\\' :: chars), place := scan.place.after '\\' } := by
      simp [next, step, stage]
    have escaped : Scan.next { scan with
        stage := .quoted '"' true ('\\' :: chars), place := scan.place.after '\\' } letter =
        some { scan with
          stage := .quoted '"' false (letter :: '\\' :: chars)
          place := (scan.place.after '\\').after letter } := by
      simp [next, step, line]
    obtain ⟨after, runs, stage, found⟩ := Scan.run_plain { scan with
      stage := .quoted '"' false (letter :: '\\' :: chars)
      place := (scan.place.after '\\').after letter } rfl plain
    rw [same]
    refine ⟨after, ?_, by simpa using stage, found⟩
    rw [run_cons, backslash, Option.bind_some, run_cons, escaped, Option.bind_some, runs]

private theorem run_escapes (scan : Scan) {chars : List Char} (stage : scan.stage = .quoted '"' false chars)
    (content : List Char) :
    ∃ after, scan.run (content.flatMap (Quoted.escape '"')) = some after ∧
      after.stage = .quoted '"' false ((content.flatMap (Quoted.escape '"')).reverse ++ chars) ∧
      after.symbols = scan.symbols := by
  induction content generalizing scan chars with
  | nil => exact ⟨scan, rfl, stage, rfl⟩
  | cons char content ih =>
    obtain ⟨middle, passed, stage, found⟩ := scan.run_escape stage char
    obtain ⟨after, runs, stage, found'⟩ := ih middle stage
    refine ⟨after, ?_, by simpa using stage, found'.trans found⟩
    rw [List.flatMap_cons, run_append, passed, Option.bind_some, runs]

end Scan

/-- A quoted text is scanned to one symbol. -/
theorem Passes.text (content : String) {ends : Bool} {chars : List Char} :
    Passes ends true true (Quoted.text content).toList chars [.text (Quoted.text content)] := by
  intro scan between _
  have opened : scan.next '"' = some { scan with
      start := scan.place, stage := .quoted '"' false [], place := scan.place.after '"' } := by
    rw [Scan.next, Scan.step, between]
    rfl
  obtain ⟨after, runs, stage, found⟩ := Scan.run_escapes { scan with
    start := scan.place, stage := .quoted '"' false [], place := scan.place.after '"' } rfl
    content.toList
  rw [List.append_nil] at stage
  have closed : after.next '"' =
      some { after.emit (.text (Quoted.text content)) with place := after.place.after '"' } := by
    simp [Scan.next, Scan.step, stage, isWellFormed_escape, Scan.quotedSymbol, Quoted.text,
      Scan.emit]
  refine ⟨{ after.emit (.text (Quoted.text content)) with place := after.place.after '"' }, ?_, rfl,
    rfl, fun _ => column_after (by decide), ?_⟩
  · rw [Quoted.text, String.toList_ofList, List.append_assoc, List.cons_append, Scan.run_cons,
      opened, Option.bind_some, Scan.run_append, runs, Option.bind_some, List.singleton_append,
      Scan.run_cons, closed, Option.bind_some]
    rfl
  · have emitted := Scan.symbols_emit after (.text (Quoted.text content))
    rw [found] at emitted
    exact emitted

/-- A character that needs no escape is allowed in code. -/
theorem not_excluded_of_isPlain {char : Char} (plain : isPlain char = true) :
    Lexemes.excluded.contains char = false := by
  rw [← Bool.not_eq_true, List.contains_iff_mem]
  intro member
  rw [isPlain, Bool.not_eq_true', ← Bool.not_eq_true, List.contains_iff_mem] at plain
  exact plain (List.mem_append_right _ member)

private theorem not_excluded_escape (char : Char) :
    (Quoted.escape '"' char).any Lexemes.excluded.contains = false := by
  have digits {chars : List Char} (plain : chars.all isPlain = true) :
      chars.any Lexemes.excluded.contains = false := by
    rw [List.any_eq_false]
    intro char member
    rw [not_excluded_of_isPlain (List.all_eq_true.mp plain char member)]
    exact Bool.false_ne_true
  obtain ⟨same, plain⟩ | ⟨letter, code, same, known, plain⟩ := escape_eq char
  · rw [same]
    exact digits (by rw [List.all_cons, plain]; rfl)
  · have allowed : Lexemes.excluded.contains letter = false := by
      obtain plain | rfl | rfl := known
      · exact not_excluded_of_isPlain plain
      · rfl
      · rfl
    rw [same, List.any_cons, List.any_cons, allowed, digits plain]
    rfl

private theorem not_excluded_text (content : String) :
    (Quoted.text content).toList.any Lexemes.excluded.contains = false := by
  have inner : (content.toList.flatMap (Quoted.escape '"')).any Lexemes.excluded.contains = false := by
    rw [List.any_flatMap, List.any_eq_false]
    intro char _
    rw [not_excluded_escape]
    exact Bool.false_ne_true
  rw [Quoted.text, String.toList_ofList, List.any_append, List.any_cons, inner]
  rfl

/-- A quoted text in front of other code. -/
theorem Spells.text (content : String) {ends inLine : Bool} {chars : List Char}
    {symbols : List Symbol} (rest : Spells true true chars symbols) :
    Spells ends inLine ((Quoted.text content).toList ++ chars)
      (.text (Quoted.text content) :: symbols) :=
  rest.behind (not_excluded_text content) (.text content)

end Code

end Scriptlet
