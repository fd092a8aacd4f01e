import Scriptlet.Code.Scan

/-!
# Code as symbols

Text that starts and ends between two symbols is scanned to the same symbols wherever it
stands. Only a line that ends depends on what is in front of it, namely on whether the last
symbol can end something. So the symbols of a text are those of its parts.
-/

namespace Scriptlet

namespace Code

/-- Whether a word can be scanned as a whole. -/
def isWord : List Char → Bool
  | [] => false
  | first :: others => startsName first && others.all continuesName

/-- Whether a text is a name: a word that is no keyword. -/
def isName (text : String) : Bool :=
  isWord text.toList && !Symbol.keywords.contains text

/-- Names are words. -/
theorem isWord_of_isName {text : String} (named : isName text = true) :
    isWord text.toList = true := by
  simp only [isName, Bool.and_eq_true] at named
  exact named.1

/-- Every character of a word can go on with one. -/
theorem all_continuesName_of_isWord {word : List Char} (valid : isWord word = true) :
    word.all continuesName = true := by
  cases word with
  | nil => cases valid
  | cons first others =>
    simp only [isWord, Bool.and_eq_true] at valid
    simp only [List.all_cons, continuesName, valid.1, Bool.true_or, Bool.true_and]
    exact valid.2

private theorem ofWord_of_isName {text : String} (named : isName text = true) :
    Symbol.ofWord text = .name text := by
  simp only [isName, Bool.and_eq_true, Bool.not_eq_true'] at named
  rw [Symbol.ofWord, named.2]
  rfl

/-- Whether a character starts a sign. -/
def opensSign (char : Char) : Bool :=
  !Scan.isBlank char && !startsName char && !char.isDigit &&
    !(List.contains ['"', '\'', '\x60', '/'] char) && Symbol.signs.contains (String.singleton char)

/-- A test that the excluded characters do not pass excludes them. -/
theorem not_excluded_of {test : Char → Bool} (absent : Lexemes.excluded.any test = false)
    {char : Char} (passes : test char = true) : Lexemes.excluded.contains char = false := by
  rw [← Bool.not_eq_true, List.contains_iff_mem]
  intro member
  exact List.any_eq_false.mp absent char member passes

/-- A character of a name is allowed in code. -/
theorem not_excluded_of_continuesName {char : Char} (continues : continuesName char = true) :
    Lexemes.excluded.contains char = false :=
  not_excluded_of (by decide +kernel) continues

private theorem not_excluded_of_isWord {word : List Char} (valid : isWord word = true) :
    word.any Lexemes.excluded.contains = false := by
  obtain _ | ⟨first, others⟩ := word
  · cases valid
  simp only [isWord, Bool.and_eq_true] at valid
  rw [List.any_eq_false]
  intro char member
  rw [Bool.not_eq_true]
  refine not_excluded_of_continuesName ?_
  obtain rfl | member := List.mem_cons.mp member
  · simp [continuesName, valid.1]
  · exact List.all_eq_true.mp valid.2 char member

private theorem not_excluded_of_opensSign {char : Char} (opens : opensSign char = true) :
    Lexemes.excluded.contains char = false :=
  not_excluded_of (by decide +kernel) opens

/-- A character that starts a name is no blank. -/
theorem not_isBlank_of_startsName {char : Char} (starts : startsName char = true) :
    Scan.isBlank char = false := by
  rw [← Bool.not_eq_true]
  intro blank
  simp only [Scan.isBlank, Bool.or_eq_true, decide_eq_true_eq] at blank
  obtain ((rfl | rfl) | rfl) | rfl := blank <;> revert starts <;> decide +kernel

/-- Whether a character joins a sign in front of it. -/
def joinsSign (sign char : Char) : Bool :=
  Symbol.signs.contains (String.ofList [sign, char]) || (sign = '.' && char.isDigit)

/-- The characters that stand behind another one in a sign. -/
def innerSigns : List Char :=
  ['<', '>', '^', '=', '&', '|', '-', '+', '.']

private theorem mem_innerSigns {sign char : Char} (member : String.ofList [sign, char] ∈ Symbol.signs) :
    char ∈ innerSigns := by
  have checked : Symbol.signs.all (fun spelling =>
      (spelling.toList.drop 1).all innerSigns.contains) = true := by
    decide
  simpa using List.all_eq_true.mp checked _ member

private theorem not_startsName_of_isDigit {char : Char} (digit : char.isDigit = true) :
    startsName char = false := by
  have bounds : 48 ≤ char.toNat ∧ char.toNat ≤ 57 := by
    simpa [Char.isDigit, UInt32.le_iff_toNat_le] using digit
  have notLetter : char.isAlpha = false := by
    delta Char.isAlpha Char.isUpper Char.isLower
    simp only [ge_iff_le, UInt32.le_iff_toNat_le, Char.reduceVal, UInt32.reduceToNat,
      Char.toNat_val, Bool.decide_and, Bool.or_eq_false_iff, Bool.and_eq_false_imp,
      decide_eq_true_eq, decide_eq_false_iff_not]
    omega
  have notLine : char ≠ '_' := by
    rintro rfl
    cases digit
  have small : char.toNat < 0x80 := by omega
  simp [startsName, isLetter, small, notLetter, notLine]

/-- A character that starts a name joins no sign. -/
theorem not_joinsSign_of_startsName {sign char : Char} (starts : startsName char = true) :
    joinsSign sign char = false := by
  have notDigit : char.isDigit = false := by
    rw [← Bool.not_eq_true]
    intro digit
    rw [not_startsName_of_isDigit digit] at starts
    cases starts
  have absent : String.ofList [sign, char] ∉ Symbol.signs := by
    intro member
    have second := mem_innerSigns member
    simp only [innerSigns, List.mem_cons, List.not_mem_nil, or_false] at second
    obtain rfl | rfl | rfl | rfl | rfl | rfl | rfl | rfl | rfl := second <;>
      revert starts <;> decide +kernel
  rw [joinsSign, notDigit, Bool.and_false, Bool.or_false, ← Bool.not_eq_true,
    List.contains_iff_mem]
  exact absent

/-- A character of a name ends no line. -/
theorem ne_newline_of_continuesName {char : Char} (continues : continuesName char = true) :
    char ≠ '\n' := by
  rintro rfl
  revert continues
  decide +kernel

/-- Behind a character that ends no line, there is something on the line. -/
theorem column_after {place : Place} {char : Char} (line : char ≠ '\n') :
    0 < (place.after char).column := by
  simp only [Place.after, if_neg line]
  exact Nat.add_pos_right _ char.utf8Size_pos

namespace Scan

/-- The symbols that have been found. -/
def symbols (scan : Scan) : List Symbol :=
  scan.found.reverse.map (·.symbol)

/-- Whether the last symbol can end something. -/
def canEnd (scan : Scan) : Bool :=
  (scan.found.head?.map (·.symbol.canEnd)).getD false

/-- Goes on with some characters. -/
def run (scan : Scan) (chars : List Char) : Option Scan :=
  chars.foldlM next scan

@[simp]
theorem run_nil (scan : Scan) : scan.run [] = some scan :=
  rfl

/-- A scan goes on with the first character and then with the others. -/
theorem run_cons (scan : Scan) (char : Char) (chars : List Char) :
    scan.run (char :: chars) = (scan.next char).bind (·.run chars) :=
  List.foldlM_cons ..

/-- A scan goes on with the characters in front and then with those behind. -/
theorem run_append (scan : Scan) (front back : List Char) :
    scan.run (front ++ back) = (scan.run front).bind (·.run back) :=
  List.foldlM_append ..

@[simp]
theorem symbols_emit (scan : Scan) (symbol : Symbol) :
    (scan.emit symbol).symbols = scan.symbols ++ [symbol] := by
  simp [symbols, emit]

@[simp]
theorem canEnd_emit (scan : Scan) (symbol : Symbol) :
    (scan.emit symbol).canEnd = symbol.canEnd :=
  rfl

@[simp]
theorem stage_emit (scan : Scan) (symbol : Symbol) : (scan.emit symbol).stage = .between :=
  rfl

/-- Whether something can end is told by the last symbol that was found. -/
theorem canEnd_eq (scan : Scan) :
    scan.canEnd = (scan.symbols.getLast?.map Symbol.canEnd).getD false := by
  simp [canEnd, symbols, Function.comp_def]

private theorem next_of_name {scan : Scan} {chars : List Char} {char : Char}
    (stage : scan.stage = .name chars) (stops : continuesName char = false) :
    scan.next char = (scan.emit (.ofWord (String.ofList chars.reverse))).next char := by
  simp [next, step, stage, stops]

/-- A character that starts a sign is scanned as one between two symbols. -/
theorem start?_of_opensSign {scan : Scan} {char : Char} (opens : opensSign char = true) :
    scan.start? char = some { scan with start := scan.place, stage := .sign [char] } := by
  simp only [opensSign, Bool.and_eq_true, Bool.not_eq_true', List.contains_eq_mem, decide_eq_true_eq,
    decide_eq_false_iff_not, List.mem_cons, List.not_mem_nil, or_false, not_or] at opens
  obtain ⟨⟨⟨⟨blank, starts⟩, digit⟩, quote, single, raw, slash⟩, member⟩ := opens
  have line : char ≠ '\n' := by
    rintro rfl
    cases blank
  simp only [start?]
  rw [if_neg line, if_neg (by simp [blank]), if_neg (by simp [starts]), if_neg (by simp [digit]),
    if_neg (by simp [quote, single]), if_neg raw, if_neg slash, if_pos (by simpa using member)]

private theorem next_of_sign {scan : Scan} {sign char : Char} (stage : scan.stage = .sign [sign])
    (stops : joinsSign sign char = false) :
    scan.next char = (scan.emit (.sign (String.singleton sign))).next char := by
  simp only [joinsSign, Bool.or_eq_false_iff, Bool.and_eq_false_imp, decide_eq_true_eq] at stops
  have spelled : String.ofList [sign] = String.singleton sign := rfl
  have apart : ¬([sign] = ['.'] ∧ char.isDigit = true) := by
    simpa using stops.2
  simp only [next, step, stage, nextSign, List.reverse_cons, List.reverse_nil, List.nil_append,
    List.cons_append, stops.1, Bool.false_eq_true, if_false, if_neg apart, spelled, stage_emit]

private theorem run_name (scan : Scan) {chars more : List Char} (stage : scan.stage = .name chars)
    (inLine : 0 < scan.place.column) (continues : more.all continuesName = true) :
    ∃ after, scan.run more = some after ∧ after.stage = .name (more.reverse ++ chars) ∧
      after.found = scan.found ∧ 0 < after.place.column := by
  induction more generalizing scan chars with
  | nil => exact ⟨scan, rfl, stage, rfl, inLine⟩
  | cons char more ih =>
    simp only [List.all_cons, Bool.and_eq_true] at continues
    have passed : scan.next char =
        some { scan with stage := .name (char :: chars), place := scan.place.after char } := by
      simp [next, step, stage, continues.1]
    obtain ⟨after, runs, stage, found, inLine⟩ :=
      ih { scan with stage := .name (char :: chars), place := scan.place.after char } rfl
        (column_after (ne_newline_of_continuesName continues.1)) continues.2
    refine ⟨after, by rw [run_cons, passed, Option.bind_some, runs], ?_, found, inLine⟩
    simpa using stage

private theorem run_comment (scan : Scan) {chars text : List Char} (stage : scan.stage = .comment chars)
    (line : '\n' ∉ text) :
    ∃ after, scan.run text = some after ∧ after.stage = .comment (text.reverse ++ chars) ∧
      after.found = scan.found := by
  induction text generalizing scan chars with
  | nil => exact ⟨scan, rfl, stage, rfl⟩
  | cons char text ih =>
    simp only [List.mem_cons, not_or] at line
    have passed : scan.next char =
        some { scan with stage := .comment (char :: chars), place := scan.place.after char } := by
      simp [next, step, stage, Ne.symm line.1]
    obtain ⟨after, runs, stage, found⟩ :=
      ih { scan with stage := .comment (char :: chars), place := scan.place.after char } rfl line.2
    refine ⟨after, by rw [run_cons, passed, Option.bind_some, runs], ?_, found⟩
    simpa using stage

end Scan

/-- Some characters in front of others are scanned to some symbols: it is between two symbols
in front of them and behind them. The last symbol in front of them can end something or cannot,
and so can the last symbol behind them. -/
def Passes (ends ends' inLine : Bool) (front chars : List Char) (symbols : List Symbol) : Prop :=
  ∀ scan : Scan, scan.stage = .between → scan.canEnd = ends →
    ∃ middle : Scan, scan.run (front ++ chars) = middle.run chars ∧ middle.stage = .between ∧
      middle.canEnd = ends' ∧ (inLine = true → 0 < middle.place.column) ∧
      middle.symbols = scan.symbols ++ symbols

namespace Passes

variable {ends : Bool} {chars : List Char}

/-- A blank or a tabulator. -/
theorem blank {char : Char} (isBlank : char = ' ' ∨ char = '\t') :
    Passes ends ends true [char] chars [] := by
  intro scan between canEnd
  refine ⟨{ scan with start := scan.place, place := scan.place.after char }, ?_, between, canEnd,
    fun _ => column_after ?_, (List.append_nil _).symm⟩
  · obtain rfl | rfl := isBlank <;>
      simp [Scan.run_cons, Scan.next, Scan.step, between, Scan.start?, Scan.isBlank]
  · obtain rfl | rfl := isBlank <;> decide

/-- A word in front of a character that does not belong to it. -/
theorem word {word : List Char} {char : Char} (valid : isWord word = true)
    (stops : continuesName char = false) :
    Passes ends (Symbol.ofWord (String.ofList word)).canEnd true word (char :: chars)
      [.ofWord (String.ofList word)] := by
  obtain _ | ⟨first, others⟩ := word
  · cases valid
  simp only [isWord, Bool.and_eq_true] at valid
  obtain ⟨starts, continues⟩ := valid
  intro scan between _
  have blank := not_isBlank_of_startsName starts
  have line : first ≠ '\n' := by
    rintro rfl
    cases blank
  have passed : scan.next first = some { scan with
      start := scan.place, stage := .name [first], place := scan.place.after first } := by
    simp [Scan.next, Scan.step, between, Scan.start?, line, blank, starts]
  obtain ⟨after, runs, stage, found, inLine⟩ := Scan.run_name { scan with
    start := scan.place, stage := .name [first], place := scan.place.after first } rfl
    (column_after line) continues
  refine ⟨after.emit (.ofWord (String.ofList (first :: others))), ?_, rfl, rfl, fun _ => inLine, ?_⟩
  · rw [List.cons_append, Scan.run_cons, passed, Option.bind_some, Scan.run_append, runs,
      Option.bind_some, Scan.run_cons, Scan.run_cons, Scan.next_of_name stage stops]
    simp
  · rw [Scan.symbols_emit, Scan.symbols, found]
    rfl

/-- A sign of one character in front of one that does not join it. -/
theorem sign {sign char : Char} (opens : opensSign sign = true)
    (stops : joinsSign sign char = false) :
    Passes ends (Symbol.sign (String.singleton sign)).canEnd true [sign] (char :: chars)
      [.sign (String.singleton sign)] := by
  intro scan between _
  have line : sign ≠ '\n' := by
    rintro rfl
    revert opens
    decide +kernel
  have passed : scan.next sign = some { scan with
      start := scan.place, stage := .sign [sign], place := scan.place.after sign } := by
    simp [Scan.next, Scan.step, between, Scan.start?_of_opensSign opens]
  refine ⟨Scan.emit { scan with
    start := scan.place, stage := .sign [sign], place := scan.place.after sign }
    (.sign (String.singleton sign)), ?_, rfl, rfl, fun _ => column_after line,
    by simp [Scan.symbols, Scan.emit]⟩
  rw [List.cons_append, List.nil_append, Scan.run_cons, passed, Option.bind_some, Scan.run_cons,
    Scan.run_cons, Scan.next_of_sign rfl stops]

/-- A line that ends behind something. -/
theorem lineEnd : Passes true false false ['\n'] chars [.lineEnd] := by
  intro scan between canEnd
  refine ⟨{ { scan with start := scan.place }.emit .lineEnd with place := scan.place.after '\n' },
    ?_, rfl, rfl, nofun, by simp [Scan.symbols, Scan.emit]⟩
  have ended : (scan.found.head?.map (·.symbol.canEnd)).getD false = true := canEnd
  simp [Scan.run_cons, Scan.next, Scan.step, between, Scan.start?, Scan.endLine, ended, Scan.emit]

/-- A line that ends in the middle of something. -/
theorem newline : Passes false false false ['\n'] chars [] := by
  intro scan between canEnd
  refine ⟨{ scan with start := scan.place, place := scan.place.after '\n' }, ?_, between, canEnd,
    nofun, (List.append_nil _).symm⟩
  have ended : (scan.found.head?.map (·.symbol.canEnd)).getD false = false := canEnd
  simp [Scan.run_cons, Scan.next, Scan.step, between, Scan.start?, Scan.endLine, ended]

/-- The sign that gives a value a new name, in front of a blank. -/
theorem define : Passes ends false true [':', '='] (' ' :: chars) [.sign ":="] := by
  intro scan between _
  refine ⟨Scan.emit { scan with
    start := scan.place, stage := .sign ['=', ':']
    place := (scan.place.after ':').after '=' } (.sign ":="), ?_, rfl, rfl,
    fun _ => column_after (by decide), by simp [Scan.symbols, Scan.emit]⟩
  have opened : scan.next ':' = some { scan with
      start := scan.place, stage := .sign [':'], place := scan.place.after ':' } := by
    rw [Scan.next, Scan.step, between]
    exact congrArg (Option.map _) (Scan.start?_of_opensSign (by decide +kernel))
  rw [List.cons_append, Scan.run_cons, opened]
  rfl

/-- A line with a comment that states no line of other code. -/
theorem comment {text : List Char} (line : '\n' ∉ text) :
    Passes false false false ('/' :: '/' :: ' ' :: text ++ ['\n']) chars [] := by
  intro scan between canEnd
  have opened : scan.run ['/', '/'] = some { scan with
      start := scan.place, stage := .comment ['/', '/']
      place := (scan.place.after '/').after '/' } := by
    rw [Scan.run_cons, Scan.next, Scan.step, between]
    rfl
  obtain ⟨after, runs, stage, found⟩ := Scan.run_comment { scan with
    start := scan.place, stage := .comment ['/', '/']
    place := (scan.place.after '/').after '/' } rfl (show '\n' ∉ ' ' :: text by simpa using line)
  have ended : (after.found.head?.map (·.symbol.canEnd)).getD false = false := by
    rw [found]
    exact canEnd
  have remarked : ∃ remarks, after.remark ('/' :: '/' :: ' ' :: text) =
      some { after with stage := .between, comments := remarks } := by
    have states (place : Place) : Comment.statesLine
        ⟨String.ofList (Comment.withoutReturns ('/' :: '/' :: ' ' :: text)), place⟩ = false := by
      simp [Comment.statesLine, Comment.withoutReturns]
    exact ⟨_, if_neg (by rw [states]; exact Bool.false_ne_true)⟩
  obtain ⟨remarks, remarked⟩ := remarked
  have passed : after.next '\n' = some { after with
      stage := .between, comments := remarks, place := after.place.after '\n' } := by
    simp [Scan.next, Scan.step, stage, remarked, Scan.endLine, ended]
  refine ⟨{ after with stage := .between, comments := remarks, place := after.place.after '\n' },
    ?_, rfl, ended, nofun, ?_⟩
  · calc scan.run (('/' :: '/' :: ' ' :: text ++ ['\n']) ++ chars)
      _ = scan.run (['/', '/'] ++ (' ' :: text ++ '\n' :: chars)) := by simp
      _ = after.run ('\n' :: chars) := by
        rw [Scan.run_append, opened, Option.bind_some, Scan.run_append, runs, Option.bind_some]
      _ = _ := by rw [Scan.run_cons, passed, Option.bind_some]
  · rw [List.append_nil, Scan.symbols, found]
    rfl

end Passes

/-- Some characters are scanned to some symbols, if the last symbol in front of them can end
something or cannot, and if they do not start a line or may do so. -/
structure Spells (ends inLine : Bool) (chars : List Char) (symbols : List Symbol) : Prop where
  allowed : chars.any Lexemes.excluded.contains = false
  runs (scan : Scan) : scan.stage = .between → scan.canEnd = ends →
    (inLine = true → 0 < scan.place.column) →
    ∃ after, scan.run chars = some after ∧ after.stage = .between ∧
      after.symbols = scan.symbols ++ symbols

namespace Spells

variable {ends inLine : Bool} {chars : List Char} {symbols : List Symbol}

protected theorem nil : Spells ends inLine [] [] where
  allowed := rfl
  runs scan between _ _ := ⟨scan, rfl, between, (List.append_nil _).symm⟩

/-- Characters that are passed in front of others. -/
theorem behind {ends' inLine' : Bool} {front : List Char} {first : List Symbol}
    (rest : Spells ends' inLine' chars symbols)
    (allowed : front.any Lexemes.excluded.contains = false)
    (passes : Passes ends ends' inLine' front chars first) :
    Spells ends inLine (front ++ chars) (first ++ symbols) where
  allowed := by rw [List.any_append, allowed, rest.allowed, Bool.or_false]
  runs scan between canEnd _ := by
    obtain ⟨middle, passed, between, canEnd, line, found⟩ := passes scan between canEnd
    obtain ⟨after, goes, between, found'⟩ := rest.runs middle between canEnd line
    exact ⟨after, by rw [passed, goes], between, by rw [found', found, List.append_assoc]⟩

/-- Characters behind others. -/
protected theorem append {front : List Char} {first : List Symbol}
    (starts : Spells ends inLine front first)
    (rest : Spells ((first.getLast?.map Symbol.canEnd).getD ends) false chars symbols) :
    Spells ends inLine (front ++ chars) (first ++ symbols) where
  allowed := by rw [List.any_append, starts.allowed, rest.allowed, Bool.or_false]
  runs scan between canEnd line := by
    obtain ⟨middle, passed, between, found⟩ := starts.runs scan between canEnd line
    have behind : middle.canEnd = (first.getLast?.map Symbol.canEnd).getD ends := by
      rw [Scan.canEnd_eq] at canEnd
      rw [Scan.canEnd_eq, found, List.getLast?_append]
      cases first.getLast? with
      | none => exact canEnd
      | some last => rfl
    obtain ⟨after, goes, between, found'⟩ := rest.runs middle between behind nofun
    refine ⟨after, ?_, between, by rw [found', found, List.append_assoc]⟩
    rw [Scan.run_append, passed, Option.bind_some, goes]

/-- A blank or a tabulator in front of other code. -/
theorem blank {char : Char} (isBlank : char = ' ' ∨ char = '\t')
    (rest : Spells ends true chars symbols) : Spells ends inLine (char :: chars) symbols :=
  rest.behind (by obtain rfl | rfl := isBlank <;> rfl) (.blank isBlank)

/-- A line end behind something that it ends. -/
theorem lineEnd (rest : Spells false false chars symbols) :
    Spells true inLine ('\n' :: chars) (.lineEnd :: symbols) :=
  rest.behind rfl .lineEnd

/-- A line end in the middle of something. -/
theorem newline (rest : Spells false false chars symbols) :
    Spells false inLine ('\n' :: chars) symbols :=
  rest.behind rfl .newline

/-- A word in front of a character that does not belong to it. -/
theorem word {word : List Char} {char : Char} (valid : isWord word = true)
    (stops : continuesName char = false)
    (rest : Spells (Symbol.ofWord (String.ofList word)).canEnd true (char :: chars) symbols) :
    Spells ends inLine (word ++ char :: chars) (.ofWord (String.ofList word) :: symbols) :=
  rest.behind (not_excluded_of_isWord valid) (.word valid stops)

/-- A name in front of a character that does not belong to it. -/
theorem name {text : String} {char : Char} (named : isName text = true)
    (stops : continuesName char = false) (rest : Spells true true (char :: chars) symbols) :
    Spells ends inLine (text.toList ++ char :: chars) (.name text :: symbols) := by
  have spelled : Symbol.ofWord (String.ofList text.toList) = .name text := by
    rw [String.ofList_toList, ofWord_of_isName named]
  rw [← spelled]
  refine word (isWord_of_isName named) stops ?_
  rwa [spelled]

/-- A sign of one character in front of one that does not join it. -/
theorem sign {sign char : Char} (opens : opensSign sign = true)
    (stops : joinsSign sign char = false)
    (rest : Spells (Symbol.sign (String.singleton sign)).canEnd true (char :: chars) symbols) :
    Spells ends inLine (sign :: char :: chars) (.sign (String.singleton sign) :: symbols) :=
  rest.behind (by rw [List.any_cons, not_excluded_of_opensSign opens, List.any_nil, Bool.false_or])
    (.sign opens stops)

/-- The sign that gives a value a new name. -/
theorem define (rest : Spells false true (' ' :: chars) symbols) :
    Spells ends inLine (':' :: '=' :: ' ' :: chars) (.sign ":=" :: symbols) :=
  rest.behind rfl .define

/-- A line with a comment in front of other lines. -/
theorem comment {text : List Char} (allowed : text.any Lexemes.excluded.contains = false)
    (line : '\n' ∉ text) (rest : Spells false false chars symbols) :
    Spells false inLine ('/' :: '/' :: ' ' :: text ++ '\n' :: chars) symbols := by
  have spells : Spells false inLine (('/' :: '/' :: ' ' :: text ++ ['\n']) ++ chars) symbols := by
    refine rest.behind ?_ (.comment line)
    simp only [List.any_append, List.any_cons, allowed]
    rfl
  simpa using spells

/-- Lines of code are scanned to what they spell. -/
protected theorem scan {lines : String} (spells : Spells false false (lines.toList ++ ['\n']) symbols)
    (start : Place) :
    ∃ lexemes, Lexemes.scan start lines = some lexemes ∧
      lexemes.list.map (·.symbol) = symbols := by
  obtain ⟨after, runs, between, found⟩ :=
    spells.runs { place := start, start } rfl rfl nofun
  have allowed := spells.allowed
  rw [List.any_append, Bool.or_eq_false_iff] at allowed
  refine ⟨{ list := after.found.reverse, comments := after.comments.reverse }, ?_, found⟩
  have folded : (lines.toList ++ ['\n']).foldlM Scan.next { place := start, start } = some after :=
    runs
  simp only [Lexemes.scan, allowed.1, Bool.false_eq_true, if_false, folded]
  exact if_pos between

end Spells

end Code

end Scriptlet
