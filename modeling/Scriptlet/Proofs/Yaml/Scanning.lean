import Scriptlet.Proofs.Yaml.Blocks
import Scriptlet.Proofs.Yaml.Escapes
import Scriptlet.Yaml.Token

/-! # Tokens of written tables

A table is written as lines with a key, a colon and a value. Cutting such a line into tokens
takes three steps: the key, the colon, which shows that there was a key and in the first line
that a table has started, and the value in whatever style it was written. Then the scanner
stands in front of the next line as it stood in front of this one, so the tokens of a whole
table follow by induction on its lines (`tokenize_table`).
-/

namespace Scriptlet

namespace Yaml

open Style

/-! ## Going on to a token -/

namespace Window

private theorem pass_unmarked {window : Window} (unmarked : window.isMarked = false) (chars : List Char) :
    (window.pass chars).isMarked = false := by
  unfold pass
  split
  · split
    · rfl
    · exact unmarked
  · exact unmarked

/-- A plain text does not start with a byte order mark. -/
theorem startsMarked_of_plain {chars : List Char} (plain : PlainText chars) :
    startsMarked chars = false := by
  cases chars with
  | nil => rfl
  | cons char rest =>
      have other : char ≠ byteOrderMark := ne_of_isPlain plain.head (by decide)
      simp [startsMarked, other]

private theorem look_unmarked {window : Window} (unmarked : window.isMarked = false) {chars : List Char}
    (plain : PlainText chars) : (window.look chars).isMarked = false := by
  have either (shown : Nat) :
      (if isAtMost shown chars then { isMarked := startsMarked chars, beyond := none }
        else window).isMarked = false := by
    split
    · exact startsMarked_of_plain plain
    · exact unmarked
  exact either _

end Window

namespace Scanner

/-- The scanner at the next token of a plain text: only the place has changed, and whether a key
can start there. -/
structure Reaches (scanner next : Scanner) (allowed : Bool) (mark : Mark) (chars : List Char) :
    Prop where
  moves : scanner.toNext = next
  unmarked : next.window.isMarked = false
  keyAllowed : next.keyAllowed = allowed
  mark : next.mark = mark
  chars : next.chars = chars
  keys : next.keys = scanner.keys
  tokens : next.tokens = scanner.tokens
  indent : next.indent = scanner.indent
  indents : next.indents = scanner.indents

/-- Blanks and comments are skipped up to the next token. -/
theorem exists_reaches {scanner : Scanner} (unmarked : scanner.window.isMarked = false)
    (outside : scanner.inFlow = false) {allowed : Bool} {mark : Mark} {chars : List Char}
    (skips : skipBlanks false false false scanner.keyAllowed scanner.mark scanner.chars =
      (allowed, mark, chars)) (plain : PlainText chars) :
    ∃ next, scanner.Reaches next allowed mark chars := by
  have passed := Window.pass_unmarked unmarked scanner.chars
  have looked := Window.look_unmarked passed plain
  refine ⟨_, rfl, ?_, ?_, ?_, ?_, rfl, rfl, rfl, rfl⟩ <;>
    simp [toNext, passed, outside, skips, Window.passesEnd, looked]

/-- Whether nothing that may be a key is too far behind. -/
def Fresh (scanner : Scanner) : Prop :=
  ∀ key ∈ scanner.keys, ∀ start ∈ key, start.isStale scanner.mark = false

private theorem mapM_eq_self {α : Type} {visit : α → Except Fault α} {items : List α}
    (fixed : ∀ item ∈ items, visit item = .ok item) : items.mapM visit = .ok items := by
  induction items with
  | nil => rfl
  | cons item items ih =>
      obtain ⟨first, others⟩ := List.forall_mem_cons.mp fixed
      rw [List.mapM_cons, first, ih others]
      rfl

/-- Keys that are fresh are kept. -/
theorem dropStale_of_fresh {scanner : Scanner} (fresh : scanner.Fresh) :
    scanner.dropStale = .ok scanner := by
  unfold dropStale
  rw [mapM_eq_self]
  · rfl
  · intro key member
    cases key with
    | none => rfl
    | some start => simp [fresh _ member start rfl, pure, Except.pure]

/-- Whether the place is not outside the table at hand. -/
structure Level (scanner : Scanner) : Prop where
  outside : scanner.inFlow = false
  inside : scanner.indent ≤ scanner.mark.column

/-- Nothing is closed on the same level. -/
theorem unindentTo_of_level {scanner : Scanner} (level : scanner.Level) :
    scanner.unindentTo scanner.mark.column = scanner := by
  have stays : outdent scanner.mark.column scanner.indent scanner.indents =
      (0, scanner.indent, scanner.indents) := by
    cases scanner.indents with
    | nil => rfl
    | cons outer rest => rw [outdent, if_neg (Int.not_lt.mpr level.inside)]
  simp [unindentTo, level.outside, stays]

/-- The next token, where nothing has ended and no key has become stale. -/
theorem fetch_eq {scanner next after : Scanner} (moves : scanner.toNext = next)
    (fresh : next.Fresh) (level : next.Level) {char : Char} {rest : List Char}
    (chars : next.chars = char :: rest) (fetches : next.fetchAt char rest = .ok after)
    (freshAfter : after.Fresh) : scanner.fetch = .ok after := by
  simp only [fetch, moves, dropStale_of_fresh fresh, bind, Except.bind, unindentTo_of_level level]
  rw [chars]
  simp only [fetches]
  exact dropStale_of_fresh freshAfter

/-- The end of a text. -/
theorem fetch_eq_end {scanner next after : Scanner} (moves : scanner.toNext = next)
    (fresh : next.Fresh) (level : next.Level) (chars : next.chars = [])
    (fetches : next.fetchEnd = .ok after) (freshAfter : after.Fresh) :
    scanner.fetch = .ok after := by
  simp only [fetch, moves, dropStale_of_fresh fresh, bind, Except.bind, unindentTo_of_level level]
  rw [chars]
  simp only [fetches]
  exact dropStale_of_fresh freshAfter

/-! ## Keys -/

private theorem startsBare_of_goesOn {char : Char} {rest : List Char}
    (noIndicator : indicators.contains char = false) (word : isSpace char = false)
    (goesOn : char = '-' ∨ char = '?' ∨ char = ':' → startsSpace rest = false) :
    startsBare false char rest := by
  by_cases special : char = '-' ∨ char = '?' ∨ char = ':'
  · have behind := goesOn special
    cases rest with
    | nil => cases behind
    | cons next rest =>
        have noBlank : isBlank next = false := by
          simp only [startsSpace, isSpace, Bool.or_eq_false_iff] at behind
          exact behind.1
        obtain rfl | rfl | rfl := special <;> simp [startsBare, behind, noBlank]
  · have unlisted : isIndicator char = false := by
      simp only [not_or] at special
      simp [indicators] at noIndicator
      simp [isIndicator, special, noIndicator]
    simp [startsBare, word, unlisted]

/-- A bare word at a place where no other token starts. -/
theorem fetchAt_word {scanner : Scanner} (outside : scanner.inFlow = false) {char : Char}
    {rest : List Char} (noIndicator : indicators.contains char = false)
    (word : isSpace char = false)
    (goesOn : char = '-' ∨ char = '?' ∨ char = ':' → startsSpace rest = false)
    (noMark : isDocumentMark scanner.mark (char :: rest) = false) :
    scanner.fetchAt char rest = scanner.fetchBare := by
  have differs {other : Char} (listed : indicators.contains other) : char ≠ other := by
    rintro rfl
    rw [noIndicator] at listed
    cases listed
  have noOpening : ¬(scanner.mark.column = 0 ∧ startsOpening (char :: rest)) := by
    rintro ⟨lineStart, opens⟩
    simp [isDocumentMark, lineStart, opens] at noMark
  have noClosing : ¬(scanner.mark.column = 0 ∧ startsClosing (char :: rest)) := by
    rintro ⟨lineStart, closes⟩
    simp [isDocumentMark, lineStart, closes] at noMark
  have noDash : ¬(char = '-' ∧ startsSpace rest) := by
    rintro ⟨dash, space⟩
    simp [goesOn (.inl dash)] at space
  have noQuestion : ¬(char = '?' ∧ startsSpace rest) := by
    rintro ⟨question, space⟩
    simp [goesOn (.inr (.inl question))] at space
  have noColon : ¬(char = ':' ∧ startsSpace rest) := by
    rintro ⟨colon, space⟩
    simp [goesOn (.inr (.inr colon))] at space
  have starts := startsBare_of_goesOn noIndicator word goesOn
  unfold fetchAt
  simp only [outside, Bool.false_eq_true, false_or, noOpening, noClosing, noDash, noQuestion,
    noColon, differs (by decide : indicators.contains '%'), and_false, if_false]
  split
  all_goals first
    | exact absurd rfl (differs (by decide))
    | skip
  simp only [differs (by decide : indicators.contains '|'),
    differs (by decide : indicators.contains '>'), false_and, if_false, starts, if_true]

end Scanner

/-- A word that can be a key: it looks like nothing else and fits into a line. -/
structure KeyWord (key : List Char) : Prop where
  plain : PlainText key
  words : ∀ char ∈ key, isSpace char = false ∧ char ≠ ':'
  starts : ∃ first ∈ key.head?, indicators.contains first = false ∧
    first ≠ '-' ∧ first ≠ '?' ∧ first ≠ '.'
  short : key.length ≤ KeyStart.limit

private theorem readBare_key (indent : Int) {key : List Char}
    (words : ∀ char ∈ key, isSpace char = false ∧ char ≠ ':') (mark : Mark) (text : List Char) :
    readBare false indent [] mark (key ++ ':' :: ' ' :: text) =
      .ok { content := key, mark := mark.right key.length, rest := ':' :: ' ' :: text,
            lineEnded := false } := by
  induction key generalizing mark with
  | nil =>
      rw [List.nil_append, readBare, if_neg (by decide),
        if_pos (by simp [endsBare, startsSpace, isSpace, isBlank])]
      rfl
  | cons char rest ih =>
      obtain ⟨⟨word, noColon⟩, others⟩ := List.forall_mem_cons.mp words
      rw [List.cons_append, readBare, if_neg (by simp [word]), if_neg (by simp [endsBare, noColon]),
        Mark.after_of_not_isBreak (isBreak_of_not_isSpace word), ih others]
      simp [Except.map, Spelled.behind, joinWords, Mark.right, Nat.add_assoc, Nat.add_comm 1]

namespace Scanner

/-- A word in front of a colon is a token, and may turn out to be a key. -/
theorem fetchBare_key {scanner : Scanner} (alone : scanner.keys = [none])
    (allowed : scanner.keyAllowed) {key text : List Char}
    (words : ∀ char ∈ key, isSpace char = false ∧ char ≠ ':')
    (chars : scanner.chars = key ++ ':' :: ' ' :: text) :
    ∃ required, scanner.fetchBare = .ok { scanner with
      chars := ':' :: ' ' :: text
      mark := scanner.mark.right key.length
      tokens := scanner.tokens ++ [⟨.scalar true (String.ofList key), scanner.mark.line⟩]
      keys := [some ⟨scanner.tokens.length, scanner.mark, required⟩]
      keyAllowed := false } := by
  refine ⟨!scanner.inFlow && scanner.indent = scanner.mark.column, ?_⟩
  simp [fetchBare, saveKey, allowed, dropKey, key?, alone, setKey, inFlow, allowKey, chars,
    readBare_key _ words, pushScalar, push, bind, Except.bind, pure, Except.pure]

/-- A token is put behind those in front. -/
theorem insertIdx_length (front : List Token) (token : Token) (others : List Token) :
    (front ++ others).insertIdx front.length token = front ++ token :: others := by
  induction front with
  | nil => rfl
  | cons first front ih => simp [ih]

/-- A colon shows that what stands before it is a key, and that a table has started there if it
stands further to the right than the table at hand. -/
theorem fetchValue_key {scanner : Scanner} {start : KeyStart} (alone : scanner.keys = [some start])
    {front back : List Token} (tokens : scanner.tokens = front ++ back)
    (position : start.position = front.length) {rest : List Char}
    (chars : scanner.chars = ':' :: rest) :
    scanner.fetchValue = .ok { scanner with
      chars := rest
      mark := scanner.mark.right 1
      tokens := front ++
        (if scanner.indent < start.mark.column then [⟨.tableStart, start.mark.line⟩] else []) ++
        (⟨.key, start.mark.line⟩ :: back) ++ [⟨.value, scanner.mark.line⟩]
      keys := [none]
      indent := max scanner.indent start.mark.column
      indents := if scanner.indent < start.mark.column then scanner.indent :: scanner.indents
        else scanner.indents
      keyAllowed := false } := by
  by_cases deeper : scanner.indent < start.mark.column
  · simp [fetchValue, key?, alone, tokens, position, insertIdx_length, indentTo, inFlow, deeper,
      setKey, allowKey, pushMark, push, skip, chars, pure, Except.pure]
    omega
  · simp [fetchValue, key?, alone, tokens, position, insertIdx_length, indentTo, inFlow, deeper,
      setKey, allowKey, pushMark, push, skip, chars, pure, Except.pure]
    omega

end Scanner

/-! ## Values -/

/-- Whether a text is at its end or goes on with a word that is no comment. -/
def StartsToken (chars : List Char) : Prop :=
  ∀ char ∈ chars.head?, isSpace char = false ∧ char ≠ '#'

/-- What starts a token starts a word. -/
theorem StartsToken.startsWord {chars : List Char} (starts : StartsToken chars) :
    StartsWord chars :=
  fun char head => (starts char head).1

namespace Style

/-- The styles of written texts, with what is known of a text in each of them. -/
inductive Spelling (content : String) (column : Nat) : List Char → Prop
  | block (feed : content.toList.contains '\n') (allowed : allowsBlock content.toList) :
      Spelling content column (block content.toList)
  | double (lineOpen : leavesLineOpen content.toList) :
      Spelling content column (doubleQuoted column content.toList)
  | bare (lineOpen : leavesLineOpen content.toList) (text : isText content)
      (allowed : allowsBare content.toList) :
      Spelling content column (bare column false content.toList)
  | single (lineOpen : leavesLineOpen content.toList) (noFeed : '\n' ∉ content.toList)
      (allowed : allowsSingle content.toList) :
      Spelling content column ('\'' :: single (column + 1) false false content.toList ++ ['\''])

/-- A text is written in one of its spellings. -/
theorem spelling_write (column : Nat) (content : String) :
    Spelling content column (write column content) := by
  unfold write
  by_cases asBlock : content.toList.contains '\n' ∧ allowsBlock content.toList
  · rw [if_pos asBlock]
    exact .block asBlock.1 asBlock.2
  have lineOpen : leavesLineOpen content.toList := by
    simp only [leavesLineOpen]
    cases feed : content.toList.contains '\n' <;> cases allowed : allowsBlock content.toList <;>
      simp_all
  rw [if_neg asBlock]
  by_cases asDouble : content.toList.contains '\n' ∨ ¬isText content ∨
      ¬(allowsBare content.toList ∨ allowsSingle content.toList)
  · rw [if_pos asDouble]
    exact .double lineOpen
  rw [if_neg asDouble]
  rw [not_or, not_or, Decidable.not_not, Decidable.not_not] at asDouble
  obtain ⟨noFeed, text, either⟩ := asDouble
  by_cases asBare : allowsBare content.toList
  · rw [if_pos asBare]
    exact .bare lineOpen text asBare
  · rw [if_neg asBare]
    exact .single lineOpen (by simpa using noFeed) (either.resolve_left asBare)

end Style

namespace Scanner

/-- Nothing is skipped in front of a token. -/
theorem skipBlanks_token (allowed : Bool) (mark : Mark) {next : List Char}
    (starts : StartsToken next) :
    skipBlanks false false false allowed mark next = (allowed, mark, next) := by
  cases next with
  | nil => rfl
  | cons char rest =>
      obtain ⟨word, noComment⟩ := starts char rfl
      have noTab : char ≠ '\t' := by
        rintro rfl
        cases word
      simp [skipBlanks, isBreak_of_not_isSpace word, ne_blank_of_not_isSpace word, noTab, noComment]

private theorem skipBlanks_lineEnd (allowed : Bool) (mark : Mark) {next : List Char}
    (starts : StartsToken next) :
    skipBlanks false false false allowed mark ('\n' :: next) =
      (true, ⟨mark.line + 1, 0⟩, next) := by
  rw [skipBlanks, if_neg (by simp), if_pos (by decide), Bool.not_false, Bool.or_true]
  exact skipBlanks_token true _ starts

/-- Adding a scalar from the place on leads to the start of a line. -/
def Takes (scanner after : Scanner) (bare : Bool) (content : String) (next : List Char) : Prop :=
  ∃ mark chars allowed line,
    after = { scanner with
      mark, chars, keyAllowed := allowed
      tokens := scanner.tokens ++ [⟨.scalar bare content, scanner.mark.line⟩] } ∧
    skipBlanks false false false allowed mark chars = (true, ⟨line, 0⟩, next)

/-- Whether the characters that come next are taken as a scalar, behind which a line starts. -/
def TakesNext (scanner : Scanner) (bare : Bool) (content : String) (next : List Char) : Prop :=
  ∃ char rest after, scanner.chars = char :: rest ∧ scanner.fetchAt char rest = .ok after ∧
    scanner.Takes after bare content next

/-- A place inside the table at hand where a value starts. -/
structure AtValue (scanner : Scanner) : Prop where
  alone : scanner.keys = [none]
  noKey : scanner.keyAllowed = false
  table : scanner.indent = 0
  inside : 0 < scanner.mark.column

/-- A value of a table with lines stands outside of brackets. -/
theorem AtValue.outside {scanner : Scanner} (place : scanner.AtValue) : scanner.inFlow = false := by
  simp [inFlow, place.alone]

/-- A value that is written as a block is fetched as its text. -/
theorem AtValue.fetchBlock_eq {scanner : Scanner} (place : scanner.AtValue) {content : String}
    (feed : content.toList.contains '\n') (allowed : allowsBlock content.toList)
    {next : List Char} (starts : StartsToken next)
    (chars : scanner.chars = block content.toList ++
      ((if leavesLineOpen content.toList then ['\n'] else []) ++ next)) :
    ∃ after, scanner.fetchBlock false = .ok after ∧ scanner.Takes after false content next := by
  obtain ⟨line, reads⟩ :=
    readBlockScalar_block feed allowed (scanner.mark.right 1) starts.startsWord
  refine ⟨_, ?_, ⟨line, 0⟩, next, true, line, rfl, skipBlanks_token true _ starts⟩
  have behind : scanner.chars.drop 1 = (block content.toList).tail ++
      ((if leavesLineOpen content.toList then ['\n'] else []) ++ next) := by
    rw [chars]
    rfl
  simp [fetchBlock, dropKey, key?, place.alone, setKey, allowKey, place.table, behind, reads,
    pushScalar, push, bind, Except.bind, pure, Except.pure]

/-- A value that is written between quotes is fetched as its text. -/
theorem AtValue.fetchQuoted_eq {scanner : Scanner} (place : scanner.AtValue)
    {read : Mark → List Char → Except Fault Spelled} {content : String} {next : List Char}
    (starts : StartsToken next) {mark : Mark}
    (reads : read (scanner.mark.right 1) (scanner.chars.drop 1) =
      .ok ⟨content.toList, mark, '\n' :: next⟩) :
    ∃ after, scanner.fetchQuoted read = .ok after ∧ scanner.Takes after false content next := by
  refine ⟨_, ?_, mark, '\n' :: next, false, _, rfl, skipBlanks_lineEnd false mark starts⟩
  rw [List.drop_one] at reads
  simp [fetchQuoted, saveKey, place.noKey, allowKey, reads, pushScalar, push, bind, Except.bind,
    pure, Except.pure]

/-- A value that is written bare is fetched as its text. -/
theorem AtValue.fetchBare_eq {scanner : Scanner} (place : scanner.AtValue) {content : String}
    {next : List Char} (starts : StartsToken next) {line : Nat}
    (reads : readBare false 1 [] scanner.mark scanner.chars =
      .ok { content := content.toList, mark := ⟨line, 0⟩, rest := next, lineEnded := true }) :
    ∃ after, scanner.fetchBare = .ok after ∧ scanner.Takes after true content next := by
  refine ⟨_, ?_, ⟨line, 0⟩, next, true, line, rfl, skipBlanks_token true _ starts⟩
  simp [fetchBare, saveKey, place.noKey, allowKey, place.table, inFlow, place.alone, reads,
    pushScalar, push, bind, Except.bind, pure, Except.pure]

end Scanner

namespace Style

/-- A text that is written bare starts with a character that starts nothing else. -/
theorem exists_first_of_bare {content : String} (text : isText content)
    (allowed : allowsBare content.toList) :
    ∃ first rest, content.toList = first :: rest ∧ first ≠ ' ' ∧
      indicators.contains first = false ∧
      (first = '-' ∨ first = '?' → startsBlank rest = false) := by
  simp only [allowsBare, hasOuterBlank, hasIndicator, Bool.and_eq_true, Bool.not_eq_true',
    Bool.or_eq_false_iff, decide_eq_false_iff_not] at allowed
  obtain ⟨⟨-, opening, -⟩, ⟨⟨⟨noIndicator, -⟩, -⟩, -⟩, -⟩ := allowed
  cases split : content.toList with
  | nil =>
      obtain rfl : content = "" := String.toList_injective split
      exact absurd text (by decide)
  | cons first rest =>
      rw [split] at opening noIndicator
      simp only [startsIndicator, Bool.or_eq_false_iff] at noIndicator
      obtain ⟨unlisted, noSign⟩ := noIndicator
      refine ⟨first, rest, rfl, fun blank => opening (congrArg some blank), unlisted, ?_⟩
      rintro (rfl | rfl) <;> simpa using noSign

/-- A written text starts with a token. -/
theorem startsToken_write (column : Nat) (content : String) (next : List Char) :
    StartsToken (write column content ++ next) := by
  have written := spelling_write column content
  generalize write column content = text at written
  cases written with
  | block feed allowed => rintro _ ⟨⟩; decide
  | double lineOpen => rintro _ ⟨⟩; decide
  | single lineOpen noFeed allowed => rintro _ ⟨⟩; decide
  | bare lineOpen text allowed =>
      have bare := bareRest_of_allowsBare allowed
      obtain ⟨first, rest, split, notBlank, unlisted, -⟩ := exists_first_of_bare text allowed
      rw [split] at bare ⊢
      rw [Style.bare, if_neg notBlank]
      rintro _ ⟨⟩
      refine ⟨bare.not_isSpace notBlank, ?_⟩
      rintro rfl
      cases unlisted

end Style

namespace Scanner

/-- A block is one token, and reading it gives the text. -/
theorem AtValue.takesNext_block {scanner : Scanner} (place : scanner.AtValue) {content : String}
    (feed : content.toList.contains '\n') (allowed : allowsBlock content.toList)
    {next : List Char} (starts : StartsToken next)
    (chars : scanner.chars = block content.toList ++
      ((if leavesLineOpen content.toList then ['\n'] else []) ++ next)) :
    scanner.TakesNext false content next := by
  obtain ⟨after, fetched, takes⟩ := place.fetchBlock_eq feed allowed starts chars
  refine ⟨'|', _, after, chars, ?_, takes⟩
  rw [← fetched]
  simp [fetchAt, Nat.pos_iff_ne_zero.mp place.inside, place.outside]

/-- So is a text in double quotes. -/
theorem AtValue.takesNext_double {scanner : Scanner} (place : scanner.AtValue) {content : String}
    {column : Nat} {next : List Char} (starts : StartsToken next)
    (chars : scanner.chars = doubleQuoted column content.toList ++ '\n' :: next) :
    scanner.TakesNext false content next := by
  obtain ⟨behind, reads⟩ := readDouble_doubleQuoted content.toList column (scanner.mark.right 1)
    (Nat.succ_pos _) ('\n' :: next)
  have rest : scanner.chars.drop 1 =
      (doubleQuoted column content.toList).tail ++ '\n' :: next := by
    rw [chars]
    rfl
  rw [← rest] at reads
  obtain ⟨after, fetched, takes⟩ := place.fetchQuoted_eq starts reads
  refine ⟨'"', _, after, chars, ?_, takes⟩
  rw [← fetched]
  simp [fetchAt, Nat.pos_iff_ne_zero.mp place.inside, place.outside]

/-- So is a text in single quotes. -/
theorem AtValue.takesNext_single {scanner : Scanner} (place : scanner.AtValue) {content : String}
    (noFeed : '\n' ∉ content.toList) (allowed : allowsSingle content.toList) {column : Nat}
    {next : List Char} (starts : StartsToken next)
    (chars : scanner.chars =
      '\'' :: single column false false content.toList ++ '\'' :: '\n' :: next) :
    scanner.TakesNext false content next := by
  have later : 0 < (scanner.mark.right 1).column := Nat.succ_pos _
  obtain ⟨behind, reads⟩ := readSingle_single (singleRest_of_allowsSingle allowed noFeed) column
    later (by simp : ('\n' :: next).head? ≠ some '\'')
  have rest : scanner.chars.drop 1 =
      single column false false content.toList ++ '\'' :: '\n' :: next := by
    rw [chars]
    rfl
  rw [← rest] at reads
  obtain ⟨after, fetched, takes⟩ := place.fetchQuoted_eq starts reads
  refine ⟨'\'', _, after, chars, ?_, takes⟩
  rw [← fetched]
  simp [fetchAt, Nat.pos_iff_ne_zero.mp place.inside, place.outside]

/-- So is a bare text, whose first character starts nothing else. -/
theorem AtValue.takesNext_bare {scanner : Scanner} (place : scanner.AtValue) {content : String}
    (text : isText content) (allowed : allowsBare content.toList) {column : Nat}
    {next : List Char} (starts : StartsToken next)
    (chars : scanner.chars = bare column false content.toList ++ '\n' :: next) :
    scanner.TakesNext true content next := by
  have bare := bareRest_of_allowsBare allowed
  obtain ⟨line, reads⟩ := readBare_bare bare column place.inside starts.startsWord
  rw [← chars] at reads
  obtain ⟨after, fetched, takes⟩ := place.fetchBare_eq starts reads
  obtain ⟨first, rest, split, notBlank, unlisted, signed⟩ := exists_first_of_bare text allowed
  rw [split] at bare chars
  rw [Style.bare, if_neg notBlank, List.cons_append] at chars
  refine ⟨first, _, after, chars, ?_, takes⟩
  rw [← fetched]
  refine fetchAt_word place.outside unlisted (bare.not_isSpace notBlank) (fun special => ?_)
    (isDocumentMark_of_inside place.inside _)
  refine startsSpace_bare bare.tail ?_ _ _ _
  obtain dash | question | rfl := special
  · exact signed (.inl dash)
  · exact signed (.inr question)
  · exact bare.startsBlank_behind_colon

/-- **A written text is one token**, in whatever style it is written. -/
theorem AtValue.takesNext_write {scanner : Scanner} (place : scanner.AtValue) (content : String)
    (column : Nat) {next : List Char} (starts : StartsToken next)
    (chars : scanner.chars = write column content ++
      ((if leavesLineOpen content.toList then ['\n'] else []) ++ next)) :
    ∃ bare, scanner.TakesNext bare content next ∧ (bare → isText content) := by
  have written := spelling_write column content
  generalize write column content = text at written chars
  cases written with
  | block feed allowed => exact ⟨false, place.takesNext_block feed allowed starts chars, by simp⟩
  | double lineOpen =>
      rw [if_pos lineOpen] at chars
      exact ⟨false, place.takesNext_double starts chars, by simp⟩
  | bare lineOpen text allowed =>
      rw [if_pos lineOpen] at chars
      exact ⟨true, place.takesNext_bare text allowed starts chars, fun _ => text⟩
  | single lineOpen noFeed allowed =>
      rw [if_pos lineOpen, List.append_assoc] at chars
      exact ⟨false, place.takesNext_single noFeed allowed starts chars, by simp⟩

end Scanner

end Yaml

end Scriptlet
