import Scriptlet.Proofs.Code.Quoting

/-!
# Lines of code

Code that is generated is put together from names, keywords, signs and quoted texts, with blanks
and line breaks between them. If none of them runs into the next one, the code is scanned to what
it was put together from.
-/

namespace Scriptlet

namespace Code

/-- A part of a line of code. -/
inductive Chunk where
  | name (spelling : String)
  | keyword (spelling : String)
  | sign (char : Char)
  /-- The sign that gives a value a new name. -/
  | define
  /-- A text that is written between quotes. -/
  | quoted (content : String)
  | blank
  | tab
  | newline
deriving DecidableEq, Repr

namespace Chunk

def chars : Chunk → List Char
  | .name spelling | .keyword spelling => spelling.toList
  | .sign char => [char]
  | .define => [':', '=']
  | .quoted content => (Quoted.text content).toList
  | .blank => [' ']
  | .tab => ['\t']
  | .newline => ['\n']

/-- The symbols of some parts. The last symbol in front of them can end something or cannot. -/
def symbols (ends : Bool) : List Chunk → List Symbol
  | [] => []
  | .name spelling :: rest => .name spelling :: symbols true rest
  | .keyword spelling :: rest =>
    .keyword spelling :: symbols (Symbol.keyword spelling).canEnd rest
  | .sign char :: rest =>
    .sign (String.singleton char) :: symbols (Symbol.sign (String.singleton char)).canEnd rest
  | .define :: rest => .sign ":=" :: symbols false rest
  | .quoted content :: rest => .text (Quoted.text content) :: symbols true rest
  | .blank :: rest | .tab :: rest => symbols ends rest
  | .newline :: rest => if ends then .lineEnd :: symbols false rest else symbols false rest

/-- Whether a name or a keyword ends in front of a part. -/
def endsWord : Chunk → Bool
  | .name _ | .keyword _ => false
  | .sign next => !continuesName next
  | _ => true

/-- Whether a sign ends in front of a part. -/
def endsSign (char : Char) : Chunk → Bool
  | .sign next => !joinsSign char next
  | .define => !joinsSign char ':'
  | .quoted _ => !joinsSign char '"'
  | .blank => !joinsSign char ' '
  | .tab => !joinsSign char '\t'
  | .newline => !joinsSign char '\n'
  | .name _ => true
  | .keyword _ => true

/-- Whether parts do not run into each other. Keywords and signs have to be some. -/
def areApart : List Chunk → Bool
  | [] => true
  | .name _ :: rest => rest.head?.any endsWord && areApart rest
  | .keyword spelling :: rest =>
    Symbol.keywords.contains spelling && rest.head?.any endsWord && areApart rest
  | .sign char :: rest => opensSign char && rest.head?.any (endsSign char) && areApart rest
  | .define :: rest => rest.head? = some .blank && areApart rest
  | .quoted _ :: rest | .blank :: rest | .tab :: rest | .newline :: rest => areApart rest

/-- The names among some parts. -/
def names : List Chunk → List String
  | [] => []
  | .name spelling :: rest => spelling :: names rest
  | _ :: rest => names rest

/-- Keywords are words. -/
theorem isWord_of_keyword {text : String} (known : Symbol.keywords.contains text = true) :
    isWord text.toList = true := by
  have checked : Symbol.keywords.all (fun keyword => isWord keyword.toList) = true := by
    decide +kernel
  exact List.all_eq_true.mp checked text (List.contains_iff_mem.mp known)

/-- A test that the first part passes tells that there is one. -/
theorem exists_of_head?_any {rest : List Chunk} {test : Chunk → Bool}
    (passes : rest.head?.any test = true) : ∃ next others, rest = next :: others ∧ test next = true := by
  cases rest with
  | nil => cases passes
  | cons next others => exact ⟨next, others, rfl, passes⟩

/-- What ends a word starts with a character that does not go on with it. -/
theorem exists_of_endsWord {chunk : Chunk} (stops : chunk.endsWord = true) :
    ∃ char others, chunk.chars = char :: others ∧ continuesName char = false := by
  cases chunk with
  | name spelling => cases stops
  | keyword spelling => cases stops
  | sign char => exact ⟨char, [], rfl, by simpa [endsWord] using stops⟩
  | define => exact ⟨':', _, rfl, by decide +kernel⟩
  | quoted content => exact ⟨'"', _, String.toList_ofList, by decide +kernel⟩
  | blank => exact ⟨' ', _, rfl, by decide +kernel⟩
  | tab => exact ⟨'\t', _, rfl, by decide +kernel⟩
  | newline => exact ⟨'\n', _, rfl, by decide +kernel⟩

/-- A word starts with a character that joins no sign. -/
theorem exists_of_isWord {word : List Char} (valid : isWord word = true) (sign : Char) :
    ∃ char others, word = char :: others ∧ joinsSign sign char = false := by
  cases word with
  | nil => cases valid
  | cons char others =>
    simp only [isWord, Bool.and_eq_true] at valid
    exact ⟨char, others, rfl, not_joinsSign_of_startsName valid.1⟩

private theorem exists_of_endsSign {chunk : Chunk} {rest : List Chunk} {sign : Char}
    (stops : chunk.endsSign sign = true) (apart : areApart (chunk :: rest) = true)
    (named : (names (chunk :: rest)).all isName = true) :
    ∃ char others, chunk.chars = char :: others ∧ joinsSign sign char = false := by
  cases chunk with
  | name spelling =>
    simp only [names, List.all_cons, Bool.and_eq_true] at named
    exact exists_of_isWord (isWord_of_isName named.1) sign
  | keyword spelling =>
    simp only [areApart, Bool.and_eq_true] at apart
    exact exists_of_isWord (isWord_of_keyword apart.1.1) sign
  | sign char => exact ⟨char, [], rfl, by simpa [endsSign] using stops⟩
  | define => exact ⟨':', _, rfl, by simpa [endsSign] using stops⟩
  | quoted content => exact ⟨'"', _, String.toList_ofList, by simpa [endsSign] using stops⟩
  | blank => exact ⟨' ', _, rfl, by simpa [endsSign] using stops⟩
  | tab => exact ⟨'\t', _, rfl, by simpa [endsSign] using stops⟩
  | newline => exact ⟨'\n', _, rfl, by simpa [endsSign] using stops⟩

/-- Parts that do not run into each other are scanned to their symbols. -/
theorem spells {chunks : List Chunk} (apart : areApart chunks = true)
    (named : (names chunks).all isName = true) (ends inLine : Bool) :
    Spells ends inLine (chunks.flatMap chars) (symbols ends chunks) := by
  induction chunks generalizing ends inLine with
  | nil => exact .nil
  | cons chunk rest ih =>
    rw [List.flatMap_cons]
    cases chunk with
    | name spelling =>
      simp only [areApart, names, List.all_cons, Bool.and_eq_true] at apart named
      obtain ⟨next, others, rfl, stops⟩ := exists_of_head?_any apart.1
      obtain ⟨char, more, same, stops⟩ := exists_of_endsWord stops
      have inner := ih apart.2 named.2 true true
      rw [List.flatMap_cons, same, List.cons_append] at inner ⊢
      exact .name named.1 stops inner
    | keyword spelling =>
      simp only [areApart, Bool.and_eq_true] at apart
      obtain ⟨next, others, rfl, stops⟩ := exists_of_head?_any apart.1.2
      obtain ⟨char, more, same, stops⟩ := exists_of_endsWord stops
      have inner := ih apart.2 named (Symbol.keyword spelling).canEnd true
      have word : Symbol.ofWord (String.ofList spelling.toList) = .keyword spelling := by
        rw [String.ofList_toList, Symbol.ofWord, if_pos apart.1.1]
      rw [← word] at inner
      rw [List.flatMap_cons, same, List.cons_append] at inner ⊢
      have outer : Spells ends inLine _ _ := .word (isWord_of_keyword apart.1.1) stops inner
      rwa [word] at outer
    | sign char =>
      simp only [areApart, Bool.and_eq_true] at apart
      obtain ⟨next, others, rfl, stops⟩ := exists_of_head?_any apart.1.2
      obtain ⟨first, more, same, stops⟩ := exists_of_endsSign stops apart.2 named
      have inner := ih apart.2 named (Symbol.sign (String.singleton char)).canEnd true
      rw [List.flatMap_cons, same, List.cons_append] at inner ⊢
      exact .sign apart.1.1 stops inner
    | define =>
      simp only [areApart, Bool.and_eq_true, decide_eq_true_eq] at apart
      obtain ⟨others, rfl⟩ := List.head?_eq_some_iff.mp apart.1
      exact .define (ih apart.2 named false true)
    | quoted content => exact .text content (ih apart named true true)
    | blank => exact .blank (.inl rfl) (ih apart named ends true)
    | tab => exact .blank (.inr rfl) (ih apart named ends true)
    | newline =>
      cases ends with
      | true => exact .lineEnd (ih apart named false false)
      | false => exact .newline (ih apart named false false)

end Chunk

/-- Whether a character can stand in a comment on a line. -/
def canRemark (char : Char) : Bool :=
  !Lexemes.excluded.contains char && char ≠ '\n'

/-- A word can stand in a comment. -/
theorem all_canRemark_of_isWord {word : List Char} (valid : isWord word = true) :
    word.all canRemark = true := by
  refine List.all_eq_true.mpr fun char member => ?_
  have continues := List.all_eq_true.mp (all_continuesName_of_isWord valid) char member
  simp only [canRemark, Bool.and_eq_true, Bool.not_eq_true', decide_eq_true_eq]
  exact ⟨not_excluded_of_continuesName continues, ne_newline_of_continuesName continues⟩

/-- Lines of code that are scanned to some symbols. Nothing is left open at their end. -/
structure SpellsLines (chars : List Char) (symbols : List Symbol) : Prop where
  spells : Spells false false chars symbols
  closed : (symbols.getLast?.map Symbol.canEnd).getD false = false

namespace SpellsLines

variable {chars : List Char} {symbols : List Symbol}

/-- No lines spell nothing. -/
theorem nil : SpellsLines [] [] :=
  ⟨.nil, rfl⟩

/-- Lines below others spell their symbols behind those of the others. -/
protected theorem append {more : List Char} {others : List Symbol}
    (first : SpellsLines chars symbols) (rest : SpellsLines more others) :
    SpellsLines (chars ++ more) (symbols ++ others) where
  spells := first.spells.append (by rw [first.closed]; exact rest.spells)
  closed := by
    rw [List.getLast?_append]
    cases last : others.getLast? with
    | none => exact first.closed
    | some symbol => simpa [last] using rest.closed

/-- Lines for each of some items spell what the items spell. -/
protected theorem flatMap {α : Type} {items : List α} {lines : α → List Char}
    {found : α → List Symbol} (each : ∀ item ∈ items, SpellsLines (lines item) (found item)) :
    SpellsLines (items.flatMap lines) (items.flatMap found) := by
  induction items with
  | nil => exact .nil
  | cons item items ih =>
    rw [List.forall_mem_cons] at each
    rw [List.flatMap_cons, List.flatMap_cons]
    exact each.1.append (ih each.2)

/-- A line that is a comment. -/
protected theorem comment {line : String} (text : List Char)
    (same : line.toList = '/' :: '/' :: ' ' :: text) (plain : text.all canRemark = true) :
    SpellsLines (line.toList ++ ['\n']) [] := by
  have chars (char : Char) (member : char ∈ text) := List.all_eq_true.mp plain char member
  simp only [canRemark, Bool.and_eq_true, Bool.not_eq_true', decide_eq_true_eq] at chars
  have allowed : text.any Lexemes.excluded.contains = false :=
    List.any_eq_false.mpr fun char member => by rw [(chars char member).1]; exact nofun
  rw [same]
  exact ⟨.comment allowed (fun member => (chars _ member).2 rfl) .nil, rfl⟩

/-- Lines that are put together from parts which do not run into each other spell the symbols of the
parts. -/
theorem of_chunks (chunks : List Chunk) (apart : Chunk.areApart chunks = true)
    (named : (Chunk.names chunks).all isName = true)
    (same : chunks.flatMap Chunk.chars = chars)
    (closed : ((Chunk.symbols false chunks).getLast?.map Symbol.canEnd).getD false = false) :
    SpellsLines chars (Chunk.symbols false chunks) :=
  ⟨same ▸ Chunk.spells apart named false false, closed⟩

end SpellsLines

end Code

end Scriptlet
