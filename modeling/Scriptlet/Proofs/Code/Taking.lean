import Scriptlet.Proofs.Code.Statements

/-!
# Taking symbols

A reader takes some symbols in front of others and gives a value, wherever the symbols stand.
What one run does, any other run on the same symbols does too, so code that is put together
from parts can be read part by part.
-/

namespace Scriptlet

namespace Code

namespace GoReader

/-- A reader takes some symbols in front of others. Its value is compared by what can be seen
of it. -/
def Takes {α γ : Type} (isHeader : Bool) (view : α → γ) (reader : GoReader α)
    (symbols tail : List Symbol) (value : γ) : Prop :=
  ∀ rest : Rest, rest.symbols = symbols ++ tail → rest.isHeader = isHeader →
    ∃ found after, reader rest = some (found, after) ∧ view found = value ∧
      after.symbols = tail ∧ after.isHeader = isHeader

/-- Symbols that have not been read, without places. -/
def ahead (isHeader : Bool) (symbols : List Symbol) : Rest where
  lexemes := symbols.map fun symbol => ⟨symbol, {}, []⟩
  isHeader

@[simp]
theorem symbols_ahead (isHeader : Bool) (symbols : List Symbol) :
    (ahead isHeader symbols).symbols = symbols := by
  simp [ahead, Rest.symbols, Function.comp_def]

/-- What can follow symbols that were read in front of some others: the others, and more behind
them unless they end with a name. -/
def Stops (next tail : List Symbol) : Prop :=
  tail = [] ∨ ∃ front stop, next = front ++ [stop] ∧ ∀ spelling, stop ≠ .name spelling

namespace Takes

variable {α β γ δ : Type} {isHeader : Bool} {view : α → γ} {seen : β → δ}
  {reader : GoReader α} {symbols tail : List Symbol} {value : γ}

/-- One run tells what happens in all runs. -/
theorem of_run {first : GoReader α} {next : List Symbol} {rest after : Rest} {found : α}
    (follows : Follows tail view first reader) (read : first rest = some (found, after))
    (starts : rest.symbols = symbols ++ next) (left : after.symbols = next)
    (header : rest.isHeader = isHeader) (guards : rest.guards = false) (stops : Stops next tail) :
    Takes isHeader view reader symbols (next ++ tail) (view found) := by
  intro other otherStarts otherHeader
  have extended : Extends tail other.guards rest other := by
    refine ⟨by rw [otherStarts, starts, List.append_assoc], ?_, by rw [otherHeader, header], by
      rw [guards, Bool.false_or]⟩
    refine stops.imp_right fun ⟨front, stop, ends, notName⟩ => ?_
    exact ⟨symbols ++ front, stop, by rw [starts, ends, List.append_assoc], notName⟩
  have bounded : tail = [] ∨ after.lexemes ≠ [] := by
    refine stops.imp_right fun ⟨front, stop, ends, _⟩ empty => ?_
    rw [Rest.symbols, empty, ends] at left
    simp at left
  obtain ⟨found', after', read', alike, extended⟩ := follows.follows read bounded extended
  refine ⟨found', after', read', alike.symm, by rw [extended.symbols, left], ?_⟩
  rw [extended.isHeader, follows.header read, header]

/-- What is found without places is found everywhere. -/
theorem of_ahead {first : GoReader α} {next : List Symbol}
    (follows : Follows tail view first reader)
    (read : (first (ahead isHeader (symbols ++ next))).map
      (fun result => (view result.1, result.2.symbols)) = some (value, next))
    (stops : Stops next tail) : Takes isHeader view reader symbols (next ++ tail) value := by
  obtain ⟨⟨found, after⟩, run, same⟩ := Option.map_eq_some_iff.mp read
  obtain ⟨rfl, left⟩ := Prod.mk.inj same
  exact of_run follows run (symbols_ahead _ _) left rfl rfl stops

/-- What is found in front of a symbol that is no name is found wherever the symbol stands there. -/
theorem of_next {first : GoReader α} {next : Symbol} (follows : Follows tail view first reader)
    (read : (first (ahead isHeader (symbols ++ [next]))).map
      (fun result => (view result.1, result.2.symbols)) = some (value, [next]))
    (other : ∀ spelling, next ≠ .name spelling) :
    Takes isHeader view reader symbols (next :: tail) value :=
  of_ahead follows read (.inr ⟨[], next, rfl, other⟩)

/-- A value that is given takes nothing. -/
protected theorem pure {found : α} (same : view found = value) :
    Takes isHeader view (Pure.pure found) [] tail value :=
  fun rest starts header => ⟨found, rest, rfl, same, starts, header⟩

/-- Readers one after the other take their symbols one after the other. -/
protected theorem bind {next : α → GoReader β} {more : List Symbol} {final : δ}
    (starts : Takes isHeader view reader symbols (more ++ tail) value)
    (goes : ∀ found, view found = value → Takes isHeader seen (next found) more tail final) :
    Takes isHeader seen (reader >>= next) (symbols ++ more) tail final := by
  intro rest given header
  rw [List.append_assoc] at given
  obtain ⟨found, between, read, same, left, header⟩ := starts rest given header
  obtain ⟨found', after, read', same', left', header'⟩ := goes found same between left header
  exact ⟨found', after, bind_eq_some.mpr ⟨found, between, read, read'⟩, same', left', header'⟩

/-- A reader that takes one symbol in front of the rest. -/
theorem bind_cons {symbol : Symbol} {next : α → GoReader β} {more : List Symbol} {final : δ}
    (starts : Takes isHeader view reader [symbol] (more ++ tail) value)
    (goes : ∀ found, view found = value → Takes isHeader seen (next found) more tail final) :
    Takes isHeader seen (reader >>= next) (symbol :: more) tail final :=
  starts.bind goes

/-- A reader that takes nothing. -/
theorem bind_nil {next : α → GoReader β} {final : δ}
    (starts : Takes isHeader view reader [] (symbols ++ tail) value)
    (goes : ∀ found, view found = value → Takes isHeader seen (next found) symbols tail final) :
    Takes isHeader seen (reader >>= next) symbols tail final :=
  starts.bind goes

/-- A reader behind which nothing is taken. -/
theorem bind_last {next : α → GoReader β} {final : δ}
    (starts : Takes isHeader view reader symbols tail value)
    (goes : ∀ found, view found = value → Takes isHeader seen (next found) [] tail final) :
    Takes isHeader seen (reader >>= next) symbols tail final := by
  rw [← List.append_nil symbols]
  exact starts.bind goes

/-- A value that is made from what a reader gives. -/
protected theorem map {function : α → β} {final : δ}
    (starts : Takes isHeader view reader symbols tail value)
    (same : ∀ found, view found = value → seen (function found) = final) :
    Takes isHeader seen (do Pure.pure (function (← reader))) symbols tail final :=
  starts.bind_last fun found alike => .pure (same found alike)

/-- A look at what is left takes nothing. -/
theorem of_look {look : Rest → α}
    (same : ∀ rest : Rest, rest.symbols = tail → view (look rest) = value) :
    Takes isHeader view (fun rest => some (look rest, rest)) [] tail value :=
  fun rest starts header => ⟨look rest, rest, rfl, same rest starts, starts, header⟩

/-- A look at the next symbol takes nothing. -/
protected theorem peek : Takes isHeader id peek [] tail tail.head? :=
  of_look fun rest starts => by simp [← starts, Rest.symbols]

/-- The place of the next symbol is no matter of symbols. -/
protected theorem nextPlace : Takes isHeader (fun _ => ()) nextPlace [] tail () :=
  of_look fun _ _ => rfl

/-- The place behind the last symbol is no matter of symbols. -/
protected theorem lastPlace : Takes isHeader (fun _ => ()) lastPlace [] tail () :=
  of_look fun _ _ => rfl

/-- The line of the last symbol is no matter of symbols. -/
protected theorem lastLine : Takes isHeader (fun _ => ()) lastLine [] tail () :=
  of_look fun _ _ => rfl

/-- A symbol that passes a test is taken. -/
protected theorem take {symbol : Symbol} {test : Symbol → Option α} {found : α}
    (passes : test symbol = some found) : Takes isHeader id (take test) [symbol] tail found := by
  intro rest starts header
  obtain ⟨lexeme, lexemes, given, same, left⟩ := List.map_eq_cons_iff.mp starts
  refine ⟨found, { rest with
    lexemes, place := lexeme.place, lastLine := lexeme.finish.line }, ?_, rfl, left, header⟩
  simp [take, given, same, passes]

/-- A given symbol is taken. -/
protected theorem exactly (symbol : Symbol) :
    Takes isHeader id (exactly symbol) [symbol] tail () :=
  .take (if_pos rfl)

/-- A given sign is taken. -/
protected theorem sign (spelling : String) :
    Takes isHeader id (sign spelling) [.sign spelling] tail () :=
  .exactly _

/-- A given keyword is taken. -/
protected theorem keyword (spelling : String) :
    Takes isHeader id (keyword spelling) [.keyword spelling] tail () :=
  .exactly _

/-- A symbol that may be absent is taken if it comes next. -/
protected theorem optional (symbol : Symbol) :
    Takes isHeader id (optional symbol) [symbol] tail true :=
  bind_nil .peek fun next same => by
    obtain rfl : next = some symbol := same
    rw [if_pos rfl]
    exact bind_cons (.exactly symbol) fun _ _ => .pure rfl

/-- Nothing is taken if a symbol that may be absent does not come next. -/
theorem optional_absent {symbol : Symbol} (absent : tail.head? ≠ some symbol) :
    Takes isHeader id (optional symbol) [] tail false :=
  bind_nil .peek fun next same => by
    obtain rfl : next = tail.head? := same
    rw [if_neg absent]
    exact .pure rfl

/-- A name is taken. -/
protected theorem label (spelling : String) :
    Takes isHeader Label.erase label [.name spelling] tail ⟨{}, spelling⟩ :=
  bind_cons (.take rfl) fun found same => bind_nil .lastPlace fun _ _ => .pure (by
    obtain rfl : found = spelling := same
    rfl)

/-- The end of a line is taken where something can end. -/
protected theorem finish : Takes isHeader (fun _ => ()) finish [.lineEnd] tail () := by
  intro rest starts header
  obtain ⟨⟨_, place, comments⟩, lexemes, given, rfl, left⟩ := List.map_eq_cons_iff.mp starts
  exact ⟨comments.head?.any fun comment => comment.place.line = rest.place.line,
    { rest with lexemes }, by rw [finish, given], rfl, left, header⟩

/-- A reader in a header or outside of one takes what it takes. -/
protected theorem within {inside : Bool} (inner : Takes inside view reader symbols tail value) :
    Takes isHeader view (within inside reader) symbols tail value := by
  intro rest starts header
  obtain ⟨found, after, read, same, left, -⟩ := inner { rest with isHeader := inside } starts rfl
  refine ⟨found, { after with isHeader := rest.isHeader }, ?_, same, left, header⟩
  rw [Follows.within_apply, read]
  rfl

/-- Nothing is taken where no item can start. -/
theorem many_nil {starts : Symbol → Bool} (ends : tail.head?.any starts = false) (limit : Nat) :
    Takes isHeader (List.map view) (many starts reader limit) [] tail [] := by
  cases limit <;>
  · refine bind_nil .peek fun next same => ?_
    obtain rfl : next = tail.head? := same
    rw [if_neg (by simp [ends])]
    exact .pure rfl

/-- An item is taken, and then the others. -/
theorem many_cons {starts : Symbol → Bool} {symbol : Symbol} {more : List Symbol} {limit : Nat}
    {values : List γ} (begins : starts symbol = true)
    (first : Takes isHeader view reader (symbol :: symbols) (more ++ tail) value)
    (others : Takes isHeader (List.map view) (many starts reader limit) more tail values) :
    Takes isHeader (List.map view) (many starts reader (limit + 1)) (symbol :: symbols ++ more) tail
      (value :: values) := by
  refine bind_nil .peek fun next same => ?_
  obtain rfl : next = some symbol := same
  rw [if_pos (by simpa using begins)]
  exact first.bind fun found same => others.map fun founds same' => by simp [same, same']

end Takes

end GoReader

end Code

end Scriptlet
