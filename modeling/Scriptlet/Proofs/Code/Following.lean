import Scriptlet.Proofs.Code.Erasure

/-!
# Readers that follow each other

A reader that is given more code, code at other places or a larger limit should do what it did
before. One reader follows another if it does what the other does whenever the other succeeds:
it takes the same symbols and gives a value that looks the same. This is closed under all the ways
in which readers are put together, so it holds of the whole grammar if it holds of its rules.
-/

namespace Scriptlet

namespace Code

/-- The symbols that have not been read. -/
def Rest.symbols (rest : Rest) : List Symbol :=
  rest.lexemes.map (·.symbol)

namespace GoReader

/-- The same symbols at other places, with more symbols behind them. If there are more, then the
last own one is no name: the grammar looks behind names only. A value whose braces would be
taken for those of a block may have been noted before. -/
structure Extends (tail : List Symbol) (noted : Bool) (rest other : Rest) : Prop where
  symbols : other.symbols = rest.symbols ++ tail
  stops : tail = [] ∨
    ∃ front stop, rest.symbols = front ++ [stop] ∧ ∀ spelling, stop ≠ .name spelling
  isHeader : other.isHeader = rest.isHeader
  guards : other.guards = (rest.guards || noted)

/-- One reader does what another does, with more symbols behind. Values are compared by what
can be seen of them. -/
structure Follows {α γ : Type} (tail : List Symbol) (view : α → γ) (first second : GoReader α) :
    Prop where
  header {rest value after} : first rest = some (value, after) → after.isHeader = rest.isHeader
  /-- Nothing comes back. -/
  spent {rest value after} : first rest = some (value, after) → rest.lexemes = [] →
    after.lexemes = []
  follows {rest value after other noted} : first rest = some (value, after) →
    (tail = [] ∨ after.lexemes ≠ []) → Extends tail noted rest other →
    ∃ value' after', second other = some (value', after') ∧ view value = view value' ∧
      Extends tail noted after after'

variable {α β γ δ ε ζ : Type} {tail : List Symbol}

/-- Two readers one after the other, on what is left of the code. -/
theorem bind_apply (reader : GoReader α) (next : α → GoReader β) (rest : Rest) :
    (reader >>= next) rest = (reader rest).bind fun result => next result.1 result.2 :=
  rfl

/-- What two readers give, one after the other, comes from what each of them gives. -/
theorem bind_eq_some {reader : GoReader α} {next : α → GoReader β} {rest after : Rest} {value : β} :
    (reader >>= next) rest = some (value, after) ↔
      ∃ middle between, reader rest = some (middle, between) ∧
        next middle between = some (value, after) := by
  rw [bind_apply, Option.bind_eq_some_iff]
  exact ⟨fun ⟨⟨middle, between⟩, read, goes⟩ => ⟨middle, between, read, goes⟩,
    fun ⟨middle, between, read, goes⟩ => ⟨(middle, between), read, goes⟩⟩

/-- What stands behind a name, if a name and something else are seen. -/
def behindName? : List Symbol → Option (String × Symbol)
  | [.name spelling, symbol] => some (spelling, symbol)
  | _ => none

/-- A symbol stands behind a name only if there are exactly these two. -/
theorem eq_of_behindName? {symbols : List Symbol} {spelling : String} {symbol : Symbol}
    (named : behindName? symbols = some (spelling, symbol)) :
    symbols = [.name spelling, symbol] := by
  unfold behindName? at named
  split at named
  · cases named
    rfl
  · cases named

namespace Extends

variable {noted : Bool} {rest other : Rest}

/-- The next symbol is the same, unless it is the tail that comes next. -/
theorem head? (extended : Extends tail noted rest other) (bounded : tail = [] ∨ rest.lexemes ≠ []) :
    other.symbols.head? = rest.symbols.head? := by
  rw [extended.symbols]
  obtain rfl | filled := bounded
  · rw [List.append_nil]
  · cases symbols : rest.symbols with
    | nil => exact absurd (List.map_eq_nil_iff.mp symbols) filled
    | cons symbol symbols => rfl

private theorem behindName?_take (extended : Extends tail noted rest other) :
    behindName? (other.symbols.take 2) = behindName? (rest.symbols.take 2) := by
  rw [extended.symbols]
  obtain rfl | ⟨front, stop, symbols, notName⟩ := extended.stops
  · rw [List.append_nil]
  · rw [symbols]
    match front with
    | [] =>
      cases stop with
      | name spelling => exact absurd rfl (notName spelling)
      | _ => cases tail <;> rfl
    | [_] => rfl
    | _ :: _ :: _ => rfl

/-- What starts with a symbol starts with this symbol if more code follows, too. -/
theorem starts {lexeme : Lexeme} {lexemes : List Lexeme} (extended : Extends tail noted rest other)
    (starts : rest.lexemes = lexeme :: lexemes) :
    ∃ lexeme' lexemes', other.lexemes = lexeme' :: lexemes' ∧ lexeme'.symbol = lexeme.symbol := by
  have symbols := extended.symbols
  simp only [Rest.symbols, starts, List.map_cons, List.cons_append, List.map_eq_cons_iff] at symbols
  obtain ⟨lexeme', lexemes', otherStarts, same, -⟩ := symbols
  exact ⟨lexeme', lexemes', otherStarts, same⟩

/-- A symbol is taken, but not the last one if there are more behind. -/
theorem cons {lexeme : Lexeme} {lexemes : List Lexeme} (extended : Extends tail noted rest other)
    (starts : rest.lexemes = lexeme :: lexemes) (bounded : tail = [] ∨ lexemes ≠ []) :
    ∃ lexeme' lexemes', other.lexemes = lexeme' :: lexemes' ∧ lexeme'.symbol = lexeme.symbol ∧
      lexemes'.map (·.symbol) = lexemes.map (·.symbol) ++ tail ∧
      (tail = [] ∨ ∃ front stop, lexemes.map (·.symbol) = front ++ [stop] ∧
        ∀ spelling, stop ≠ .name spelling) := by
  have symbols := extended.symbols
  simp only [Rest.symbols, starts, List.map_cons, List.cons_append, List.map_eq_cons_iff] at symbols
  obtain ⟨lexeme', lexemes', otherStarts, same, symbols⟩ := symbols
  refine ⟨lexeme', lexemes', otherStarts, same, symbols, ?_⟩
  obtain rfl | filled := bounded
  · exact .inl rfl
  · refine extended.stops.imp_right fun ⟨front, stop, own, notName⟩ => ?_
    rw [Rest.symbols, starts, List.map_cons] at own
    cases front with
    | nil =>
      rw [List.nil_append, List.cons_eq_cons, List.map_eq_nil_iff] at own
      exact absurd own.2 filled
    | cons symbol front =>
      rw [List.cons_append, List.cons_eq_cons] at own
      exact ⟨front, stop, own.2, notName⟩

end Extends

namespace Follows

variable {view : α → γ} {seen : β → δ}

/-- Values that look alike are given without a look at the code. -/
protected theorem pure {first second : α} (alike : view first = view second) :
    Follows tail view (Pure.pure first) (Pure.pure second) where
  header read := by
    cases read
    rfl
  spent read empty := by
    cases read
    exact empty
  follows read _ extended := by
    cases read
    exact ⟨second, _, rfl, alike, extended⟩

/-- Every reader follows one that always fails. -/
protected theorem failure {second : GoReader α} :
    Follows tail view Alternative.failure second where
  header read := nomatch read
  spent read _ := nomatch read
  follows read _ _ := nomatch read

/-- Readers follow each other step by step. -/
protected theorem bind {first second : GoReader α} {next nextSecond : α → GoReader β}
    (starts : Follows tail view first second)
    (goes : ∀ value value', view value = view value' →
      Follows tail seen (next value) (nextSecond value')) :
    Follows tail seen (first >>= next) (second >>= nextSecond) where
  header read := by
    obtain ⟨middle, between, read, continued⟩ := bind_eq_some.mp read
    exact ((goes middle middle rfl).header continued).trans (starts.header read)
  spent read empty := by
    obtain ⟨middle, between, read, continued⟩ := bind_eq_some.mp read
    exact (goes middle middle rfl).spent continued (starts.spent read empty)
  follows read bounded extended := by
    obtain ⟨middle, between, read, continued⟩ := bind_eq_some.mp read
    have boundedBetween : tail = [] ∨ between.lexemes ≠ [] :=
      bounded.imp_right fun filled empty => filled ((goes middle middle rfl).spent continued empty)
    obtain ⟨middle', between', read', alike, extended⟩ := starts.follows read boundedBetween extended
    obtain ⟨value', after', continued', alike, extended⟩ :=
      (goes middle middle' alike).follows continued bounded extended
    exact ⟨value', after', bind_eq_some.mpr ⟨middle', between', read', continued'⟩, alike, extended⟩

/-- A reader that gives the same value is followed by the same. -/
theorem bind_id {first second : GoReader α} {next nextSecond : α → GoReader β}
    (starts : Follows tail id first second)
    (goes : ∀ value, Follows tail seen (next value) (nextSecond value)) :
    Follows tail seen (first >>= next) (second >>= nextSecond) :=
  starts.bind fun value value' same => by
    obtain rfl : value = value' := same
    exact goes value

/-- A value that is given in front of a reader. -/
theorem pure_bind {value value' : α} {next nextSecond : α → GoReader β}
    (goes : Follows tail seen (next value) (nextSecond value')) :
    Follows tail seen (Pure.pure value >>= next) (Pure.pure value' >>= nextSecond) :=
  goes

/-- Readers follow each other step by step, where the first gives two values. -/
theorem bind_pair {first second : GoReader (α × β)} {next nextSecond : α × β → GoReader ε}
    {look : ε → ζ} (starts : Follows tail (Prod.map view seen) first second)
    (goes : ∀ value value' other other', view value = view value' → seen other = seen other' →
      Follows tail look (next (value, other)) (nextSecond (value', other'))) :
    Follows tail look (first >>= next) (second >>= nextSecond) :=
  starts.bind fun (value, other) (value', other') alike =>
    goes value value' other other' (congrArg Prod.fst alike) (congrArg Prod.snd alike)

/-- A choice between readers, by questions with the same answer. -/
protected theorem ite {chosen chosen' : Prop} [Decidable chosen] [Decidable chosen']
    {first second other otherSecond : GoReader α} (same : chosen ↔ chosen')
    (yes : Follows tail view first second) (no : Follows tail view other otherSecond) :
    Follows tail view (if chosen then first else other)
      (if chosen' then second else otherSecond) := by
  by_cases holds : chosen
  · rwa [if_pos holds, if_pos (same.mp holds)]
  · rwa [if_neg holds, if_neg (mt same.mpr holds)]

/-- A value that may be missing. -/
protected theorem lift {first second : Option α} (alike : first.map view = second.map view) :
    Follows tail view (liftM first) (liftM second) := by
  cases first with
  | none => exact .failure
  | some value =>
    obtain ⟨value', rfl, same⟩ := Option.map_eq_some_iff.mp alike.symm
    exact .pure same.symm

/-- What becomes of a result looks alike if the results do. -/
protected theorem map {first second : GoReader α} {function : α → β}
    (starts : Follows tail view first second)
    (alike : ∀ value value', view value = view value' →
      seen (function value) = seen (function value')) :
    Follows tail seen (function <$> first) (function <$> second) :=
  starts.bind fun value value' same => .pure (alike value value' same)

/-- A reader whose result is one of two kinds. -/
protected theorem some {first second : GoReader α} (inner : Follows tail view first second) :
    Follows tail (Option.map view) (some <$> first) (some <$> second) :=
  inner.map fun _ _ alike => congrArg Option.some alike

/-- Looking at the rest takes nothing from it. -/
theorem of_look {look : Rest → α}
    (alike : ∀ rest other noted, (tail = [] ∨ rest.lexemes ≠ []) → Extends tail noted rest other →
      view (look rest) = view (look other)) :
    Follows tail view (fun rest => some (look rest, rest)) (fun rest => some (look rest, rest)) where
  header read := by
    cases read
    rfl
  spent read empty := by
    cases read
    exact empty
  follows read bounded extended := by
    cases read
    exact ⟨_, _, rfl, alike _ _ _ bounded extended, extended⟩

/-- A look at the next symbol finds the same one. -/
protected theorem peek : Follows tail id peek peek :=
  of_look fun rest other _ bounded extended => by
    simpa [Rest.symbols] using (extended.head? bounded).symm

/-- A look at two symbols finds the same symbol behind a name. -/
protected theorem peekTwo : Follows tail behindName? peekTwo peekTwo :=
  of_look fun rest other _ _ extended => by
    simpa [Rest.symbols, List.map_take] using extended.behindName?_take.symm

/-- The place of the next symbol may differ. -/
protected theorem nextPlace : Follows tail (fun _ => ()) nextPlace nextPlace :=
  of_look fun _ _ _ _ _ => rfl

/-- The place behind the last symbol may differ. -/
protected theorem lastPlace : Follows tail (fun _ => ()) lastPlace lastPlace :=
  of_look fun _ _ _ _ _ => rfl

/-- The line of the last symbol may differ. -/
protected theorem lastLine : Follows tail (fun _ => ()) lastLine lastLine :=
  of_look fun _ _ _ _ _ => rfl

/-- Whether code is in a header is the same. -/
protected theorem get : Follows tail Rest.isHeader get get :=
  of_look fun _ _ _ _ extended => extended.isHeader.symm

/-- A symbol that passes a test is the same. -/
protected theorem take (test : Symbol → Option α) : Follows tail id (take test) (take test) where
  header {rest _ _} read := by
    unfold take at read
    split at read
    · cases read
    · obtain ⟨value, passes, rfl, rfl⟩ := Option.map_eq_some_iff.mp read
      rfl
  spent {rest _ _} read empty := by
    rw [take, empty] at read
    cases read
  follows {rest value after other noted} read bounded extended := by
    unfold take at read
    split at read
    · cases read
    · next lexeme lexemes starts =>
      obtain ⟨value, passes, rfl, rfl⟩ := Option.map_eq_some_iff.mp read
      obtain ⟨lexeme', lexemes', otherStarts, same, symbols, stops⟩ := extended.cons starts bounded
      refine ⟨value, { other with lexemes := lexemes', place := lexeme'.place, lastLine := lexeme'.finish.line }, ?_, rfl, ?_⟩
      · simp [take, otherStarts, same, passes]
      · exact ⟨symbols, stops, extended.isHeader, extended.guards⟩

/-- A given symbol. -/
protected theorem exactly (symbol : Symbol) : Follows tail id (exactly symbol) (exactly symbol) :=
  .take _

/-- A symbol that may be absent. -/
protected theorem optional (symbol : Symbol) :
    Follows tail id (optional symbol) (optional symbol) := by
  refine .bind_id .peek fun next => ?_
  split
  · exact .bind_id (.exactly symbol) fun _ => .pure rfl
  · exact .pure rfl

/-- A given sign. -/
protected theorem sign (spelling : String) : Follows tail id (sign spelling) (sign spelling) :=
  .exactly _

/-- A given keyword. -/
protected theorem keyword (spelling : String) :
    Follows tail id (keyword spelling) (keyword spelling) :=
  .exactly _

/-- A name, up to its place. -/
protected theorem label : Follows tail Label.erase label label :=
  .bind_id (.take _) fun _ => .bind .lastPlace fun _ _ _ => .pure rfl

/-- The tag of a field, up to its place. -/
protected theorem tag? : Follows tail (Option.map Label.erase) tag? tag? := by
  refine .bind_id .peek fun next => ?_
  split
  · exact .bind_id (.exactly _) fun _ => .bind .lastPlace fun _ _ _ => .pure rfl
  · exact .pure rfl

/-- A semicolon or the end of a line. -/
protected theorem semicolon : Follows tail id semicolon semicolon :=
  .take _

/-- The end of a declaration or a statement. -/
protected theorem finish : Follows tail (fun _ => ()) finish finish where
  header read := by
    unfold finish at read
    split at read <;> cases read <;> rfl
  spent {rest _ _} read empty := by
    rw [finish, empty] at read
    cases read
  follows {rest value after other noted} read bounded extended := by
    unfold finish at read
    split at read
    · next place comments lexemes starts =>
      cases read
      obtain ⟨⟨_, place', comments'⟩, lexemes', otherStarts, rfl, symbols, stops⟩ :=
        extended.cons starts bounded
      refine ⟨hasRemark place'.line lexemes', { other with lexemes := lexemes' }, ?_, rfl,
        symbols, stops, extended.isHeader, extended.guards⟩
      rw [finish, otherStarts]
      rfl
    · next place comments lexemes starts =>
      cases read
      obtain ⟨⟨_, place', comments'⟩, lexemes', otherStarts, rfl, symbols, stops⟩ :=
        extended.cons starts bounded
      refine ⟨comments'.head?.any fun comment => comment.place.line = other.place.line,
        { other with lexemes := lexemes' }, ?_, rfl, symbols, stops, extended.isHeader,
        extended.guards⟩
      rw [finish, otherStarts]
    · next place comments lexemes starts =>
      cases read
      obtain ⟨⟨_, place', comments'⟩, lexemes', otherStarts, rfl⟩ :=
        extended.starts starts
      refine ⟨false, other, ?_, rfl, extended⟩
      rw [finish, otherStarts]
      rfl
    · next place comments lexemes starts =>
      cases read
      obtain ⟨⟨_, place', comments'⟩, lexemes', otherStarts, rfl⟩ :=
        extended.starts starts
      refine ⟨false, other, ?_, rfl, extended⟩
      rw [finish, otherStarts]
      rfl
    · cases read

/-- A larger limit lets a reader go on. -/
protected theorem many {starts : Symbol → Bool} {first second : GoReader α}
    (item : Follows tail view first second) {limit larger : Nat} (atMost : limit ≤ larger) :
    Follows tail (List.map view) (many starts first limit) (many starts second larger) := by
  induction limit generalizing larger with
  | zero =>
    cases larger with
    | zero =>
      refine .bind_id .peek fun next => ?_
      split
      · exact .failure
      · exact .pure rfl
    | succ larger =>
      refine .bind_id .peek fun next => ?_
      split
      · exact .failure
      · exact .pure rfl
  | succ limit ih =>
    obtain ⟨larger, rfl⟩ := Nat.exists_eq_add_of_lt atMost
    refine .bind_id .peek fun next => ?_
    split
    · refine item.bind fun value value' alike => (ih (by omega)).bind fun values values' same => ?_
      exact .pure (by simp [alike, same])
    · exact .pure rfl

/-- Items between commas, with at least as much room for them. -/
protected theorem separated {closing : String} {first second : GoReader α}
    (item : Follows tail view first second) {limit larger : Nat} (atMost : limit ≤ larger) :
    Follows tail (List.map view) (separated closing first limit)
      (separated closing second larger) := by
  induction limit generalizing larger with
  | zero => exact .failure
  | succ limit ih =>
    obtain ⟨larger, rfl⟩ := Nat.exists_eq_add_of_lt atMost
    refine .bind_id (.optional _) fun closes => ?_
    split
    · exact .pure rfl
    · refine item.bind fun value value' alike => .bind_id (.optional _) fun goesOn => ?_
      split
      · refine (ih (by omega)).bind fun values values' same => ?_
        exact .pure (by simp [alike, same])
      · exact .bind_id (.sign _) fun _ => .pure (by simp [alike])

/-- A reader in a header or outside of one, on what is left of the code. -/
theorem within_apply (isHeader : Bool) (reader : GoReader α) (rest : Rest) :
    within isHeader reader rest = (reader { rest with isHeader }).map fun result =>
      (result.1, { result.2 with isHeader := rest.isHeader }) := by
  rw [Option.map_eq_bind]
  rfl

/-- A reader in a header or outside of one. -/
protected theorem within {first second : GoReader α} (isHeader : Bool)
    (inner : Follows tail view first second) :
    Follows tail view (within isHeader first) (within isHeader second) where
  header {rest _ _} read := by
    rw [within_apply] at read
    obtain ⟨⟨value, after⟩, inside, rfl, rfl⟩ := Option.map_eq_some_iff.mp read
    rfl
  spent {rest _ _} read empty := by
    rw [within_apply] at read
    obtain ⟨⟨value, after⟩, inside, rfl, rfl⟩ := Option.map_eq_some_iff.mp read
    have left : after.lexemes = [] := inner.spent inside empty
    exact left
  follows {rest _ _ other noted} read bounded extended := by
    rw [within_apply] at read
    obtain ⟨⟨value, after⟩, inside, rfl, rfl⟩ := Option.map_eq_some_iff.mp read
    have entered : Extends tail noted { rest with isHeader } { other with isHeader } :=
      ⟨extended.symbols, extended.stops, rfl, extended.guards⟩
    obtain ⟨value', after', read', alike, left⟩ := inner.follows inside bounded entered
    refine ⟨value', { after' with isHeader := other.isHeader }, ?_, alike, ?_⟩
    · rw [within_apply, read']
      rfl
    · exact ⟨left.symbols, left.stops, extended.isHeader, left.guards⟩

/-- A reader whose guards are counted, on what is left of the code. -/
theorem guarded_apply (reader : GoReader α) (rest : Rest) :
    guarded reader rest = (reader { rest with guards := false }).map fun result =>
      ((result.1, result.2.guards), { result.2 with guards := rest.guards }) := by
  rw [Option.map_eq_bind]
  rfl

/-- A reader whose guards are counted. -/
protected theorem guarded {first second : GoReader α} (inner : Follows tail view first second) :
    Follows tail (Prod.map view id) (guarded first) (guarded second) where
  header {rest _ _} read := by
    rw [guarded_apply] at read
    obtain ⟨⟨value, after⟩, inside, rfl, rfl⟩ := Option.map_eq_some_iff.mp read
    have left := inner.header inside
    exact left
  spent {rest _ _} read empty := by
    rw [guarded_apply] at read
    obtain ⟨⟨value, after⟩, inside, rfl, rfl⟩ := Option.map_eq_some_iff.mp read
    have left : after.lexemes = [] := inner.spent inside empty
    exact left
  follows {rest _ _ other noted} read bounded extended := by
    rw [guarded_apply] at read
    obtain ⟨⟨value, after⟩, inside, rfl, rfl⟩ := Option.map_eq_some_iff.mp read
    have entered : Extends tail false { rest with guards := false } { other with guards := false } :=
      ⟨extended.symbols, extended.stops, extended.isHeader, rfl⟩
    obtain ⟨value', after', read', alike, left⟩ := inner.follows inside bounded entered
    refine ⟨(value', after'.guards), { after' with guards := other.guards }, ?_, ?_, ?_⟩
    · rw [guarded_apply, read']
      rfl
    · simp [alike, left.guards]
    · exact ⟨left.symbols, left.stops, left.isHeader, extended.guards⟩

/-- What a value guards is noted. -/
protected theorem note (guards : Bool) :
    Follows tail id (modify fun rest => { rest with guards := rest.guards || guards })
      (modify fun rest => { rest with guards := rest.guards || guards }) where
  header read := by
    cases read
    rfl
  spent read empty := by
    cases read
    exact empty
  follows read _ extended := by
    cases read
    exact ⟨_, _, rfl, rfl, extended.symbols, extended.stops, extended.isHeader, by
      simp [extended.guards, Bool.or_right_comm]⟩

/-- A member of a list, up to places. -/
protected theorem member {first second : GoReader GoExpr}
    (content : Follows tail GoExpr.erase first second) :
    Follows tail (Member.erase GoExpr.erase) (member first) (member second) :=
  .bind .nextPlace fun _ _ _ => content.bind fun value value' alike =>
    .bind .lastLine fun _ _ _ => .pure (by simp [Member.erase, alike])

/-- Members up to a closing bracket, up to places. -/
protected theorem membersUpTo {closing : String} {first second : GoReader GoExpr}
    (content : Follows tail GoExpr.erase first second) {limit larger : Nat}
    (atMost : limit ≤ larger) :
    Follows tail (Members.erase GoExpr.erase) (membersUpTo closing first limit)
      (membersUpTo closing second larger) :=
  .bind .lastPlace fun _ _ _ => (content.member.separated atMost).bind fun list list' alike =>
    .bind .lastPlace fun _ _ _ => .pure (by simp [Members.erase, alike])

/-- Members between braces, up to places. -/
protected theorem braced {first second : GoReader (List (Member GoExpr))}
    (list : Follows tail (List.map (Member.erase GoExpr.erase)) first second) :
    Follows tail (Members.erase GoExpr.erase) (braced first) (braced second) :=
  .bind_id (.sign _) fun _ => .bind .lastPlace fun _ _ _ => list.bind fun list list' alike =>
    .bind_id (.sign _) fun _ => .bind .lastPlace fun _ _ _ => .pure (by
      simp [Members.erase, alike])

/-- Parameters up to a closing bracket behind some that have been read, up to places. -/
protected theorem parametersUpTo {closing : String} {variadic : Bool} {opening opening' : Place}
    {entries entries' : List Entry} {first second : GoReader Entry}
    (started : entries.map Entry.erase = entries'.map Entry.erase)
    (entry : Follows tail Entry.erase first second) {limit larger : Nat}
    (atMost : limit ≤ larger) :
    Follows tail (Members.erase GoExpr.erase)
      (parametersUpTo closing variadic opening entries first limit)
      (parametersUpTo closing variadic opening' entries' second larger) := by
  refine (entry.separated atMost).bind fun more more' alike => ?_
  have same : (Entry.members (entries ++ more)).map (List.map (Member.erase GoExpr.erase)) =
      (Entry.members (entries' ++ more')).map (List.map (Member.erase GoExpr.erase)) := by
    rw [Entry.map_members, Entry.map_members, List.map_append, List.map_append, started, alike]
  refine (Follows.lift same).bind fun list list' alike => ?_
  refine .ite ?_ .failure (.bind .lastPlace fun _ _ _ => .pure (by simp [Members.erase, alike]))
  rw [← variadicLast_erase, alike, variadicLast_erase]

/-- Parameters between parentheses, up to places. -/
protected theorem parameters {variadic : Bool} {first second : GoReader Entry}
    (entry : Follows tail Entry.erase first second) {limit larger : Nat}
    (atMost : limit ≤ larger) :
    Follows tail (Members.erase GoExpr.erase) (parameters variadic first limit)
      (parameters variadic second larger) :=
  .bind_id (.sign _) fun _ => .bind .lastPlace fun _ _ _ => .parametersUpTo rfl entry atMost

/-- Names behind commas, up to places. -/
protected theorem moreNames {limit larger : Nat} (atMost : limit ≤ larger) :
    Follows tail (List.map Label.erase) (moreNames limit) (moreNames larger) :=
  .many (.bind_id (.sign _) fun _ => .label) atMost

/-- Expressions between commas, up to places. -/
protected theorem list {first second : GoReader GoExpr}
    (content : Follows tail GoExpr.erase first second) {limit larger : Nat}
    (atMost : limit ≤ larger) :
    Follows tail (List.map (Member.erase GoExpr.erase)) (list first limit) (list second larger) :=
  content.member.bind fun member member' alike =>
    (Follows.many (.bind_id (.sign _) fun _ => content.member) atMost).bind fun more more' same =>
      .pure (by simp [alike, same])

/-- The statements of a block, up to places. -/
protected theorem block {first second : GoReader GoStmt}
    (statement : Follows tail GoStmt.erase first second) {limit larger : Nat}
    (atMost : limit ≤ larger) :
    Follows tail (Braced.erase GoStmt.erase) (block first limit) (block second larger) :=
  .bind_id (.sign _) fun _ => .bind .lastPlace fun _ _ _ =>
    ((statement.many atMost).within false).bind fun list list' alike =>
      .bind_id (.sign _) fun _ => .bind .lastPlace fun _ _ _ => .pure (by
        simp [Braced.erase, alike])

/-- The clauses of a switch, up to places. -/
protected theorem cases {first second : GoReader GoStmt}
    (clause : Follows tail GoStmt.erase first second) {limit larger : Nat}
    (atMost : limit ≤ larger) :
    Follows tail (Braced.erase GoStmt.erase) (cases first limit) (cases second larger) :=
  .bind_id (.sign _) fun _ => .bind .lastPlace fun _ _ _ =>
    (clause.many atMost).bind fun list list' alike =>
      .bind_id (.sign _) fun _ => .bind .lastPlace fun _ _ _ => .pure (by
        simp [Braced.erase, alike])

end Follows

end GoReader

end Code

end Scriptlet
