import Scriptlet.Run.Value

/-!
# Environments

The variables of a run. The bindings are kept in the byte order of their names,
one for each name.
-/

namespace Scriptlet

/-- Whether a name stands before another in byte order. -/
def nameBefore (left right : String) : Bool :=
  decide (Bytes.ofString left < Bytes.ofString right)

/-- Names with the values bound to them. -/
structure Environment where
  bindings : List (String × Value) := []
deriving DecidableEq, Repr, Inhabited

namespace Environment

/-- The environment without variables. -/
def empty : Environment := {}

/-- The value bound to a name. -/
def get? (env : Environment) (name : String) : Option Value :=
  env.bindings.lookup name

/-- Puts a binding in its place, instead of an earlier one of the same name. -/
def insert (name : String) (value : Value) : List (String × Value) → List (String × Value)
  | [] => [(name, value)]
  | (other, held) :: rest =>
    if name = other then
      (name, value) :: rest
    else if nameBefore name other then
      (name, value) :: (other, held) :: rest
    else
      (other, held) :: insert name value rest

/-- Binds a name, which loses an earlier binding. -/
def set (env : Environment) (name : String) (value : Value) : Environment where
  bindings := insert name value env.bindings

theorem lookup_binding (name other : String) (value : Value) (rest : List (String × Value)) :
    List.lookup name ((other, value) :: rest) =
      if name = other then some value else rest.lookup name := by
  by_cases same : name = other
  · rw [same, List.lookup_cons_self, if_pos rfl]
  · have differ : (name == other) = false := beq_false_of_ne same
    rw [List.lookup_cons, differ, if_neg same]

theorem lookup_insert (name other : String) (value : Value) (bindings : List (String × Value)) :
    (insert name value bindings).lookup other =
      if other = name then some value else bindings.lookup other := by
  induction bindings with
  | nil => exact lookup_binding other name value []
  | cons binding rest ih =>
      obtain ⟨bound, held⟩ := binding
      rw [insert]
      by_cases here : name = bound
      · subst here
        by_cases same : other = name <;> simp [lookup_binding, same]
      · by_cases before : nameBefore name bound
        · simp [lookup_binding, here, before]
        · by_cases same : other = bound
          · simp [before, same, here, Ne.symm here]
          · simp [lookup_binding, here, before, same, ih]

/-- A name has the value bound to it last. -/
theorem get?_set (env : Environment) (name other : String) (value : Value) :
    (env.set name value).get? other = if other = name then some value else env.get? other :=
  lookup_insert name other value env.bindings

/-- The bound names in byte order. -/
def names (env : Environment) : List String :=
  env.bindings.map (·.1)

/-- The number of bound names. -/
def size (env : Environment) : Nat :=
  env.bindings.length

end Environment

end Scriptlet
