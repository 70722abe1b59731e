/-
# ExprLang.Scope — bindings and the scopes that hold them

A scope binds names to values and may be enclosed by another. Functions keep
the scope they were written in, so scopes are shared: they live in a heap and
are known by their place there, and a binding made through one reference is
seen through all.

A scope is always made after the one that encloses it, so links lead to earlier
places; a link that does not is not followed. That makes `Heap.lookup`, which
walks outward until a name is found, end on every heap.
-/
import ExprLang.Value

namespace ExprLang

set_option autoImplicit false

/-- The bindings of a scope, at most one for each name, and its enclosing scope. -/
structure Scope where
  bindings : List (String × Value)
  outer : Option ScopeId
  deriving Repr

namespace Scope

/-- The value a scope itself binds a name to. -/
def find? (scope : Scope) (name : String) : Option Value := scope.bindings.lookup name

/-- Bind a name, in place of what it was bound to. -/
def set (scope : Scope) (name : String) (value : Value) : Scope :=
  { scope with bindings := (name, value) :: scope.bindings.filter (·.1 != name) }

theorem find?_set_self (scope : Scope) (name : String) (value : Value) :
    (scope.set name value).find? name = some value := by
  simp [find?, set]

theorem find?_set_of_ne (scope : Scope) {name other : String} (value : Value)
    (different : other ≠ name) : (scope.set name value).find? other = scope.find? other := by
  have apart : (other == name) = false := by simpa using different
  simp only [find?, set, List.lookup_cons, apart]
  induction scope.bindings with
  | nil => rfl
  | cons binding rest ih =>
      obtain ⟨key, held⟩ := binding
      by_cases same : key = name
      · simp [same, List.lookup_cons, apart, ih]
      · by_cases found : other = key <;> simp [List.lookup_cons, same, found, ih]

theorem outer_set (scope : Scope) (name : String) (value : Value) :
    (scope.set name value).outer = scope.outer := rfl

/-- The bindings in the order of their names. -/
def sorted (scope : Scope) : List (String × Value) :=
  scope.bindings.mergeSort fun left right => decide (left.1 ≤ right.1)

/-- The displayed form of a scope: its own names, and whether it is enclosed. -/
def describe (scope : Scope) : String :=
  "Environment(" ++ Text.bracketed (scope.sorted.map fun binding => Text.quote binding.1) ++
    ", outer=" ++ (if scope.outer.isSome then "True" else "False") ++ ")"

end Scope

/-- Every scope there is, in the order they were made. -/
structure Heap where
  scopes : Array Scope
  deriving Repr

namespace Heap

def empty : Heap := ⟨#[]⟩

/-- The scope at a place. -/
def scope? (heap : Heap) (place : ScopeId) : Option Scope := heap.scopes[place]?

/-- Where the next scope will be made. -/
def next (heap : Heap) : ScopeId := heap.scopes.size

/-- Add a scope at `next`. -/
def add (heap : Heap) (scope : Scope) : Heap := ⟨heap.scopes.push scope⟩

/-- Bind a name in a scope. -/
def set (heap : Heap) (place : ScopeId) (name : String) (value : Value) : Heap :=
  ⟨heap.scopes.modify place fun scope => scope.set name value⟩

/-- Adding a scope leaves the others where they are. -/
theorem scope?_add (heap : Heap) (scope : Scope) (place : ScopeId) :
    (heap.add scope).scope? place =
      if place = heap.next then some scope else heap.scope? place := by
  exact Array.getElem?_push

/-- Binding a name changes one scope. -/
theorem scope?_set (heap : Heap) (place : ScopeId) (name : String) (value : Value)
    (other : ScopeId) :
    (heap.set place name value).scope? other =
      if place = other then (heap.scope? other).map (·.set name value) else heap.scope? other := by
  simp only [scope?, set, Array.getElem?_modify]

/-- The value of a name: the binding in the scope itself, or else in the nearest
enclosing scope that has one. -/
def lookup (heap : Heap) (place : ScopeId) (name : String) : Option Value :=
  match heap.scope? place with
  | none => none
  | some scope =>
    match scope.find? name with
    | some value => some value
    | none =>
      match scope.outer with
      | none => none
      | some outer => if outer < place then heap.lookup outer name else none
termination_by place

end Heap

end ExprLang
