/-
# ExprLang.Proofs.Eval.Transparent — calls give the same result again

A call makes scopes, and it leaves them behind: a second call of the same
function with the same arguments runs on a larger heap and makes its scopes at
other places. These are all that differs (`apply_transparent`). The second result
is the first with its places renamed, where the places that were there before
keep their names, and every name has the renamed value in the renamed place.

The heap has to be closed: scopes are enclosed by scopes that exist, and functions
keep places that exist. A place which is still to be made would be another scope
in the second call than in the first.
-/
import ExprLang.Proofs.Eval.Correspondence

namespace ExprLang

set_option autoImplicit false

namespace Value

/-- The value with the places that functions keep renamed. -/
def rename (renamed : ScopeId → ScopeId) : Value → Value
  | .returned value => .returned (value.rename renamed)
  | .function parameters body scope => .function parameters body (renamed scope)
  | value => value

/-- The places that the value keeps are all before this one. -/
def Before (next : ScopeId) : Value → Prop
  | .returned value => value.Before next
  | .function _ _ scope => scope < next
  | _ => True

end Value

/-- A heap that speaks of its own places only: the links of its scopes and the
functions that they hold lead to places that exist. -/
structure Heap.Closed (heap : Heap) : Prop where
  outer : ∀ place scope link, heap.scope? place = some scope → scope.outer = some link →
    link < heap.next
  kept : ∀ place scope name value, heap.scope? place = some scope →
    scope.find? name = some value → value.Before heap.next

/-- Places from one on are moved up by an amount. -/
def shifted (next amount place : Nat) : Nat := if place < next then place else place + amount

theorem shifted_lt {next amount earlier later : Nat} (before : earlier < later) :
    shifted next amount earlier < shifted next amount later := by
  unfold shifted
  split <;> split <;> omega

theorem shifted_of_lt {next amount : Nat} {place : ScopeId} (existed : place < next) :
    shifted next amount place = place :=
  if_pos existed

theorem not_shifted_lt {next amount place : Nat} (absent : ¬ place < next) :
    ¬ shifted next amount place < next + amount := by
  rw [shifted, if_neg absent]
  omega

theorem shifted_add (next amount later : Nat) :
    shifted next amount (next + later) = next + amount + later := by
  rw [shifted, if_neg (by omega)]
  omega

/-- There is no scope from the next place on. -/
theorem Heap.scope?_eq_none {heap : Heap} {place : ScopeId} (absent : ¬ place < heap.next) :
    heap.scope? place = none :=
  Array.getElem?_eq_none (Nat.not_lt.1 absent)

namespace Correspondence

/-- Nothing differs but that places from one on are moved up. -/
def shift (next amount : Nat) : Correspondence where
  node := Eq
  name := Eq
  place _ := True
  known _ _ := True
  move := shifted next amount
  order := shifted_lt
  layer := by
    rintro node _ rfl
    exact .self node (fun _ _ => rfl) fun _ _ => rfl
  text := congrArg Name.text
  matter _ _ := trivial

variable {next amount : Nat}

/-- Corresponding values are renamed ones. -/
theorem values_shift {first second : Value} (values : (shift next amount).Values first second) :
    second = first.rename (shifted next amount) := by
  induction values with
  | returned _ ih => exact congrArg Value.returned ih
  | function scope named inner =>
      cases inner
      have same := List.forall₂_eq_eq_eq ▸ named
      cases same
      rfl
  | _ => rfl

theorem ends_shift {first second : Except EvalFault Value}
    (ends : (shift next amount).Ends first second) :
    second = first.map (Value.rename (shifted next amount)) := by
  cases ends with
  | ok values => exact congrArg Except.ok (values_shift values)
  | error fault => rfl

/-- Values that keep no later place correspond to themselves. -/
theorem values_of_before {value : Value} (before : value.Before next) :
    (shift next amount).Values value value := by
  induction value with
  | returned value ih => exact .returned (ih before)
  | function parameters body scope =>
      have kept : (shift next amount).Values (.function parameters body scope)
          (.function parameters body (shifted next amount scope)) :=
        .function trivial (List.forall₂_same.2 fun _ _ => rfl) rfl
      rwa [shifted_of_lt before] at kept
  | integer value => exact .integer value
  | boolean value => exact .boolean value
  | null => exact .null
  | object => exact .object
  | error cause => exact .error cause

/-- Names have renamed values where what they are bound to corresponds. -/
theorem held_shift {first second : Option Value}
    (held : Option.Rel (shift next amount).Values first second) :
    second = first.map (Value.rename (shifted next amount)) := by
  cases held with
  | none => rfl
  | some values => exact congrArg some (values_shift values)

/-- The scopes of a closed heap correspond to themselves when later places move. -/
theorem scopes_of_closed {heap : Heap} (closed : heap.Closed) {place : ScopeId} {scope : Scope}
    (here : heap.scope? place = some scope) :
    (shift heap.next amount).Scopes place scope scope where
  outer := by
    cases link : scope.outer with
    | none => rfl
    | some outer => exact congrArg some (shifted_of_lt (closed.outer _ _ _ here link)).symm
  encloses _ _ := trivial
  bound name _ := by
    cases found : scope.find? name with
    | none => exact .none
    | some value => exact .some (values_of_before (closed.kept _ _ _ _ here found))

/-- A closed heap corresponds to what has become of it when scopes were only added. -/
theorem heaps_of_untouched {before after : Heap} (closed : before.Closed)
    (untouched : before.Untouched after) (grown : after.next = before.next + amount) :
    (shift before.next amount).Heaps before after where
  scopes place _ := by
    change Option.Rel _ _ (after.scope? (shifted before.next amount place))
    by_cases existed : place < before.next
    · rw [shifted_of_lt existed, untouched.all place existed]
      cases here : before.scope? place with
      | none => exact .none
      | some scope => exact .some (scopes_of_closed closed here)
    -- The scopes that were added have no counterpart: places are moved past them.
    · have still : ¬ shifted before.next amount place < after.next :=
        grown ▸ not_shifted_lt existed
      rw [Heap.scope?_eq_none existed, Heap.scope?_eq_none still]
      exact .none
  fresh _ _ := trivial
  next later := by
    rw [grown]
    exact shifted_add before.next amount later

end Correspondence

namespace Evaluator

/-- **Calls give the same result again.** Whatever the function, the arguments,
the limits, the counters and the stack: a second call on the heap that the first
one left ends in the same value, error or fault, but for the names of places. The
places that were there keep their names, no two places get the same one, and all
names have the same values, renamed. -/
theorem apply_transparent (evaluator : Evaluator) (levels : Nat) (callee : Value)
    (values : List Value) (machine : Machine) (closed : machine.heap.Closed)
    (known : callee.Before machine.heap.next)
    (given : ∀ value ∈ values, value.Before machine.heap.next) :
    let first := evaluator.apply (evaluator.evaluateWithin levels) callee values machine
    let second := evaluator.apply (evaluator.evaluateWithin levels) callee values
      { machine with heap := first.2.heap }
    ∃ renamed : ScopeId → ScopeId,
      (∀ place < machine.heap.next, renamed place = place) ∧ Function.Injective renamed ∧
      second.1 = first.1.map (Value.rename renamed) ∧
      ∀ place name, second.2.heap.lookup (renamed place) name =
        (first.2.heap.lookup place name).map (Value.rename renamed) := by
  intro first second
  have untouched : machine.heap.Untouched first.2.heap :=
    (within_framed evaluator levels).apply evaluator callee values machine
  -- The second call makes its scopes as much higher up as the first has made scopes.
  obtain ⟨amount, grown⟩ := Nat.exists_eq_add_of_le untouched.grows
  let shift := Correspondence.shift machine.heap.next amount
  have machines : shift.Machines machine { machine with heap := first.2.heap } :=
    ⟨Correspondence.heaps_of_untouched closed untouched grown, rfl, rfl⟩
  have arguments : List.Forall₂ shift.Values values values :=
    List.forall₂_same.2 fun value member => Correspondence.values_of_before (given value member)
  obtain ⟨ends, after⟩ := Correspondence.apply_follows
    (Correspondence.evaluate_corresponds shift evaluator levels) evaluator
    (Correspondence.values_of_before known) arguments _ _ machines
  exact ⟨shifted machine.heap.next amount, fun _ existed => shifted_of_lt existed,
    fun _ _ same => shift.move_inj.1 same, Correspondence.ends_shift ends,
    fun _ _ => Correspondence.held_shift (after.heap.lookup trivial fun _ => trivial)⟩

/-- The body of a function that reads a name of the scope which the function
keeps. -/
def reader : Node := .block 1 [.expressionStatement 1 (.identifier ⟨"x", 1⟩)]

/-- A function that makes such a function, which keeps the scope of the call. -/
def keeper : Value :=
  .function [⟨"x", 1⟩] (.block 1 [.expressionStatement 1 (.function 1 [] reader)]) 0

/-- A heap of one scope, with this function in it. -/
def keepers : Heap := Heap.empty.add ⟨[("keep", keeper)], none⟩

theorem keepers_closed : keepers.Closed where
  outer place scope link here linked := by
    rw [keepers, Heap.scope?_add] at here
    split at here
    · cases here
      cases linked
    · cases here
  kept place scope name value here found := by
    rw [keepers, Heap.scope?_add] at here
    split at here
    · cases here
      rw [Scope.find?, List.lookup_cons] at found
      split at found
      · cases found
        exact Nat.one_pos
      · cases found
    · cases here

/-- The two calls make functions that keep the scopes 1 and 2, where the name has
the same value. -/
theorem apply_transparent_keeper :
    let call := standard.apply (standard.evaluateWithin 3) keeper [.integer 7]
    let first := call (.ofHeap keepers)
    let second := call (.ofHeap first.2.heap)
    first.1 = .ok (.function [] reader 1) ∧ second.1 = .ok (.function [] reader 2) ∧
      first.2.heap.lookup 1 "x" = some (.integer 7) ∧
      second.2.heap.lookup 2 "x" = some (.integer 7) := by
  intro call first second
  obtain ⟨renamed, -, -, ends, names⟩ := standard.apply_transparent 3 keeper [.integer 7]
    (.ofHeap keepers) keepers_closed Nat.one_pos (by simp [Value.Before])
  have made : first.1 = .ok (.function [] reader 1) := rfl
  have again : second.1 = .ok (.function [] reader 2) := rfl
  have held : first.2.heap.lookup 1 "x" = some (.integer 7) := by
    rw [Heap.lookup]
    rfl
  have moved : renamed 1 = 2 := by
    have same := again.symm.trans (ends.trans (congrArg _ made))
    injection same with same
    injection same with _ _ same
    exact same.symm
  refine ⟨made, again, held, ?_⟩
  calc second.2.heap.lookup 2 "x"
    _ = (first.2.heap.lookup 1 "x").map (Value.rename renamed) := moved ▸ names 1 "x"
    _ = some (.integer 7) := congrArg _ held

end Evaluator

end ExprLang
