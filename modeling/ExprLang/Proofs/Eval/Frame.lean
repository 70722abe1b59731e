/-
# ExprLang.Proofs.Eval.Frame — which scopes an evaluation writes to

Scopes are shared: a function keeps the scope it was written in, and many
functions may keep the same one. Still an evaluation writes to one existing
scope only, the one it runs in, and there only to names that a `let` of the node
mentions outside every function literal (`Node.letNames`). `Heap.Frame` says
this of a heap before and after; a call writes to no existing scope at all
(`Heap.Untouched`), because its body runs in a scope made for it.

`within_frame` proves both by induction on the levels of stack, with no case
split on how the evaluation ends: a value, a signal and a fault leave the same
guarantee behind.
-/
import ExprLang.Proofs.Eval.Steps

namespace ExprLang

set_option autoImplicit false

namespace Node

mutual

/-- The names that a node binds by `let`, outside every function literal. -/
def letNames : Node → List String
  | .program statements => letNamesAll statements
  | .block _ statements => letNamesAll statements
  | .letStatement _ name value => name.text :: value.letNames
  | .returnStatement _ value => value.letNames
  | .expressionStatement _ expression => expression.letNames
  | .prefixed _ _ operand => operand.letNames
  | .binary _ left _ right => left.letNames ++ right.letNames
  | .ifThen _ condition consequence => condition.letNames ++ consequence.letNames
  | .ifElse _ condition consequence alternative =>
      condition.letNames ++ (consequence.letNames ++ alternative.letNames)
  | .call _ callee arguments => callee.letNames ++ letNamesAll arguments
  | .identifier _ | .integer .. | .boolean .. | .function .. | .sequence _ | .foreign _ => []

/-- The names that the nodes of a list bind by `let`. -/
def letNamesAll : List Node → List String
  | [] => []
  | node :: rest => node.letNames ++ letNamesAll rest

end

theorem letNames_subset_all {node : Node} {nodes : List Node} (member : node ∈ nodes) :
    node.letNames ⊆ letNamesAll nodes := by
  induction nodes with
  | nil => cases member
  | cons first rest ih =>
      intro name named
      simp only [letNamesAll, List.mem_append]
      rcases List.mem_cons.1 member with rfl | later
      · exact Or.inl named
      · exact Or.inr (ih later named)

/-- What a part of a node binds, the node binds. -/
theorem letNames_subset_of_part {part node : Node} (member : part ∈ node.parts) :
    part.letNames ⊆ node.letNames := by
  cases node with
  | program statements => exact letNames_subset_all member
  | block line statements => exact letNames_subset_all member
  | call line callee arguments =>
      intro name named
      simp only [letNames, List.mem_append]
      rcases List.mem_cons.1 member with rfl | later
      · exact Or.inl named
      · exact Or.inr (letNames_subset_all later named)
  | binary line left operator right =>
      simp only [parts, List.mem_cons, List.not_mem_nil, or_false] at member
      rcases member with rfl | rfl <;> simp [letNames]
  | ifThen line condition consequence =>
      simp only [parts, List.mem_cons, List.not_mem_nil, or_false] at member
      rcases member with rfl | rfl <;> simp [letNames]
  | ifElse line condition consequence alternative =>
      simp only [parts, List.mem_cons, List.not_mem_nil, or_false] at member
      rcases member with rfl | rfl | rfl <;> intro name named <;> simp [letNames, named]
  | _ => simp_all [parts, letNames]

theorem bound?_mem_letNames {node : Node} {name : String} (binds : name ∈ node.bound?) :
    name ∈ node.letNames := by
  cases node with
  | letStatement line bound value => simp_all [bound?, letNames]
  | _ => simp [bound?] at binds

end Node

/-- A scope after bindings of some names: its link and its other bindings are as
they were, and no binding is gone. -/
structure Scope.Extends (names : List String) (before after : Scope) : Prop where
  outer : after.outer = before.outer
  kept : ∀ name, (before.find? name).isSome → (after.find? name).isSome
  others : ∀ name, name ∉ names → after.find? name = before.find? name

namespace Scope.Extends

variable {names wider : List String} {first second third : Scope}

theorem refl (scope : Scope) : Scope.Extends names scope scope :=
  ⟨rfl, fun _ found => found, fun _ _ => rfl⟩

theorem trans (earlier : Scope.Extends names first second)
    (later : Scope.Extends names second third) : Scope.Extends names first third where
  outer := later.outer.trans earlier.outer
  kept name found := later.kept name (earlier.kept name found)
  others name absent := (later.others name absent).trans (earlier.others name absent)

theorem mono (extends_ : Scope.Extends names first second) (wide : names ⊆ wider) :
    Scope.Extends wider first second :=
  { extends_ with
    others := fun name absent => extends_.others name fun named => absent (wide named) }

theorem set {name : String} (named : name ∈ names) (scope : Scope) (value : Value) :
    Scope.Extends names scope (scope.set name value) where
  outer := scope.outer_set name value
  kept other found := by
    by_cases same : other = name
    · rw [same, scope.find?_set_self]
      rfl
    · rwa [scope.find?_set_of_ne value same]
  others other absent := by
    have different : other ≠ name := fun same => absent (same ▸ named)
    exact scope.find?_set_of_ne value different

end Scope.Extends

namespace Heap

theorem next_add (heap : Heap) (scope : Scope) : (heap.add scope).next = heap.next + 1 := by
  simp [next, add]

theorem next_set (heap : Heap) (place : ScopeId) (name : String) (value : Value) :
    (heap.set place name value).next = heap.next := by
  simp [next, set]

theorem lt_next_of_scope? {heap : Heap} {place : ScopeId} {scope : Scope}
    (found : heap.scope? place = some scope) : place < heap.next := by
  obtain ⟨bound, -⟩ := Array.getElem?_eq_some_iff.1 found
  exact bound

/-- Every scope that was there is as it was. -/
structure Untouched (before after : Heap) : Prop where
  grows : before.next ≤ after.next
  all : ∀ place, place < before.next → after.scope? place = before.scope? place

/-- Every scope that was there is as it was, but for the bindings of some names
in one of them. -/
structure Frame (scope : ScopeId) (names : List String) (before after : Heap) : Prop where
  grows : before.next ≤ after.next
  others : ∀ place, place < before.next → place ≠ scope →
    after.scope? place = before.scope? place
  own : ∀ held, before.scope? scope = some held →
    ∃ left, after.scope? scope = some left ∧ held.Extends names left

theorem Untouched.refl (heap : Heap) : Untouched heap heap := ⟨Nat.le_refl _, fun _ _ => rfl⟩

theorem Untouched.frame {before after : Heap} (untouched : Untouched before after)
    (scope : ScopeId) (names : List String) : Frame scope names before after where
  grows := untouched.grows
  others place existed _ := untouched.all place existed
  own held found :=
    ⟨held, (untouched.all scope (lt_next_of_scope? found)).trans found, .refl held⟩

namespace Frame

variable {scope : ScopeId} {names wider : List String} {first second third : Heap}

theorem refl (heap : Heap) : Frame scope names heap heap := (Untouched.refl heap).frame scope names

theorem trans (earlier : Frame scope names first second)
    (later : Frame scope names second third) : Frame scope names first third where
  grows := Nat.le_trans earlier.grows later.grows
  others place existed different :=
    (later.others place (Nat.lt_of_lt_of_le existed earlier.grows) different).trans
      (earlier.others place existed different)
  own held found := by
    obtain ⟨middle, reached, extended⟩ := earlier.own held found
    obtain ⟨left, ended, extended'⟩ := later.own middle reached
    exact ⟨left, ended, extended.trans extended'⟩

theorem mono (frame : Frame scope names first second) (wide : names ⊆ wider) :
    Frame scope wider first second where
  grows := frame.grows
  others := frame.others
  own held found := by
    obtain ⟨left, ended, extended⟩ := frame.own held found
    exact ⟨left, ended, extended.mono wide⟩

theorem set {name : String} (named : name ∈ names) (heap : Heap) (value : Value) :
    Frame scope names heap (heap.set scope name value) where
  grows := Nat.le_of_eq (heap.next_set scope name value).symm
  others place _ different := by
    rw [scope?_set, if_neg (Ne.symm different)]
  own held found := by
    refine ⟨held.set name value, ?_, .set named held value⟩
    rw [scope?_set, if_pos rfl, found]
    rfl

/-- What is written to a scope that was just added touches nothing older. -/
theorem untouched_of_add {added : Scope} {before after : Heap}
    (frame : Frame before.next names (before.add added) after) : Untouched before after where
  grows := by
    have grown := frame.grows
    rw [next_add] at grown
    exact Nat.le_of_succ_le grown
  all place existed := by
    have different : place ≠ before.next := Nat.ne_of_lt existed
    have existed' : place < (before.add added).next := by
      rw [next_add]
      exact Nat.lt_succ_of_lt existed
    rw [frame.others place existed' different, scope?_add, if_neg different]

end Frame

end Heap

namespace Evaluator

open Eval Heap

/-- Evaluation one level deeper keeps to its frame. -/
def Framed (inner : Inner) : Prop :=
  ∀ node scope, Carries (Frame scope node.letNames) (inner node scope)

/-- A call of any value with any arguments touches no existing scope. -/
theorem Framed.apply {inner : Inner} (framed : Framed inner) (evaluator : Evaluator)
    (callee : Value) (values : List Value) :
    Carries Untouched (evaluator.apply inner callee values) := by
  intro machine
  unfold Evaluator.apply
  split
  · next parameters body outer =>
    split
    · exact .refl machine.heap
    split
    · exact .refl machine.heap
    · let entered : Machine :=
        { machine with
          heap := machine.heap.add (callScope parameters values outer)
          callDepth := machine.callDepth + 1 }
      exact (framed body machine.heap.next entered).untouched_of_add
  · exact .refl machine.heap

theorem Framed.visit {inner : Inner} (framed : Framed inner) (evaluator : Evaluator) :
    Framed (evaluator.visit inner) := by
  intro node scope
  refine visit_carries Frame.refl evaluator node ?_
  refine form_carries Frame.refl (fun _ _ _ => Frame.trans) evaluator node ?_ ?_ ?_
  · intro part member
    exact (framed part scope).mono fun _ _ frame =>
      frame.mono (Node.letNames_subset_of_part member)
  · intro name binds value machine
    exact .set (Node.bound?_mem_letNames binds) machine.heap value
  · intro callee values
    exact (framed.apply evaluator callee values).mono fun _ _ untouched =>
      untouched.frame scope node.letNames

theorem within_framed (evaluator : Evaluator) (levels : Nat) :
    Framed (evaluator.evaluateWithin levels) := by
  induction levels with
  | zero => exact fun node scope => .breakOff Frame.refl .stackExhausted
  | succ levels ih => exact ih.visit evaluator

/-- **Evaluation writes to its own scope only.** Whatever the node, the heap, the
limits, the counters and the stack, and however the evaluation ends, it keeps to
its frame; and a call of any value with any arguments leaves every existing scope
as it was. -/
theorem evaluate_frame (evaluator : Evaluator) (levels : Nat) (machine : Machine) :
    (∀ node scope, Frame scope node.letNames machine.heap
      (evaluator.evaluateWithin levels node scope machine).2.heap) ∧
    (∀ callee values, Untouched machine.heap
      (evaluator.apply (evaluator.evaluateWithin levels) callee values machine).2.heap) :=
  ⟨fun node scope => within_framed evaluator levels node scope machine,
    fun callee values => (within_framed evaluator levels).apply evaluator callee values machine⟩

end Evaluator

end ExprLang
