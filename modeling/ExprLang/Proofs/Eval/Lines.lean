/-
# ExprLang.Proofs.Eval.Lines — evaluation does not look at lines

Trees that are alike, lines aside, are evaluated to values that are, on heaps that
stay so. A value has lines only where it is a function, in the names of its
parameters and in its body; `Value.erase` sets them to zero, and two heaps are
alike if their scopes are linked alike and bind the same names to values that
erase to the same (`Heap.Alike`).

This is evaluation on corresponding data, where nodes correspond that erase to the
same tree and scopes stay where they are.
-/
import ExprLang.Node.Alike
import ExprLang.Proofs.Eval.Correspondence

namespace ExprLang

set_option autoImplicit false

/-- The value with every line set to zero. -/
def Value.erase : Value → Value
  | .function parameters body scope => .function (parameters.map Node.eraseName) body.erase scope
  | .returned value => .returned value.erase
  | other => other

/-- Two heaps with the same scopes in the same places, lines aside. -/
structure Heap.Alike (heap other : Heap) : Prop where
  outer : ∀ place, (heap.scope? place).map Scope.outer = (other.scope? place).map Scope.outer
  bound : ∀ place name,
    ((heap.scope? place).bind (·.find? name)).map Value.erase =
      ((other.scope? place).bind (·.find? name)).map Value.erase

namespace Heap.Alike

variable {heap other : Heap}

theorem refl (heap : Heap) : heap.Alike heap := ⟨fun _ => rfl, fun _ _ => rfl⟩

/-- The same scopes are there. -/
theorem next_eq (alike : heap.Alike other) : heap.next = other.next := by
  have found (heap : Heap) (place : ScopeId) :
      ((heap.scope? place).map Scope.outer).isSome = true ↔ place < heap.next := by
    rw [Option.isSome_map]
    simp [Heap.scope?, Heap.next, Array.getElem?_eq_some_iff, Option.isSome_iff_exists]
  have same (place : ScopeId) : place < heap.next ↔ place < other.next := by
    rw [← found, alike.outer, found]
  exact Nat.le_antisymm (Nat.le_of_not_lt fun less => Nat.lt_irrefl _ ((same _).1 less))
    (Nat.le_of_not_lt fun less => Nat.lt_irrefl _ ((same _).2 less))

end Heap.Alike

namespace Node

theorem eraseName_eq_iff {name other : Name} :
    eraseName name = eraseName other ↔ name.text = other.text := by
  simp [eraseName]

theorem eraseNames_eq_iff {names others : List Name} :
    names.map eraseName = others.map eraseName ↔
      List.Forall₂ (fun name other => name.text = other.text) names others := by
  rw [← List.forall₂_eq_eq_eq, List.forall₂_map_left_iff, List.forall₂_map_right_iff]
  simp only [eraseName_eq_iff]

theorem eraseAll_eq_iff {nodes others : List Node} :
    eraseAll nodes = eraseAll others ↔
      List.Forall₂ (fun node other => node.erase = other.erase) nodes others := by
  rw [eraseAll_eq_map, eraseAll_eq_map, ← List.forall₂_eq_eq_eq, List.forall₂_map_left_iff,
    List.forall₂_map_right_iff]

/-- Trees that erase to the same tree are of one form, with parts that do. -/
theorem matches_of_erase {first second : Node} (same : first.erase = second.erase) :
    first.Matches (fun node other => node.erase = other.erase)
      (fun name other => name.text = other.text) second := by
  cases first with
  | program statements =>
      cases second <;> simp only [erase, program.injEq, reduceCtorEq] at same
      exact .program (eraseAll_eq_iff.1 same)
  | block line statements =>
      cases second <;> simp only [erase, block.injEq, reduceCtorEq] at same
      exact .block (eraseAll_eq_iff.1 same.2)
  | letStatement line name value =>
      cases second <;> simp only [erase, letStatement.injEq, reduceCtorEq] at same
      exact .letStatement (eraseName_eq_iff.1 same.2.1) same.2.2
  | returnStatement line value =>
      cases second <;> simp only [erase, returnStatement.injEq, reduceCtorEq] at same
      exact .returnStatement same.2
  | expressionStatement line expression =>
      cases second <;> simp only [erase, expressionStatement.injEq, reduceCtorEq] at same
      exact .expressionStatement same.2
  | identifier name =>
      cases second <;> simp only [erase, identifier.injEq, reduceCtorEq] at same
      exact .identifier (eraseName_eq_iff.1 same)
  | integer line value =>
      cases second <;> simp only [erase, integer.injEq, reduceCtorEq] at same
      cases same.2
      exact .integer
  | boolean line value =>
      cases second <;> simp only [erase, boolean.injEq, reduceCtorEq] at same
      cases same.2
      exact .boolean
  | prefixed line operator operand =>
      cases second <;> simp only [erase, prefixed.injEq, reduceCtorEq] at same
      obtain ⟨-, rfl, inner⟩ := same
      exact .prefixed inner
  | binary line left operator right =>
      cases second <;> simp only [erase, binary.injEq, reduceCtorEq] at same
      obtain ⟨-, left, rfl, right⟩ := same
      exact .binary left right
  | ifThen line condition consequence =>
      cases second <;> simp only [erase, ifThen.injEq, reduceCtorEq] at same
      exact .ifThen same.2.1 same.2.2
  | ifElse line condition consequence alternative =>
      cases second <;> simp only [erase, ifElse.injEq, reduceCtorEq] at same
      exact .ifElse same.2.1 same.2.2.1 same.2.2.2
  | function line parameters body =>
      cases second <;> simp only [erase, function.injEq, reduceCtorEq] at same
      exact .function (eraseNames_eq_iff.1 same.2.1) same.2.2
  | call line callee arguments =>
      cases second <;> simp only [erase, call.injEq, reduceCtorEq] at same
      exact .call same.2.1 (eraseAll_eq_iff.1 same.2.2)
  | sequence items =>
      cases second <;> simp only [erase, sequence.injEq, reduceCtorEq] at same
      exact .sequence
  | foreign value =>
      cases second <;> simp only [erase, foreign.injEq, reduceCtorEq] at same
      cases same
      exact .foreign

end Node

namespace Correspondence

/-- Lines may differ, and nothing else. -/
def lines : Correspondence where
  node first second := first.erase = second.erase
  name first second := first.text = second.text
  place _ := True
  known _ _ := True
  move := id
  order := id
  layer := Node.matches_of_erase
  text := id
  matter _ _ := trivial

/-- Corresponding values erase to the same. -/
theorem erase_of_values {first second : Value} (values : lines.Values first second) :
    first.erase = second.erase := by
  induction values with
  | returned _ ih => exact congrArg Value.returned ih
  | function scope named inner =>
      have names := Node.eraseNames_eq_iff.2 named
      have body : _ = _ := inner
      rw [Value.erase, Value.erase, names, body]
      rfl
  | _ => rfl

theorem erase_of_ends {first second : Except EvalFault Value} (ends : lines.Ends first second) :
    first.map Value.erase = second.map Value.erase := by
  cases ends with
  | ok values => exact congrArg Except.ok (erase_of_values values)
  | error fault => rfl

theorem erase_of_held {first second : Option Value}
    (held : Option.Rel lines.Values first second) :
    first.map Value.erase = second.map Value.erase := by
  cases held with
  | none => rfl
  | some values => exact congrArg some (erase_of_values values)

theorem alike_of_heaps {first second : Heap} (heaps : lines.Heaps first second) :
    first.Alike second where
  outer place := by
    have outer := (rel_scopes_iff.1 (heaps.scopes place trivial)).1
    simpa [lines] using outer.symm
  bound place name := erase_of_held ((rel_scopes_iff.1 (heaps.scopes place trivial)).2.2 name trivial)

/-- Values that erase to the same correspond. -/
theorem values_of_erase {first second : Value} (same : first.erase = second.erase) :
    lines.Values first second := by
  induction first generalizing second with
  | returned value ih =>
      cases second <;> simp only [Value.erase, Value.returned.injEq, reduceCtorEq] at same
      exact .returned (ih same)
  | function parameters body scope =>
      cases second <;> simp only [Value.erase, Value.function.injEq, reduceCtorEq] at same
      obtain ⟨named, inner, rfl⟩ := same
      exact .function trivial (Node.eraseNames_eq_iff.1 named) inner
  | integer value =>
      cases second <;> simp only [Value.erase, Value.integer.injEq, reduceCtorEq] at same
      exact same ▸ .integer value
  | boolean value =>
      cases second <;> simp only [Value.erase, Value.boolean.injEq, reduceCtorEq] at same
      exact same ▸ .boolean value
  | error cause =>
      cases second <;> simp only [Value.erase, Value.error.injEq, reduceCtorEq] at same
      exact same ▸ .error cause
  | null =>
      cases second <;> simp only [Value.erase, reduceCtorEq] at same
      exact .null
  | object =>
      cases second <;> simp only [Value.erase, reduceCtorEq] at same
      exact .object

theorem held_of_erase {first second : Option Value}
    (same : first.map Value.erase = second.map Value.erase) :
    Option.Rel lines.Values first second := by
  cases first <;> cases second <;>
    simp only [Option.map_none, Option.map_some, Option.some.injEq, reduceCtorEq] at same
  · exact .none
  · exact .some (values_of_erase same)

/-- Heaps that are alike correspond. -/
theorem heaps_of_alike {first second : Heap} (alike : first.Alike second) :
    lines.Heaps first second where
  scopes place _ := by
    refine rel_scopes_iff.2 ⟨?_, fun _ _ _ _ => trivial, fun name _ => ?_⟩
    · simpa [lines] using (alike.outer place).symm
    · exact held_of_erase (alike.bound place name)
  fresh _ _ := trivial
  next later := congrArg (· + later) alike.next_eq

end Correspondence

/-- **Evaluation does not look at lines**, be they those of the node or those of the
functions on the heap. -/
theorem Evaluator.within_alike (evaluator : Evaluator) (levels : Nat) {node other : Node}
    (same : node.erase = other.erase) (scope : ScopeId) {machine machine' : Machine}
    (alike : machine.heap.Alike machine'.heap) (depth : machine'.depth = machine.depth)
    (callDepth : machine'.callDepth = machine.callDepth) :
    (evaluator.evaluateWithin levels node scope machine).1.map Value.erase =
        (evaluator.evaluateWithin levels other scope machine').1.map Value.erase ∧
      (evaluator.evaluateWithin levels node scope machine).2.heap.Alike
        (evaluator.evaluateWithin levels other scope machine').2.heap := by
  have placed : Correspondence.lines.place scope := trivial
  obtain ⟨ends, machines⟩ := Correspondence.evaluate_corresponds .lines evaluator levels placed same
    machine machine' ⟨Correspondence.heaps_of_alike alike, depth, callDepth⟩
  exact ⟨Correspondence.erase_of_ends ends, Correspondence.alike_of_heaps machines.heap⟩

end ExprLang
