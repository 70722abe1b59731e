/-
# ExprLang.Proofs.Eval.Balanced — the counters are counted back

A node counts itself in while it is evaluated and a call counts itself in while
its body is, and both count themselves out again however that ends: with a value,
with a signal or with a fault. So every evaluation leaves the two counters as it
found them, and what a machine is after an evaluation is told by its heap alone
(`within_balanced`).
-/
import ExprLang.Proofs.Eval.Ordered

namespace ExprLang

set_option autoImplicit false

/-- The machines are inside of as many nodes and calls. -/
structure Machine.Level (machine other : Machine) : Prop where
  depth : other.depth = machine.depth
  callDepth : other.callDepth = machine.callDepth

namespace Machine.Level

variable {machine middle after : Machine}

theorem refl (machine : Machine) : machine.Level machine := ⟨rfl, rfl⟩

theorem trans (first : machine.Level middle) (second : middle.Level after) :
    machine.Level after :=
  ⟨second.depth.trans first.depth, second.callDepth.trans first.callDepth⟩

/-- Of machines on one level, only the heaps can differ. -/
theorem eq_of_heap (level : machine.Level after) : after = { machine with heap := after.heap } := by
  obtain ⟨heap, depth, callDepth⟩ := after
  obtain ⟨rfl, rfl⟩ := level
  rfl

end Machine.Level

/-- However the step ends, the counters are as they were. -/
def Eval.Balanced {α : Type} (step : Eval α) : Prop :=
  ∀ machine : Machine, machine.Level (step machine).2

namespace Evaluator

open Eval

theorem balanced_unlessSignal {step : Eval Value} {next : Value → Eval Value}
    (first : step.Balanced) (later : ∀ value, (next value).Balanced) :
    (unlessSignal step next).Balanced := by
  intro machine
  have reached := first machine
  rw [unlessSignal_apply]
  generalize step machine = ended at reached ⊢
  rcases ended with ⟨fault | value, after⟩
  · exact reached
  · dsimp only
    split
    · exact reached
    · exact reached.trans (later value after)

section Forms

variable {inner : Inner} (inside : ∀ node scope, (inner node scope).Balanced)

include inside

theorem balanced_withArguments (scope : ScopeId) (nodes : List Node)
    {next : List Value → Eval Value} (last : ∀ values, (next values).Balanced) :
    (withArguments inner scope nodes next).Balanced := by
  induction nodes generalizing next with
  | nil => exact last []
  | cons node nodes ih =>
      exact balanced_unlessSignal (inside node scope) fun value =>
        ih fun values => last (value :: values)

/-- A call is counted back when its body has ended. -/
theorem balanced_enter (parameters : List Name) (body : Node) (outer : ScopeId)
    (values : List Value) : (enter inner parameters body outer values).Balanced := by
  intro machine
  have reached := inside body machine.heap.next
    { machine with
      heap := machine.heap.add (callScope parameters values outer)
      callDepth := machine.callDepth + 1 }
  exact ⟨reached.depth, congrArg (· - 1) reached.callDepth⟩

theorem balanced_apply (evaluator : Evaluator) (callee : Value) (values : List Value) :
    (evaluator.apply inner callee values).Balanced := by
  intro machine
  rcases apply_cases evaluator inner callee values machine with
    ⟨cause, ended⟩ | ⟨parameters, body, outer, -, -, ⟨-, ended⟩ | ⟨-, entered⟩⟩
  · rw [ended]
    exact .refl machine
  · rw [ended]
    exact .refl machine
  · rw [entered]
    exact balanced_enter inside parameters body outer values machine

theorem balanced_finish (evaluator : Evaluator) (node : Node) (scope : ScopeId)
    (values : List Value) : (evaluator.finish inner node scope values).Balanced := by
  rcases evaluator.finish_cases node scope values with
    ⟨branch, taken⟩ | ⟨callee, given, applied⟩ | finished
  · rw [taken]
    exact inside branch scope
  · rw [applied]
    exact balanced_apply inside evaluator callee given
  · intro machine
    rw [finished.heap inner machine]
    exact ⟨rfl, rfl⟩

theorem balanced_form (evaluator : Evaluator) (node : Node) (scope : ScopeId) :
    (evaluator.form inner node scope).Balanced := by
  intro machine
  rw [form_eq]
  exact balanced_withArguments inside scope node.ordered
    (balanced_finish inside evaluator node scope) machine

/-- A node is counted back when its form has ended. -/
theorem balanced_visit (evaluator : Evaluator) (node : Node) (scope : ScopeId) :
    (evaluator.visit inner node scope).Balanced := by
  intro machine
  have reached := balanced_form inside evaluator node scope
    { machine with depth := machine.depth + 1 }
  have counted : machine.Level { (evaluator.form inner node scope
      { machine with depth := machine.depth + 1 }).2 with
        depth := (evaluator.form inner node scope
          { machine with depth := machine.depth + 1 }).2.depth - 1 } :=
    ⟨congrArg (· - 1) reached.depth, reached.callDepth⟩
  unfold visit
  split
  · exact .refl machine
  · dsimp only
    split
    · split
      · exact counted
      · exact counted
    · exact counted

end Forms

/-- **An evaluation leaves the counters as it found them.** -/
theorem within_balanced (evaluator : Evaluator) (levels : Nat) (node : Node) (scope : ScopeId) :
    (evaluator.evaluateWithin levels node scope).Balanced := by
  induction levels generalizing node scope with
  | zero => exact Machine.Level.refl
  | succ levels ih => exact balanced_visit ih evaluator node scope

/-- What passes one after the other leaves the counters too. -/
theorem Passes.level {evaluator : Evaluator} {levels : Nat} {scope : ScopeId} {nodes : List Node}
    {machine after : Machine} {values : List Value}
    (passed : Passes (evaluator.evaluateWithin levels) scope nodes machine values after) :
    machine.Level after := by
  induction passed with
  | nil => exact .refl _
  | @cons node _ _ _ machine _ _ ended _ _ ih =>
      have reached := within_balanced evaluator levels node scope machine
      rw [ended] at reached
      exact reached.trans ih

end Evaluator

end ExprLang
