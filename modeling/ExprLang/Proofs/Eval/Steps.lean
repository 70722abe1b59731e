/-
# ExprLang.Proofs.Eval.Steps — what an evaluation step can do to the heap

Evaluation reaches the heap in three ways: it evaluates the parts of a node in
the node's own scope, it binds the name of a `let` there, and it applies a
value. `form_carries` says so once for all forms: a relation on heaps that is
reflexive and transitive and holds across these three holds across the
evaluation of the node, however that ends. `visit_carries` takes it through the
depth guard.
-/
import ExprLang.Eval.Evaluate

namespace ExprLang

set_option autoImplicit false

namespace Node

/-- The nodes that a node evaluates in its own scope, in order. The body of a
function literal is not among them. -/
def parts : Node → List Node
  | .program statements => statements
  | .block _ statements => statements
  | .letStatement _ _ value => [value]
  | .returnStatement _ value => [value]
  | .expressionStatement _ expression => [expression]
  | .prefixed _ _ operand => [operand]
  | .binary _ left _ right => [left, right]
  | .ifThen _ condition consequence => [condition, consequence]
  | .ifElse _ condition consequence alternative => [condition, consequence, alternative]
  | .call _ callee arguments => callee :: arguments
  | .identifier _ | .integer .. | .boolean .. | .function .. | .sequence _ | .foreign _ => []

/-- The name that a node itself binds. -/
def bound? : Node → Option String
  | .letStatement _ name _ => some name.text
  | _ => none

end Node

/-- Whether a step goes on is decided by its value alone. -/
theorem Eval.unlessSignal_apply (step : Eval Value) (next : Value → Eval Value)
    (machine : Machine) :
    Eval.unlessSignal step next machine =
      match step machine with
      | (.ok value, after) => if value.isSignal then (.ok value, after) else next value after
      | (.error fault, after) => (.error fault, after) := by
  change Eval.andThen step _ _ = _
  unfold Eval.andThen
  rcases step machine with ⟨fault | value, after⟩
  · rfl
  · by_cases signals : value.isSignal
    · simp [signals]
      rfl
    · simp [signals]

/-- A program runs like a block and lets a `return` arrive. -/
theorem Evaluator.runProgram_eq {inner : Evaluator.Inner} {scope : ScopeId}
    (statements : List Node) (last : Value) (arrives : last.arrived = last) (machine : Machine) :
    Evaluator.runProgram inner scope statements last machine =
      ((Evaluator.runBlock inner scope statements last machine).1.map Value.arrived,
        (Evaluator.runBlock inner scope statements last machine).2) := by
  induction statements generalizing last machine with
  | nil => simp [Evaluator.runProgram, Evaluator.runBlock, Eval.done, Except.map, arrives]
  | cons statement rest ih =>
      change Eval.andThen _ _ _ = ((Eval.andThen _ _ _).1.map _, (Eval.andThen _ _ _).2)
      unfold Eval.andThen
      rcases inner statement scope machine with ⟨fault | value, after⟩
      · rfl
      · dsimp only
        split
        · rfl
        · next quiet =>
          refine ih value ?_ after
          cases value <;> first | rfl | simp [Value.isSignal] at quiet

namespace Eval

variable {α β : Type} {relation : Heap → Heap → Prop}

/-- However the step ends, the heap it found and the heap it leaves are related. -/
def Carries (relation : Heap → Heap → Prop) (step : Eval α) : Prop :=
  ∀ machine, relation machine.heap (step machine).2.heap

theorem Carries.mono {wider : Heap → Heap → Prop} {step : Eval α}
    (carries : Carries relation step)
    (wide : ∀ before after, relation before after → wider before after) : Carries wider step :=
  fun machine => wide _ _ (carries machine)

theorem Carries.done (refl : ∀ heap, relation heap heap) (result : α) :
    Carries relation (Eval.done result) :=
  fun machine => refl machine.heap

theorem Carries.breakOff (refl : ∀ heap, relation heap heap) (fault : EvalFault) :
    Carries relation (Eval.breakOff fault : Eval α) :=
  fun machine => refl machine.heap

theorem Carries.ofExcept (refl : ∀ heap, relation heap heap) (result : Except EvalFault α) :
    Carries relation (Eval.ofExcept result) :=
  fun machine => refl machine.heap

theorem Carries.lookup (refl : ∀ heap, relation heap heap) (scope : ScopeId) (name : String) :
    Carries relation (Eval.lookup scope name) := by
  intro machine
  unfold Eval.lookup
  split
  · exact refl machine.heap
  · exact refl machine.heap

theorem Carries.andThen
    (trans : ∀ first second third, relation first second → relation second third →
      relation first third)
    {step : Eval α} {next : α → Eval β} (first : Carries relation step)
    (second : ∀ result, Carries relation (next result)) :
    Carries relation (step.andThen next) := by
  intro machine
  have reached := first machine
  unfold Eval.andThen
  split
  · next result after ended =>
    rw [ended] at reached
    exact trans _ _ _ reached (second result after)
  · next fault after ended =>
    rw [ended] at reached
    exact reached

section Forms

variable (refl : ∀ heap, relation heap heap)
  (trans : ∀ first second third, relation first second → relation second third →
    relation first third)

include refl trans

theorem Carries.unlessSignal {step : Eval Value} {next : Value → Eval Value}
    (first : Carries relation step) (second : ∀ value, Carries relation (next value)) :
    Carries relation (Eval.unlessSignal step next) := by
  refine first.andThen trans fun value => ?_
  split
  · exact .done refl value
  · exact second value

variable {inner : Evaluator.Inner} {scope : ScopeId}

theorem Carries.runProgram (statements : List Node) (last : Value)
    (each : ∀ statement ∈ statements, Carries relation (inner statement scope)) :
    Carries relation (Evaluator.runProgram inner scope statements last) := by
  induction statements generalizing last with
  | nil => exact .done refl last
  | cons statement rest ih =>
      refine (each statement (by simp)).andThen trans fun value => ?_
      split
      · exact .done refl value.arrived
      · exact ih value fun later member => each later (by simp [member])

theorem Carries.runBlock (statements : List Node) (last : Value)
    (each : ∀ statement ∈ statements, Carries relation (inner statement scope)) :
    Carries relation (Evaluator.runBlock inner scope statements last) := by
  induction statements generalizing last with
  | nil => exact .done refl last
  | cons statement rest ih =>
      refine (each statement (by simp)).andThen trans fun value => ?_
      split
      · exact .done refl value
      · exact ih value fun later member => each later (by simp [member])

theorem Carries.withArguments (arguments : List Node) (next : List Value → Eval Value)
    (each : ∀ argument ∈ arguments, Carries relation (inner argument scope))
    (last : ∀ values, Carries relation (next values)) :
    Carries relation (Evaluator.withArguments inner scope arguments next) := by
  induction arguments generalizing next with
  | nil => exact last []
  | cons argument rest ih =>
      refine .unlessSignal refl trans (each argument (by simp)) fun value => ?_
      exact ih _ (fun later member => each later (by simp [member])) fun values =>
        last (value :: values)

/-- What a node does to the heap is what its parts, its binding and the values it
applies do to it. -/
theorem form_carries (evaluator : Evaluator) (node : Node)
    (parts : ∀ part ∈ node.parts, Carries relation (inner part scope))
    (binds : ∀ name ∈ node.bound?, ∀ value, Carries relation (Eval.bindName scope name value))
    (applies : ∀ callee values, Carries relation (evaluator.apply inner callee values)) :
    Carries relation (evaluator.form inner node scope) := by
  cases node with
  | program statements => exact .runProgram refl trans statements .null parts
  | block line statements => exact .runBlock refl trans statements .null parts
  | letStatement line name value =>
      refine .unlessSignal refl trans (parts value (by simp [Node.parts])) fun result => ?_
      exact (binds name.text rfl result).andThen trans fun _ => .done refl Value.null
  | returnStatement line value =>
      exact .unlessSignal refl trans (parts value (by simp [Node.parts])) fun result =>
        .done refl (Value.returned result)
  | expressionStatement line expression => exact parts expression (by simp [Node.parts])
  | identifier name => exact .lookup refl scope name.text
  | integer line value => exact .done refl (Value.integer value)
  | boolean line value => exact .done refl (Value.boolean value)
  | prefixed line operator operand =>
      exact .unlessSignal refl trans (parts operand (by simp [Node.parts])) fun value =>
        .done refl (Operator.applyPrefix operator value)
  | binary line left operator right =>
      refine .unlessSignal refl trans (parts left (by simp [Node.parts])) fun leftValue => ?_
      exact .unlessSignal refl trans (parts right (by simp [Node.parts])) fun rightValue =>
        .ofExcept refl (Operator.applyInfix operator leftValue rightValue)
  | ifThen line condition consequence =>
      refine .unlessSignal refl trans (parts condition (by simp [Node.parts])) fun value => ?_
      split
      · exact parts consequence (by simp [Node.parts])
      · exact .done refl Value.null
  | ifElse line condition consequence alternative =>
      refine .unlessSignal refl trans (parts condition (by simp [Node.parts])) fun value => ?_
      split
      · exact parts consequence (by simp [Node.parts])
      · exact parts alternative (by simp [Node.parts])
  | function line parameters body => exact .done refl (Value.function parameters body scope)
  | call line callee arguments =>
      refine .unlessSignal refl trans (parts callee (by simp [Node.parts])) fun target => ?_
      refine .withArguments refl trans arguments _ (fun argument member => ?_) (applies target)
      exact parts argument (by simp [Node.parts, member])
  | sequence items => exact .breakOff refl _
  | foreign value => exact .breakOff refl _

omit trans in
/-- The depth guard does nothing to the heap. -/
theorem visit_carries (evaluator : Evaluator) (node : Node)
    (formed : Carries relation (evaluator.form inner node scope)) :
    Carries relation (evaluator.visit inner node scope) := by
  intro machine
  have reached := formed { machine with depth := machine.depth + 1 }
  unfold Evaluator.visit
  split
  · exact Carries.ofExcept refl _ machine
  · dsimp only
    split
    · split
      · exact reached
      · exact reached
    · exact reached

end Forms

end Eval

end ExprLang
