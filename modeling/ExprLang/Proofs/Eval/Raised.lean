/-
# ExprLang.Proofs.Eval.Raised — evaluation under higher limits

A limit is looked at in two places: before a node is entered and before the body
of a function is. Where a limit is reached the answer is an error, and an error
is a signal: no node makes an ordinary value of it, so it is also the value of
everything around it. Two evaluators that differ in their limits therefore go the
same way until the lower limit speaks up, and if it does, that is what the whole
evaluation ends in.

`Persists` states this of two steps, "the first exceeds a limit, or the second
does the same", and each way to put steps together keeps it.
-/
import ExprLang.Proofs.Eval.Ordered

namespace ExprLang

set_option autoImplicit false

namespace Evaluator

open Eval

/-- The limits of the second evaluator are at least those of the first. -/
structure Raises (evaluator raised : Evaluator) : Prop where
  file : raised.file = evaluator.file
  calls : evaluator.maxCallDepth ≤ raised.maxCallDepth
  depth : evaluator.maxDepth ≤ raised.maxDepth

/-- What comes of reaching one of the evaluator's limits: the error that names it, or
the fault if it cannot be written. -/
def Exceeded (evaluator : Evaluator) (result : Except EvalFault Value) : Prop :=
  result = worded .callDepth evaluator.maxCallDepth ∨
    result = worded .evalDepth evaluator.maxDepth

/-- From every machine the first step exceeds a limit of the evaluator, or the
second does the same. -/
def Persists (evaluator : Evaluator) (step step' : Eval Value) : Prop :=
  ∀ machine, evaluator.Exceeded (step machine).1 ∨ step' machine = step machine

section Steps

variable {evaluator : Evaluator} {step step' : Eval Value}

theorem Exceeded.ends {result : Except EvalFault Value} (exceeded : evaluator.Exceeded result) :
    (∃ cause, result = .ok (.error cause)) ∨ result = .error .tooLong := by
  rcases exceeded with rfl | rfl
  · exact (worded_cases _ _).imp_left fun same => ⟨_, same⟩
  · exact (worded_cases _ _).imp_left fun same => ⟨_, same⟩

/-- What leaves errors alone leaves an exceeded limit alone. -/
theorem Exceeded.map {result : Except EvalFault Value} (exceeded : evaluator.Exceeded result)
    {change : Value → Value} (errors : ∀ cause, change (.error cause) = .error cause) :
    evaluator.Exceeded (result.map change) := by
  have same : result.map change = result := by
    rcases exceeded.ends with ⟨cause, rfl⟩ | rfl
    · exact congrArg Except.ok (errors cause)
    · rfl
  rwa [same]

theorem Persists.refl (step : Eval Value) : evaluator.Persists step step :=
  fun _ => .inr rfl

/-- An exceeded limit is a signal, so nothing comes after it. -/
theorem Persists.unlessSignal {next next' : Value → Eval Value}
    (first : evaluator.Persists step step')
    (later : ∀ value, evaluator.Persists (next value) (next' value)) :
    evaluator.Persists (unlessSignal step next) (unlessSignal step' next') := by
  intro machine
  rw [unlessSignal_apply, unlessSignal_apply]
  rcases first machine with exceeded | same
  · generalize step machine = ended at exceeded ⊢
    obtain ⟨result, after⟩ := ended
    rcases exceeded.ends with ⟨cause, rfl⟩ | rfl
    · exact .inl exceeded
    · exact .inl exceeded
  · rw [same]
    rcases step machine with ⟨fault | value, after⟩
    · exact .inr rfl
    · dsimp only
      split
      · exact .inr rfl
      · exact later value after

theorem Persists.withArguments {inner inner' : Inner} {scope : ScopeId}
    (inside : ∀ node, evaluator.Persists (inner node scope) (inner' node scope))
    (nodes : List Node) {next next' : List Value → Eval Value}
    (last : ∀ values, evaluator.Persists (next values) (next' values)) :
    evaluator.Persists (withArguments inner scope nodes next)
      (withArguments inner' scope nodes next') := by
  induction nodes generalizing next next' with
  | nil => exact last []
  | cons node nodes ih =>
      exact .unlessSignal (inside node) fun value => ih fun values => last (value :: values)

end Steps

section Forms

variable {evaluator raised : Evaluator} (raises : evaluator.Raises raised) {inner inner' : Inner}
  (inside : ∀ node scope, evaluator.Persists (inner node scope) (inner' node scope))

include inside

omit raises in
/-- A body that exceeds a limit does so for its call. -/
theorem enter_persists (parameters : List Name) (body : Node) (outer : ScopeId)
    (values : List Value) :
    evaluator.Persists (enter inner parameters body outer values)
      (enter inner' parameters body outer values) := by
  intro machine
  unfold enter
  dsimp only
  rcases inside body machine.heap.next
    { machine with
      heap := machine.heap.add (callScope parameters values outer)
      callDepth := machine.callDepth + 1 } with exceeded | same
  · exact .inl (exceeded.map fun _ => rfl)
  · exact .inr (by rw [same])

include raises

/-- A call that the lower limit allows is allowed by the higher one. -/
theorem apply_persists (callee : Value) (values : List Value) :
    evaluator.Persists (evaluator.apply inner callee values)
      (raised.apply inner' callee values) := by
  intro machine
  cases callee with
  | function parameters body outer =>
      by_cases arity : values.length = parameters.length
      · by_cases full : evaluator.maxCallDepth ≤ machine.callDepth
        · exact .inl (.inl (congrArg Prod.fst (apply_of_full arity full)))
        · have room := Int.not_le.1 full
          rw [apply_of_room arity room, apply_of_room arity (Int.lt_of_lt_of_le room raises.calls)]
          exact enter_persists inside parameters body outer values machine
      · refine .inr ?_
        simp [apply, arity]
  | _ => exact .inr rfl

theorem finish_persists (node : Node) (scope : ScopeId) (values : List Value) :
    evaluator.Persists (evaluator.finish inner node scope values)
      (raised.finish inner' node scope values) := by
  rcases evaluator.finish_cases node scope values with
    ⟨branch, taken⟩ | ⟨callee, given, applied⟩ | finished
  · rw [taken, taken]
    exact inside branch scope
  · rw [applied, applied]
    exact apply_persists raises inside callee given
  · rw [finished.same inner inner' raises.file]
    exact .refl _

theorem form_persists (node : Node) (scope : ScopeId) :
    evaluator.Persists (evaluator.form inner node scope) (raised.form inner' node scope) := by
  intro machine
  rw [form_eq, form_eq]
  rcases Persists.withArguments (fun part => inside part scope) node.ordered
    (finish_persists raises inside node scope) machine with exceeded | same
  · refine .inl (exceeded.map fun cause => ?_)
    cases node <;> rfl
  · exact .inr (by rw [same])

/-- A node that the lower limit allows is allowed by the higher one. -/
theorem visit_persists (node : Node) (scope : ScopeId) :
    evaluator.Persists (evaluator.visit inner node scope) (raised.visit inner' node scope) := by
  intro machine
  unfold visit
  by_cases full : evaluator.maxDepth ≤ machine.depth
  · rw [if_pos full]
    exact .inl (.inr rfl)
  · have room : ¬ raised.maxDepth ≤ machine.depth :=
      fun reached => full (Int.le_trans raises.depth reached)
    rw [if_neg full, if_neg room]
    rcases form_persists raises inside node scope { machine with depth := machine.depth + 1 } with
      exceeded | same
    · dsimp only
      rcases exceeded.ends with ⟨cause, ended⟩ | ended
      · rw [ended] at exceeded ⊢
        exact .inl exceeded
      · rw [ended] at exceeded ⊢
        exact .inl exceeded
    · exact .inr (by rw [same])

end Forms

theorem within_persists {evaluator raised : Evaluator} (raises : evaluator.Raises raised)
    (levels : Nat) (node : Node) (scope : ScopeId) :
    evaluator.Persists (evaluator.evaluateWithin levels node scope)
      (raised.evaluateWithin levels node scope) := by
  induction levels generalizing node scope with
  | zero => exact .refl _
  | succ levels ih => exact visit_persists raises ih node scope

/-- **Raised limits change nothing that did not hit them.** An evaluation that
does not end in what is said of one of its limits, the error that names it or the
fault if it cannot be written, gives the same value, error or fault under limits at
least as high, and leaves the same machine behind, its heap of scopes included. -/
theorem evaluate_eq_of_raises {evaluator raised : Evaluator} (raises : evaluator.Raises raised)
    (levels : Nat) (node : Node) (scope : ScopeId) (machine : Machine)
    (calls : (evaluator.evaluateWithin levels node scope machine).1 ≠
      worded .callDepth evaluator.maxCallDepth)
    (depth : (evaluator.evaluateWithin levels node scope machine).1 ≠
      worded .evalDepth evaluator.maxDepth) :
    raised.evaluateWithin levels node scope machine =
      evaluator.evaluateWithin levels node scope machine := by
  rcases within_persists raises levels node scope machine with (reached | reached) | same
  · exact absurd reached calls
  · exact absurd reached depth
  · exact same

/-- A function that calls its argument, applied to one that binds a name and
divides by zero. -/
def nestedCalls : Node :=
  .program [.expressionStatement 1
    (.call 1
      (.function 1 [⟨"f", 1⟩]
        (.block 1 [.expressionStatement 1 (.call 1 (.identifier ⟨"f", 1⟩) [])]))
      [.function 1 []
        (.block 1 [.letStatement 1 ⟨"x", 1⟩ (.integer 1 7),
          .expressionStatement 1 (.binary 1 (.identifier ⟨"x", 1⟩) "/" (.integer 1 0))])])]

/-- Two calls and ten nodes are as deep as that goes, so it ends in the division
under the default limits too. -/
theorem evaluate_eq_of_raises_nestedCalls :
    let tight : Evaluator := ⟨"<input>", 2, 10⟩
    let machine : Machine := .ofHeap (Heap.empty.add ⟨[], none⟩)
    ((tight.evaluateWithin 20 nestedCalls 0 machine).1.toOption.bind fun value =>
        (value.display 20).toOption) = some "ERROR: division by zero: 7 / 0" ∧
      standard.evaluateWithin 20 nestedCalls 0 machine =
        tight.evaluateWithin 20 nestedCalls 0 machine := by
  intro tight machine
  have ended : ((tight.evaluateWithin 20 nestedCalls 0 machine).1.toOption.bind fun value =>
      (value.display 20).toOption) = some "ERROR: division by zero: 7 / 0" := by
    decide +kernel
  have raises : tight.Raises standard := ⟨rfl, by decide, by decide⟩
  refine ⟨ended, evaluate_eq_of_raises raises 20 nestedCalls 0 machine ?_ ?_⟩
  · intro exceeded
    rw [exceeded] at ended
    revert ended
    decide +kernel
  · intro exceeded
    rw [exceeded] at ended
    revert ended
    decide +kernel

end Evaluator

end ExprLang
