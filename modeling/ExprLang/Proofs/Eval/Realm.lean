/-
# ExprLang.Proofs.Eval.Realm — what the data of a run are made of

Signals travel, data are kept. A realm says what data may be made of: which nodes
are evaluated and may be bodies of functions, which places functions may keep,
and whether a host's plain objects occur. A value lies within a realm when it is
no signal and, if it is a function, its body and its place belong there; a heap
does when every scope at a place of the realm binds names to such values only and
is enclosed by such a scope only.

Evaluation stays within its realm (`within_keeps`): the heap it leaves lies
there, and it ends in a value of the realm, in a `return` of one, in an error or
in a fault. Every activation along the way is one of the realm too
(`Reaches.within`), since it starts on a heap that earlier activations left.
-/
import ExprLang.Proofs.Eval.Activation
import ExprLang.Proofs.Eval.Frame

namespace ExprLang

set_option autoImplicit false

/-- What the data of a run are made of. The nodes are closed under taking parts
and the bodies of function literals. -/
structure Realm where
  node : Node → Prop
  place : ScopeId → Prop
  object : Prop
  part : ∀ {whole part : Node}, node whole → part ∈ whole.parts → node part
  body : ∀ {line : Int} {parameters : List Name} {body : Node},
    node (.function line parameters body) → node body

namespace Value

/-- A value of a realm: no signal, and a function's body and place belong there. -/
def Within (realm : Realm) : Value → Prop
  | .integer _ | .boolean _ | .null => True
  | .function _ body scope => realm.node body ∧ realm.place scope
  | .object => realm.object
  | .returned _ | .error _ => False

/-- What an evaluation may end in: a value of the realm, a `return` of one, or an
error. -/
def Outcome (realm : Realm) : Value → Prop
  | .returned value => value.Within realm
  | .error _ => True
  | value => value.Within realm

/-- What a call or a program may end in: a value of the realm or an error. -/
def Settled (realm : Realm) : Value → Prop
  | .error _ => True
  | value => value.Within realm

variable {realm : Realm} {value : Value}

theorem Within.outcome (within : value.Within realm) : value.Outcome realm := by
  cases value <;> first | exact within | exact within.elim

theorem Outcome.within (outcome : value.Outcome realm) (quiet : value.isSignal = false) :
    value.Within realm := by
  cases value <;> first | exact outcome | cases quiet

theorem Settled.outcome (settled : value.Settled realm) : value.Outcome realm := by
  cases value <;> first | exact settled | exact settled.elim

theorem Settled.not_returned (settled : value.Settled realm) (held : Value) :
    value ≠ .returned held := by
  rintro rfl
  exact settled

/-- A `return` does not pass the place where it arrives. -/
theorem Outcome.arrived (outcome : value.Outcome realm) : value.arrived.Settled realm := by
  cases value with
  | returned held => cases held <;> first | exact outcome | exact outcome.elim
  | _ => exact outcome

end Value

/-- A heap whose scopes at the places of a realm hold values of the realm. Places
that are still to be made belong to it. -/
structure Heap.Within (realm : Realm) (heap : Heap) : Prop where
  fresh : ∀ place, heap.next ≤ place → realm.place place
  bound : ∀ place scope name value, realm.place place → heap.scope? place = some scope →
    scope.find? name = some value → value.Within realm
  outer : ∀ place scope outer, realm.place place → heap.scope? place = some scope →
    scope.outer = some outer → outer < place → realm.place outer

namespace Heap.Within

variable {realm : Realm} {heap : Heap}

/-- Every name of a place of the realm has a value of the realm. -/
theorem lookup (within : heap.Within realm) {place : ScopeId} (known : realm.place place)
    {name : String} {value : Value} (found : heap.lookup place name = some value) :
    value.Within realm := by
  induction place using Nat.strongRecOn with
  | ind place ih =>
      unfold Heap.lookup at found
      split at found
      · cases found
      next scope here =>
      split at found
      · next held bound =>
          cases found
          exact within.bound place scope name value known here bound
      split at found
      · cases found
      next outer link =>
      split at found
      · next earlier =>
          exact ih outer earlier (within.outer place scope outer known here link earlier) found
      · cases found

theorem set (within : heap.Within realm) (place : ScopeId) (name : String) {value : Value}
    (datum : value.Within realm) : (heap.set place name value).Within realm where
  fresh other later := within.fresh other (by rwa [heap.next_set] at later)
  bound other scope key held known here found := by
    rw [Heap.scope?_set] at here
    split at here
    · obtain ⟨was, stood, rfl⟩ := Option.map_eq_some_iff.1 here
      by_cases same : key = name
      · rw [same, was.find?_set_self] at found
        cases found
        exact datum
      · rw [was.find?_set_of_ne value same] at found
        exact within.bound other was key held known stood found
    · exact within.bound other scope key held known here found
  outer other scope link known here linked earlier := by
    rw [Heap.scope?_set] at here
    split at here
    · obtain ⟨was, stood, rfl⟩ := Option.map_eq_some_iff.1 here
      exact within.outer other was link known stood linked earlier
    · exact within.outer other scope link known here linked earlier

theorem add (within : heap.Within realm) {scope : Scope}
    (bound : ∀ name value, scope.find? name = some value → value.Within realm)
    (outer : ∀ link, scope.outer = some link → realm.place link) :
    (heap.add scope).Within realm where
  fresh other later := by
    rw [heap.next_add] at later
    exact within.fresh other (Nat.le_of_succ_le later)
  bound other held name value known here found := by
    rw [Heap.scope?_add] at here
    split at here
    · cases here
      exact bound name value found
    · exact within.bound other held name value known here found
  outer other held link known here linked earlier := by
    rw [Heap.scope?_add] at here
    split at here
    · cases here
      exact outer link linked
    · exact within.outer other held link known here linked earlier

end Heap.Within

namespace Evaluator

/-- The scope of a call binds names to its arguments only and is enclosed by the
function's own. -/
theorem callScope_holds {holds : Value → Prop} (parameters : List Name) (values : List Value)
    (outer : ScopeId) (each : ∀ value ∈ values, holds value) :
    (callScope parameters values outer).outer = some outer ∧
      ∀ name value, (callScope parameters values outer).find? name = some value →
        holds value := by
  unfold callScope
  -- The bindings are made one after the other, so the scope made so far is general.
  suffices general : ∀ made : Scope, made.outer = some outer →
      (∀ name value, made.find? name = some value → holds value) →
      ((parameters.zip values).foldl (fun scope binding => scope.set binding.1.text binding.2)
          made).outer = some outer ∧
        ∀ name value, ((parameters.zip values).foldl
          (fun scope binding => scope.set binding.1.text binding.2) made).find? name =
            some value → holds value by
    exact general ⟨[], some outer⟩ rfl (by intro name value found; simp [Scope.find?] at found)
  induction values generalizing parameters with
  | nil => intro made link held; simpa using ⟨link, held⟩
  | cons value rest ih =>
      intro made link held
      cases parameters with
      | nil => simpa using ⟨link, held⟩
      | cons parameter others =>
          simp only [List.zip_cons_cons, List.foldl_cons]
          refine ih others (fun later member => each later (by simp [member])) _ link ?_
          intro name found same
          by_cases bound : name = parameter.text
          · rw [bound, made.find?_set_self] at same
            cases same
            exact each value (by simp)
          · rw [made.find?_set_of_ne value bound] at same
            exact held name found same

open Eval

variable {realm : Realm}

/-- The step leaves a heap of the realm behind, and if it ends in a value, then in
one as said. -/
def Keeps (realm : Realm) (ends : Value → Prop) (step : Eval Value) : Prop :=
  ∀ machine, machine.heap.Within realm → (step machine).2.heap.Within realm ∧
    ∀ value, (step machine).1 = .ok value → ends value

/-- Evaluation one level deeper stays within the realm. -/
def KeepsInner (realm : Realm) (inner : Inner) : Prop :=
  ∀ node scope, realm.node node → realm.place scope →
    Keeps realm (Value.Outcome realm) (inner node scope)

section Steps

variable {ends : Value → Prop}

theorem Keeps.mono {wider : Value → Prop} {step : Eval Value} (keeps : Keeps realm ends step)
    (wide : ∀ value, ends value → wider value) : Keeps realm wider step := by
  intro machine heap
  obtain ⟨heap', ended⟩ := keeps machine heap
  exact ⟨heap', fun value same => wide value (ended value same)⟩

theorem Keeps.done {value : Value} (ended : ends value) : Keeps realm ends (Eval.done value) := by
  intro machine heap
  refine ⟨heap, ?_⟩
  rintro _ ⟨⟩
  exact ended

theorem Keeps.fail {cause : EvalError} (ended : ends (.error cause)) :
    Keeps realm ends (Eval.fail cause) :=
  .done ended

theorem Keeps.breakOff (fault : EvalFault) : Keeps realm ends (Eval.breakOff fault) :=
  fun _ heap => ⟨heap, nofun⟩

theorem Keeps.ofExcept {result : Except EvalFault Value}
    (ended : ∀ value, result = .ok value → ends value) :
    Keeps realm ends (Eval.ofExcept result) :=
  fun _ heap => ⟨heap, ended⟩

theorem Keeps.worded {cause : Int → EvalError} {number : Int}
    (errors : ends (.error (cause number))) :
    Keeps realm ends (Eval.ofExcept (worded cause number)) :=
  .ofExcept fun _ ended => eq_error_of_worded ended ▸ errors

theorem Keeps.lookup {scope : ScopeId} (known : realm.place scope) (name : String) :
    Keeps realm (Value.Outcome realm) (Eval.lookup scope name) := by
  intro machine heap
  unfold Eval.lookup
  split
  · next value found => exact Keeps.done (heap.lookup known found).outcome machine heap
  · exact Keeps.fail trivial machine heap

theorem Keeps.bindName (scope : ScopeId) (name : String) {value : Value}
    (datum : value.Within realm) :
    Keeps realm (Value.Outcome realm) (do Eval.bindName scope name value; return .null) := by
  intro machine heap
  refine ⟨heap.set scope name datum, ?_⟩
  rintro _ ⟨⟩
  trivial

theorem applyPrefix_outcome (operator : String) (operand : Value) :
    (Operator.applyPrefix operator operand).Outcome realm := by
  unfold Operator.applyPrefix
  split <;> trivial

theorem applyInfix_outcome {operator : String} {left right value : Value}
    (applied : Operator.applyInfix operator left right = .ok value) : value.Outcome realm := by
  unfold Operator.applyInfix Operator.applyIntegers Operator.applyBooleans Operator.divide
    at applied
  repeat' split at applied
  all_goals first | cases applied; trivial | cases eq_error_of_worded applied; trivial

end Steps

section Stages

variable {inner : Inner} (keeps : KeepsInner realm inner)

include keeps

/-- Parts that pass leave values of the realm and a heap of the realm. -/
theorem Passes.within {nodes : List Node} {scope : ScopeId} {machine middle : Machine}
    {values : List Value} (passed : Passes inner scope nodes machine values middle)
    (known : ∀ node ∈ nodes, realm.node node) (placed : realm.place scope)
    (heap : machine.heap.Within realm) :
    middle.heap.Within realm ∧ ∀ value ∈ values, value.Within realm := by
  refine passed.keeps (fun node member machine heap => ?_) heap
  obtain ⟨heap', ended⟩ := keeps node scope (known node member) placed machine heap
  exact ⟨heap', fun value same quiet => (ended value same).within quiet⟩

/-- An application stays within the realm, and no `return` passes it. -/
theorem apply_keeps (evaluator : Evaluator) {callee : Value} {values : List Value}
    (known : callee.Within realm) (given : ∀ value ∈ values, value.Within realm) :
    Keeps realm (Value.Settled realm) (evaluator.apply inner callee values) := by
  intro machine heap
  rcases apply_cases evaluator inner callee values machine with
    ⟨cause, ended⟩ | ⟨parameters, body, outer, rfl, -, ⟨-, ended⟩ | ⟨-, entered⟩⟩
  · rw [ended]
    exact Keeps.fail trivial machine heap
  · rw [ended]
    exact Keeps.worded trivial machine heap
  · obtain ⟨node, place⟩ := known
    obtain ⟨link, bound⟩ := callScope_holds parameters values outer given
    have inside := heap.add bound fun other same => by
      cases link.symm.trans same
      exact place
    have next := heap.fresh machine.heap.next (Nat.le_refl _)
    obtain ⟨heap', outcome⟩ := keeps body machine.heap.next node next
      (machine.entering (callScope parameters values outer)) inside
    rw [entered]
    refine ⟨heap', fun value same => ?_⟩
    obtain ⟨held, ended, rfl⟩ := map_ok_iff.1 same
    exact (outcome held ended).arrived

/-- What a node does with values of the realm. -/
theorem finish_keeps (evaluator : Evaluator) {node : Node} {scope : ScopeId} {values : List Value}
    (known : realm.node node) (placed : realm.place scope)
    (given : ∀ value ∈ values, value.Within realm) :
    Keeps realm (Value.Outcome realm) (evaluator.finish inner node scope values) := by
  have part {part : Node} (member : part ∈ node.parts) :
      Keeps realm (Value.Outcome realm) (inner part scope) :=
    keeps part scope (realm.part known member) placed
  have last : (values.getLastD .null).Outcome realm := by
    cases values with
    | nil => trivial
    | cons first rest =>
        rw [List.getLastD_eq_getLast?, List.getLast?_eq_some_getLast (List.cons_ne_nil first rest)]
        exact (given _ (List.getLast_mem _)).outcome
  unfold finish
  split
  · exact .done last
  · exact .done last
  · exact .done (given _ (by simp)).outcome
  · exact .done (given _ (by simp))
  · exact .bindName scope _ (given _ (by simp))
  · exact .done trivial
  · exact .done trivial
  · exact .done (Value.Within.outcome ⟨realm.body known, placed⟩)
  · exact .lookup placed _
  · exact .done (applyPrefix_outcome _ _)
  · exact .ofExcept fun value => applyInfix_outcome
  · split
    · exact part (by simp [Node.parts])
    · exact .done trivial
  · split
    · exact part (by simp [Node.parts])
    · exact part (by simp [Node.parts])
  · have callee := given _ List.mem_cons_self
    have others := fun value member => given value (List.mem_cons_of_mem _ member)
    exact (apply_keeps keeps evaluator callee others).mono fun _ settled => settled.outcome
  · exact .breakOff _
  · exact .breakOff _
  · exact .done trivial

/-- What leaves a node is what came up in it, settled by the node. -/
theorem form_keeps (evaluator : Evaluator) {node : Node} {scope : ScopeId}
    (known : realm.node node) (placed : realm.place scope) :
    Keeps realm (fun value => ∃ held, held.Outcome realm ∧ node.settle held = value)
      (evaluator.form inner node scope) := by
  have parts : ∀ part ∈ node.ordered, realm.node part := fun part member =>
    realm.part known (node.ordered_subset_parts member)
  -- Whichever stage the evaluation ends in, what it leaves is within the realm.
  suffices taken : Keeps realm (Value.Outcome realm)
      (withArguments inner scope node.ordered (evaluator.finish inner node scope)) by
    intro machine heap
    obtain ⟨heap', outcome⟩ := taken machine heap
    rw [form_eq]
    refine ⟨heap', fun value same => ?_⟩
    obtain ⟨held, ended, settled⟩ := map_ok_iff.1 same
    exact ⟨held, outcome held ended, settled⟩
  intro machine heap
  rcases taken_cases inner scope node.ordered machine with
    ⟨before, part, rest, values, middle, split, passed, interrupts⟩ | ⟨values, middle, passed⟩
  · have earlier : ∀ node ∈ before, realm.node node := fun node member =>
      parts node (by simp [split, member])
    obtain ⟨heap', -⟩ := passed.within keeps earlier placed heap
    rw [split, taken_of_interrupts passed interrupts]
    exact keeps part scope (parts part (by simp [split])) placed middle heap'
  · obtain ⟨heap', given⟩ := passed.within keeps parts placed heap
    rw [taken_of_passes passed]
    exact finish_keeps keeps evaluator known placed given middle heap'

omit keeps in
/-- The depth guard adds errors only. -/
theorem visit_keeps (evaluator : Evaluator) {ends : Value → Prop} {node : Node} {scope : ScopeId}
    (errors : ∀ cause, ends (.error cause))
    (formed : Keeps realm ends (evaluator.form inner node scope)) :
    Keeps realm ends (evaluator.visit inner node scope) := by
  intro machine heap
  have ended := formed machine.deeper heap
  unfold visit
  split
  · exact Keeps.worded (errors _) machine heap
  · dsimp only
    split
    · split
      · exact Keeps.fail (errors _) _ ended.1
      · exact Keeps.breakOff .stackExhausted _ ended.1
    · exact ended

end Stages

/-- Evaluation stays within its realm. -/
theorem within_keeps (evaluator : Evaluator) (levels : Nat) :
    KeepsInner realm (evaluator.evaluateWithin levels) := by
  induction levels with
  | zero => exact fun _ _ _ _ => .breakOff .stackExhausted
  | succ levels ih =>
      intro node scope known placed
      have formed := form_keeps ih evaluator known placed
      refine visit_keeps evaluator (fun _ => trivial) (formed.mono ?_)
      rintro _ ⟨held, outcome, rfl⟩
      cases node with
      | program statements => exact outcome.arrived.outcome
      | _ => exact outcome

/-- No `return` passes a program. -/
theorem program_keeps (evaluator : Evaluator) (levels : Nat) {statements : List Node}
    {scope : ScopeId} (known : realm.node (.program statements)) (placed : realm.place scope) :
    Keeps realm (Value.Settled realm)
      (evaluator.evaluateWithin levels (.program statements) scope) := by
  cases levels with
  | zero => exact .breakOff .stackExhausted
  | succ levels =>
      have formed := form_keeps (within_keeps evaluator levels) evaluator known placed
      refine visit_keeps evaluator (fun _ => trivial) (formed.mono ?_)
      rintro _ ⟨held, outcome, rfl⟩
      exact outcome.arrived

end Evaluator

/-! ## Activations of a realm -/

/-- An activation of a realm. -/
structure Activation.Within (realm : Realm) (activation : Activation) : Prop where
  node : realm.node activation.node
  place : realm.place activation.scope
  heap : activation.machine.heap.Within realm

namespace Evaluator

variable {realm : Realm} {evaluator : Evaluator} {activation reached : Activation}

/-- Evaluation keeps up what a realm asks for. -/
def Invariant.ofRealm (realm : Realm) (evaluator : Evaluator) : evaluator.Invariant where
  node := realm.node
  place := realm.place
  heap := Heap.Within realm
  value := Value.Within realm
  part := realm.part
  evaluated known placed heap := by
    obtain ⟨heap', ended⟩ := within_keeps evaluator _ _ _ known placed _ heap
    exact ⟨heap', fun value same quiet => (ended value same).within quiet⟩
  entered heap callee given := by
    obtain ⟨link, bound⟩ := callScope_holds _ _ _ given
    refine ⟨callee.1, heap.fresh _ (Nat.le_refl _), heap.add bound fun other same => ?_⟩
    cases link.symm.trans same
    exact callee.2

theorem Applies.within {callee : Value} {values : List Value} {middle : Machine}
    (applied : evaluator.Applies activation callee values middle)
    (within : activation.Within realm) :
    callee.Within realm ∧ (∀ value ∈ values, value.Within realm) ∧
      middle.heap.Within realm := by
  have holds : (Invariant.ofRealm realm evaluator).Holds activation :=
    ⟨within.node, within.place, within.heap⟩
  obtain ⟨heap, known, given⟩ := Invariant.applies applied holds
  exact ⟨known, given, heap⟩

/-- Whatever an activation of a realm reaches is of the realm. -/
theorem Reaches.within (reaches : evaluator.Reaches activation reached)
    (within : activation.Within realm) : reached.Within realm := by
  have holds : (Invariant.ofRealm realm evaluator).Holds activation :=
    ⟨within.node, within.place, within.heap⟩
  obtain ⟨node, place, heap⟩ := Invariant.reaches reaches holds
  exact ⟨node, place, heap⟩

end Evaluator

end ExprLang
