/-
# ExprLang.Proofs.Eval.Activation — the evaluations that an evaluation starts

To say that a run reaches something, one has to say which evaluations it is made
of. An activation is one of them: a node in a scope, on a machine, over so many
levels of stack. `Starts` says which activations another one starts itself, in
three ways: the parts it takes in order, as long as none of them interrupts, the
branch of a conditional, and the body of a function it calls. What a run reaches
is everything that is started along the way.

A fault is nobody's value and passes every node it comes up in. So an evaluation
breaks off with a fault exactly when it reaches an activation that itself refuses
to go on (`run_error_iff`): an operator without a result, a value that is no node,
or a limit that is passed and cannot be written. A stack that runs out is apart,
because the outermost node makes an error of it.

What evaluation keeps up holds of every activation that is reached, if it holds of
the first (`Invariant`).
-/
import Mathlib.Logic.Relation
import ExprLang.Proofs.Eval.Ordered

namespace ExprLang

set_option autoImplicit false

namespace Machine

/-- The machine inside of one more node. -/
def deeper (machine : Machine) : Machine := { machine with depth := machine.depth + 1 }

/-- The machine inside of a call, whose scope is the newest one. -/
def entering (machine : Machine) (scope : Scope) : Machine :=
  { machine with heap := machine.heap.add scope, callDepth := machine.callDepth + 1 }

end Machine

/-- There is no error to divide a number by zero with if it cannot be named. -/
theorem Operator.divide_error_iff {left right : Int} {fault : EvalFault} :
    divide left right = .error fault ↔
      fault = .tooLong ∧ right = 0 ∧ ¬ Decimal.Writable left := by
  unfold divide
  by_cases zero : right = 0
  · simp [zero, worded_error_iff]
  · simp [zero]

/-- Every other operator has a result on all values. -/
theorem Operator.applyInfix_error_iff {operator : String} {left right : Value}
    {fault : EvalFault} :
    applyInfix operator left right = .error fault ↔
      fault = .tooLong ∧ operator = "/" ∧ ∃ dividend, left = .integer dividend ∧
        right = .integer 0 ∧ ¬ Decimal.Writable dividend := by
  constructor
  · intro failed
    unfold applyInfix at failed
    split at failed
    · next dividend divisor =>
        unfold applyIntegers at failed
        split at failed
        case h_4 =>
          obtain ⟨rfl, rfl, long⟩ := divide_error_iff.1 failed
          exact ⟨rfl, rfl, dividend, rfl, rfl, long⟩
        all_goals cases failed
    · cases failed
    · split at failed <;> cases failed
  · rintro ⟨rfl, rfl, dividend, rfl, rfl, long⟩
    simp only [applyInfix, applyIntegers]
    exact divide_error_iff.2 ⟨rfl, rfl, long⟩

/-- An evaluation: a node in a scope, on a machine, over so many levels of stack. -/
structure Activation where
  levels : Nat
  node : Node
  scope : ScopeId
  machine : Machine

namespace Evaluator

open Eval

/-- How an activation ends. -/
def run (evaluator : Evaluator) (activation : Activation) : Except EvalFault Value × Machine :=
  evaluator.evaluateWithin activation.levels activation.node activation.scope activation.machine

/-- The activation comes to apply a value to arguments on a machine. -/
inductive Applies (evaluator : Evaluator) :
    Activation → (callee : Value) → List Value → Machine → Prop where
  | call {levels : Nat} {line : Int} {function : Node} {arguments : List Node} {scope : ScopeId}
      {machine middle : Machine} {callee : Value} {values : List Value}
      (room : (machine.depth : Int) < evaluator.maxDepth)
      (passed : Passes (evaluator.evaluateWithin levels) scope (function :: arguments)
        machine.deeper (callee :: values) middle) :
      Applies evaluator ⟨levels + 1, .call line function arguments, scope, machine⟩ callee values
        middle

/-- The first activation starts the second. -/
inductive Starts (evaluator : Evaluator) : Activation → Activation → Prop where
  | part {levels : Nat} {node part : Node} {before rest : List Node} {scope : ScopeId}
      {machine middle : Machine} {values : List Value}
      (room : (machine.depth : Int) < evaluator.maxDepth)
      (parts : node.ordered = before ++ part :: rest)
      (passed : Passes (evaluator.evaluateWithin levels) scope before machine.deeper values
        middle) :
      Starts evaluator ⟨levels + 1, node, scope, machine⟩ ⟨levels, part, scope, middle⟩
  | branch {levels : Nat} {node branch : Node} {scope : ScopeId} {machine middle : Machine}
      {value : Value} (room : (machine.depth : Int) < evaluator.maxDepth)
      (passed : Passes (evaluator.evaluateWithin levels) scope node.ordered machine.deeper [value]
        middle)
      (taken : node.branch? value = some branch) :
      Starts evaluator ⟨levels + 1, node, scope, machine⟩ ⟨levels, branch, scope, middle⟩
  | body {levels : Nat} {node body : Node} {parameters : List Name} {outer scope : ScopeId}
      {machine middle : Machine} {values : List Value}
      (applied : Applies evaluator ⟨levels + 1, node, scope, machine⟩
        (.function parameters body outer) values middle)
      (arity : values.length = parameters.length)
      (room : (middle.callDepth : Int) < evaluator.maxCallDepth) :
      Starts evaluator ⟨levels + 1, node, scope, machine⟩
        ⟨levels, body, middle.heap.next, middle.entering (callScope parameters values outer)⟩

/-- What a run reaches: itself and whatever is started along the way. -/
abbrev Reaches (evaluator : Evaluator) : Activation → Activation → Prop :=
  Relation.ReflTransGen evaluator.Starts

/-- The activation itself cannot go on: it passes a limit that cannot be written, its
operator has no result, or its node is none. -/
inductive Refuses (evaluator : Evaluator) : Activation → EvalFault → Prop where
  | depth {levels : Nat} {node : Node} {scope : ScopeId} {machine : Machine}
      (full : evaluator.maxDepth ≤ machine.depth) (long : ¬ Decimal.Writable evaluator.maxDepth) :
      Refuses evaluator ⟨levels + 1, node, scope, machine⟩ .tooLong
  | calls {levels : Nat} {node body : Node} {parameters : List Name} {outer scope : ScopeId}
      {machine middle : Machine} {values : List Value}
      (applied : Applies evaluator ⟨levels + 1, node, scope, machine⟩
        (.function parameters body outer) values middle)
      (arity : values.length = parameters.length)
      (full : evaluator.maxCallDepth ≤ middle.callDepth)
      (long : ¬ Decimal.Writable evaluator.maxCallDepth) :
      Refuses evaluator ⟨levels + 1, node, scope, machine⟩ .tooLong
  | operator {levels : Nat} {line : Int} {left right : Node} {operator : String} {scope : ScopeId}
      {machine middle : Machine} {leftValue rightValue : Value} {fault : EvalFault}
      (room : (machine.depth : Int) < evaluator.maxDepth)
      (passed : Passes (evaluator.evaluateWithin levels) scope [left, right] machine.deeper
        [leftValue, rightValue] middle)
      (failed : Operator.applyInfix operator leftValue rightValue = .error fault) :
      Refuses evaluator ⟨levels + 1, .binary line left operator right, scope, machine⟩ fault
  | sequence {levels : Nat} {items : List Node} {scope : ScopeId} {machine : Machine}
      (room : (machine.depth : Int) < evaluator.maxDepth) :
      Refuses evaluator ⟨levels + 1, .sequence items, scope, machine⟩
        (evaluator.unknown (Node.sequence items).typeName none)
  | foreign {levels : Nat} {value : Foreign} {scope : ScopeId} {machine : Machine}
      (room : (machine.depth : Int) < evaluator.maxDepth) :
      Refuses evaluator ⟨levels + 1, .foreign value, scope, machine⟩
        (evaluator.unknown value.typeName value.line?)

/-! ## One node -/

section Node

variable {evaluator : Evaluator} {levels : Nat} {node : Node} {scope : ScopeId}
  {machine middle : Machine} {values : List Value} {fault : EvalFault}

theorem map_error_iff {ε α β : Type} {result : Except ε α} {change : α → β} {cause : ε} :
    result.map change = .error cause ↔ result = .error cause := by
  cases result <;> simp [Except.map]

theorem map_ok_iff {ε α β : Type} {result : Except ε α} {change : α → β} {value : β} :
    result.map change = .ok value ↔ ∃ held, result = .ok held ∧ change held = value := by
  cases result <;> simp [Except.map]

theorem interrupts_of_error {ended : Except EvalFault Value × Machine}
    (broken : ended.1 = .error fault) : Interrupts ended := by
  intro value same
  rw [broken] at same
  cases same

/-- What breaks off after all parts have passed is a branch, a body, or the node
itself. -/
theorem of_finish_error (room : (machine.depth : Int) < evaluator.maxDepth)
    (passed : Passes (evaluator.evaluateWithin levels) scope node.ordered machine.deeper values
      middle)
    (broken : (evaluator.finish (evaluator.evaluateWithin levels) node scope values middle).1 =
      .error fault) :
    (∃ started, evaluator.Starts ⟨levels + 1, node, scope, machine⟩ started ∧
      (evaluator.run started).1 = .error fault) ∨
      evaluator.Refuses ⟨levels + 1, node, scope, machine⟩ fault := by
  cases node with
  | letStatement | returnStatement | expressionStatement | prefixed =>
      obtain ⟨held, rfl⟩ := passed.single
      cases broken
  | identifier name =>
      cases passed
      simp only [finish, lookup] at broken
      split at broken <;> cases broken
  | binary line left operator right =>
      obtain ⟨leftValue, rightValue, rfl⟩ := passed.pair
      exact .inr (.operator room passed broken)
  | ifThen line condition consequence =>
      obtain ⟨value, rfl⟩ := passed.single
      simp only [finish] at broken
      split at broken
      · next truth => exact .inl ⟨_, .branch room passed (by simp [Node.branch?, truth]), broken⟩
      · cases broken
  | ifElse line condition consequence alternative =>
      obtain ⟨value, rfl⟩ := passed.single
      simp only [finish] at broken
      split at broken
      · next truth => exact .inl ⟨_, .branch room passed (by simp [Node.branch?, truth]), broken⟩
      · next falsity =>
          exact .inl ⟨_, .branch room passed (by simp [Node.branch?, falsity]), broken⟩
  | call line function arguments =>
      obtain ⟨callee, given, rfl⟩ := passed.headed
      simp only [finish] at broken
      rcases apply_cases evaluator (evaluator.evaluateWithin levels) callee given middle with
        ⟨cause, ended⟩ | ⟨parameters, body, outer, rfl, arity, ⟨full, ended⟩ | ⟨calls, ended⟩⟩
      · rw [ended] at broken
        cases broken
      · rw [ended] at broken
        obtain ⟨rfl, long⟩ := worded_error_iff.1 broken
        exact .inr (.calls (.call room passed) arity full long)
      · rw [ended] at broken
        exact .inl ⟨_, .body (.call room passed) arity calls, map_error_iff.1 broken⟩
  | sequence items =>
      cases broken
      exact .inr (.sequence room)
  | foreign value =>
      cases broken
      exact .inr (.foreign room)
  | program | block => cases broken
  | integer | boolean | function =>
      cases passed
      cases broken

/-- A node that breaks off has started an activation that does, or it refuses. -/
theorem of_form_error (room : (machine.depth : Int) < evaluator.maxDepth)
    (broken : (evaluator.form (evaluator.evaluateWithin levels) node scope machine.deeper).1 =
      .error fault) :
    (∃ started, evaluator.Starts ⟨levels + 1, node, scope, machine⟩ started ∧
      (evaluator.run started).1 = .error fault) ∨
      evaluator.Refuses ⟨levels + 1, node, scope, machine⟩ fault := by
  rw [form_eq] at broken
  replace broken := map_error_iff.1 broken
  rcases taken_cases (evaluator.evaluateWithin levels) scope node.ordered machine.deeper with
    ⟨before, part, rest, values, middle, parts, passed, interrupts⟩ | ⟨values, middle, passed⟩
  · rw [parts, taken_of_interrupts passed interrupts] at broken
    exact .inl ⟨_, .part room parts passed, broken⟩
  · rw [taken_of_passes passed] at broken
    exact of_finish_error room passed broken

/-- A fault passes the node it comes up in. -/
theorem form_error_of_starts {started : Activation}
    (starts : evaluator.Starts ⟨levels + 1, node, scope, machine⟩ started)
    (broken : (evaluator.run started).1 = .error fault) :
    (evaluator.form (evaluator.evaluateWithin levels) node scope machine.deeper).1 =
      .error fault := by
  rw [form_eq]
  refine map_error_iff.2 ?_
  cases starts with
  | part room parts passed =>
      rw [parts, taken_of_interrupts passed (interrupts_of_error broken)]
      exact broken
  | branch room passed taken =>
      rw [taken_of_passes passed, finish_of_branch taken]
      exact broken
  | body applied arity calls =>
      cases applied with
      | call room passed =>
          change (withArguments _ scope (_ :: _) _ machine.deeper).1 = _
          rw [taken_of_passes passed]
          simp only [finish]
          rw [apply_of_room arity calls]
          exact map_error_iff.2 broken

theorem form_error_of_refuses (room : (machine.depth : Int) < evaluator.maxDepth)
    (refuses : evaluator.Refuses ⟨levels + 1, node, scope, machine⟩ fault) :
    (evaluator.form (evaluator.evaluateWithin levels) node scope machine.deeper).1 =
      .error fault := by
  cases refuses with
  | depth full => exact absurd room (Int.not_lt.2 full)
  | calls applied arity full long =>
      cases applied with
      | call room passed =>
          rw [form_eq]
          refine map_error_iff.2 ?_
          change (withArguments _ scope (_ :: _) _ machine.deeper).1 = _
          rw [taken_of_passes passed]
          simp only [finish]
          rw [apply_of_full arity full, worded_of_long long]
  | operator room passed failed =>
      rw [form_eq]
      refine map_error_iff.2 ?_
      change (withArguments _ scope [_, _] _ machine.deeper).1 = _
      rw [taken_of_passes passed]
      exact failed
  | sequence room => rfl
  | foreign room => rfl

/-- The depth guard has a fault of its own, and lets every other pass but that of the
stack. -/
theorem visit_error_iff {inner : Inner} (other : fault ≠ .stackExhausted) :
    (evaluator.visit inner node scope machine).1 = .error fault ↔
      evaluator.maxDepth ≤ machine.depth ∧ fault = .tooLong ∧
          ¬ Decimal.Writable evaluator.maxDepth ∨
        (machine.depth : Int) < evaluator.maxDepth ∧
          (evaluator.form inner node scope machine.deeper).1 = .error fault := by
  unfold visit Machine.deeper
  by_cases full : evaluator.maxDepth ≤ machine.depth
  · simp [full, Int.not_lt.2 full, Eval.ofExcept, worded_error_iff]
  · rw [if_neg full]
    have room := Int.not_le.1 full
    generalize evaluator.form inner node scope _ = ended
    obtain ⟨result, after⟩ := ended
    dsimp only
    rcases result with broken | value
    · cases broken with
      | stackExhausted =>
          have differs : (Except.error .stackExhausted : Except EvalFault Value) ≠ .error fault :=
            fun same => other (Except.error.inj same).symm
          dsimp only
          split
          · simp [full, fail, done, differs]
          · simp [full, breakOff, differs]
      | _ => simp [full, room]
    · simp [full]

end Node

/-! ## Whole runs -/

section Runs

variable {evaluator : Evaluator} {activation reached : Activation} {fault : EvalFault}

theorem Starts.room (starts : evaluator.Starts activation reached) :
    (activation.machine.depth : Int) < evaluator.maxDepth ∧
      activation.levels = reached.levels + 1 := by
  cases starts with
  | part room parts passed => exact ⟨room, rfl⟩
  | branch room passed taken => exact ⟨room, rfl⟩
  | body applied arity calls =>
      cases applied with
      | call room passed => exact ⟨room, rfl⟩

/-- What refuses has a level of stack, and passes the limit on nodes or is within it. -/
theorem Refuses.guard (refuses : evaluator.Refuses activation fault) :
    (∃ levels, activation.levels = levels + 1) ∧
      (evaluator.maxDepth ≤ activation.machine.depth ∧ fault = .tooLong ∧
          ¬ Decimal.Writable evaluator.maxDepth ∨
        (activation.machine.depth : Int) < evaluator.maxDepth) := by
  cases refuses with
  | depth full long => exact ⟨⟨_, rfl⟩, .inl ⟨full, rfl, long⟩⟩
  | calls applied arity full long =>
      cases applied with
      | call room passed => exact ⟨⟨_, rfl⟩, .inr room⟩
  | operator room passed failed => exact ⟨⟨_, rfl⟩, .inr room⟩
  | sequence room => exact ⟨⟨_, rfl⟩, .inr room⟩
  | foreign room => exact ⟨⟨_, rfl⟩, .inr room⟩

/-- Faults travel outward along the activations. -/
theorem run_error_of_reaches (other : fault ≠ .stackExhausted)
    (reaches : evaluator.Reaches activation reached)
    (broken : (evaluator.run reached).1 = .error fault) :
    (evaluator.run activation).1 = .error fault := by
  induction reaches using Relation.ReflTransGen.head_induction_on with
  | refl => exact broken
  | @head first second starts _ ih =>
      obtain ⟨room, levels⟩ := starts.room
      obtain ⟨_, node, scope, machine⟩ := first
      cases levels
      exact (visit_error_iff other).2 (.inr ⟨room, form_error_of_starts starts ih⟩)

theorem run_error_of_refuses (other : fault ≠ .stackExhausted)
    (refuses : evaluator.Refuses activation fault) :
    (evaluator.run activation).1 = .error fault := by
  obtain ⟨⟨_, levels⟩, guard⟩ := refuses.guard
  obtain ⟨_, node, scope, machine⟩ := activation
  cases levels
  exact (visit_error_iff other).2
    (guard.imp_right fun room => ⟨room, form_error_of_refuses room refuses⟩)

/-- **Where faults come from.** A run breaks off with a fault, that of the stack
apart, exactly when it reaches an activation that refuses to go on with it. -/
theorem run_error_iff (other : fault ≠ .stackExhausted) :
    (evaluator.run activation).1 = .error fault ↔
      ∃ reached, evaluator.Reaches activation reached ∧ evaluator.Refuses reached fault := by
  constructor
  · intro broken
    obtain ⟨levels, node, scope, machine⟩ := activation
    induction levels generalizing node scope machine with
    | zero => exact absurd (Except.error.inj broken).symm other
    | succ levels ih =>
        rcases (visit_error_iff other).1 broken with ⟨full, rfl, long⟩ | ⟨room, broken⟩
        · exact ⟨_, .refl, .depth full long⟩
        rcases of_form_error room broken with ⟨started, starts, broken'⟩ | refuses
        · obtain ⟨_, node', scope', machine'⟩ := started
          cases starts.room.2
          obtain ⟨reached, reaches, refuses⟩ := ih node' scope' machine' broken'
          exact ⟨reached, .head starts reaches, refuses⟩
        · exact ⟨_, .refl, refuses⟩
  · rintro ⟨reached, reaches, refuses⟩
    exact run_error_of_reaches other reaches (run_error_of_refuses other refuses)

end Runs

/-! ## Invariants -/

/-- Conditions on the nodes, scopes and heaps of activations, and on the values that pass
in them, that evaluation keeps up. -/
structure Invariant (evaluator : Evaluator) where
  node : Node → Prop
  place : ScopeId → Prop
  heap : Heap → Prop
  value : Value → Prop
  part : ∀ {whole part : Node}, node whole → part ∈ whole.parts → node part
  evaluated : ∀ {levels : Nat} {whole : Node} {scope : ScopeId} {machine : Machine},
    node whole → place scope → heap machine.heap →
      heap (evaluator.evaluateWithin levels whole scope machine).2.heap ∧
        ∀ result, (evaluator.evaluateWithin levels whole scope machine).1 = .ok result →
          result.isSignal = false → value result
  entered : ∀ {before : Heap} {parameters : List Name} {body : Node} {outer : ScopeId}
    {values : List Value}, heap before → value (.function parameters body outer) →
      (∀ given ∈ values, value given) →
      node body ∧ place before.next ∧ heap (before.add (callScope parameters values outer))

namespace Invariant

variable {evaluator : Evaluator} (invariant : evaluator.Invariant)
  {activation reached : Activation}

/-- The conditions hold of an activation. -/
structure Holds (activation : Activation) : Prop where
  node : invariant.node activation.node
  place : invariant.place activation.scope
  heap : invariant.heap activation.machine.heap

variable {invariant}

theorem passes {levels : Nat} {scope : ScopeId} {nodes : List Node} {machine middle : Machine}
    {values : List Value}
    (passed : Passes (evaluator.evaluateWithin levels) scope nodes machine values middle)
    (each : ∀ node ∈ nodes, invariant.node node) (placed : invariant.place scope)
    (start : invariant.heap machine.heap) :
    invariant.heap middle.heap ∧ ∀ value ∈ values, invariant.value value :=
  passed.keeps (fun node member _ => invariant.evaluated (each node member) placed) start

theorem applies {callee : Value} {values : List Value} {middle : Machine}
    (applied : evaluator.Applies activation callee values middle)
    (holds : invariant.Holds activation) :
    invariant.heap middle.heap ∧ invariant.value callee ∧
      ∀ value ∈ values, invariant.value value := by
  cases applied with
  | call room passed =>
      obtain ⟨left, given⟩ := passes passed
        (fun part member => invariant.part holds.node member) holds.place holds.heap
      exact ⟨left, List.forall_mem_cons.1 given⟩

/-- What an activation starts has what the activation has. -/
theorem starts (starts : evaluator.Starts activation reached)
    (holds : invariant.Holds activation) : invariant.Holds reached := by
  have ordered {node : Node} (known : invariant.node node) :
      ∀ part ∈ node.ordered, invariant.node part :=
    fun part member => invariant.part known (node.ordered_subset_parts member)
  obtain ⟨known, placed, heap⟩ := holds
  cases starts with
  | part room parts passed =>
      have each := ordered known
      rw [parts] at each
      obtain ⟨left, -⟩ := passes passed (fun node member => each node (by simp [member])) placed
        heap
      exact ⟨each _ (by simp), placed, left⟩
  | branch room passed taken =>
      obtain ⟨left, -⟩ := passes passed (ordered known) placed heap
      exact ⟨invariant.part known (Node.branch?_mem_parts taken), placed, left⟩
  | body applied arity calls =>
      obtain ⟨left, callee, given⟩ := applies applied ⟨known, placed, heap⟩
      obtain ⟨inner, place, entered⟩ := invariant.entered left callee given
      exact ⟨inner, place, entered⟩

/-- And so has whatever it reaches. -/
theorem reaches (reaches : evaluator.Reaches activation reached)
    (holds : invariant.Holds activation) : invariant.Holds reached := by
  induction reaches with
  | refl => exact holds
  | tail _ begun ih => exact starts begun ih

end Invariant

end Evaluator

end ExprLang
