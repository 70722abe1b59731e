/-
# ExprLang.Proofs.Eval.Ordered — parts in order, then the node itself

Every form of node is evaluated in the same two stages. It takes some of its
parts in order (`Node.ordered`) and hands on the first signal or fault that comes
up; if none does, it finishes with the values of the parts (`Evaluator.finish`).
A program differs from the rest in one thing only: a `return` that ends it
arrives there (`Node.settle`). `form_eq` says so for all forms at once, so that
what holds of every evaluation is proved for the order of the parts once, and
then for the sixteen ways to finish.

`Passes` is the first stage without an interruption, and `taken_cases` says how
the first stage can end.
-/
import ExprLang.Proofs.Eval.Steps

namespace ExprLang

set_option autoImplicit false

namespace Node

/-- The parts of a node that are evaluated one after the other. -/
def ordered : Node → List Node
  | .ifThen _ condition _ | .ifElse _ condition _ _ => [condition]
  | node => node.parts

/-- The branch that a conditional takes, by the value of its condition. -/
def branch? : Node → Value → Option Node
  | .ifThen _ _ consequence, value => if value.truthy then some consequence else none
  | .ifElse _ _ consequence alternative, value =>
      some (if value.truthy then consequence else alternative)
  | _, _ => none

/-- What becomes of a value that leaves a node: a `return` arrives at a program. -/
def settle : Node → Value → Value
  | .program _, value => value.arrived
  | _, value => value

theorem ordered_subset_parts (node : Node) : node.ordered ⊆ node.parts := by
  cases node <;> simp [ordered, parts]

theorem branch?_mem_parts {node branch : Node} {value : Value}
    (taken : node.branch? value = some branch) : branch ∈ node.parts := by
  unfold branch? at taken
  split at taken
  · split at taken
    · cases taken
      simp [parts]
    · cases taken
  · cases taken
    split <;> simp [parts]
  · cases taken

end Node

namespace Evaluator

open Eval

/-- What a node does with the values of its parts. The last case is that of
values which are not those of its parts. -/
def finish (evaluator : Evaluator) (inner : Inner) (node : Node) (scope : ScopeId)
    (values : List Value) : Eval Value :=
  match node, values with
  | .program _, values | .block .., values => done (values.getLastD .null)
  | .expressionStatement .., [value] => done value
  | .returnStatement .., [value] => done (.returned value)
  | .letStatement _ name _, [value] => do
      bindName scope name.text value
      return .null
  | .integer _ value, [] => done (.integer value)
  | .boolean _ value, [] => done (.boolean value)
  | .function _ parameters body, [] => done (.function parameters body scope)
  | .identifier name, [] => lookup scope name.text
  | .prefixed _ operator _, [value] => done (Operator.applyPrefix operator value)
  | .binary _ _ operator _, [left, right] => Eval.ofExcept (Operator.applyInfix operator left right)
  | .ifThen _ _ consequence, [value] =>
      if value.truthy then inner consequence scope else done .null
  | .ifElse _ _ consequence alternative, [value] =>
      if value.truthy then inner consequence scope else inner alternative scope
  | .call .., callee :: given => evaluator.apply inner callee given
  | .sequence items, _ => breakOff (evaluator.unknown (Node.sequence items).typeName none)
  | .foreign value, _ => breakOff (evaluator.unknown value.typeName value.line?)
  | _, _ => done .null

theorem finish_of_branch {evaluator : Evaluator} {inner : Inner} {node branch : Node}
    {scope : ScopeId} {value : Value} (taken : node.branch? value = some branch) :
    evaluator.finish inner node scope [value] = inner branch scope := by
  cases truth : value.truthy <;> cases node <;> simp_all [Node.branch?, finish]

section Order

variable {inner : Inner} {scope : ScopeId}

/-- To look at a value for a signal and to hand it on is to hand it on. -/
theorem unlessSignal_done (step : Eval Value) : unlessSignal step done = step := by
  funext machine
  rw [unlessSignal_apply]
  rcases step machine with ⟨fault | value, after⟩
  · rfl
  · dsimp only
    split <;> rfl

/-- A block takes its statements in order and keeps the last value. -/
theorem runBlock_eq (statements : List Node) (last : Value) :
    runBlock inner scope statements last =
      withArguments inner scope statements fun values => done (values.getLastD last) := by
  induction statements generalizing last with
  | nil => rfl
  | cons statement rest ih =>
      change unlessSignal _ _ = unlessSignal _ _
      congr 1
      funext value
      rw [ih value]
      simp only [List.getLastD_cons]

/-- Every node takes its parts in order, finishes, and settles. -/
theorem form_eq (evaluator : Evaluator) (node : Node) (machine : Machine) :
    evaluator.form inner node scope machine =
      ((withArguments inner scope node.ordered (evaluator.finish inner node scope) machine).1.map
          node.settle,
        (withArguments inner scope node.ordered (evaluator.finish inner node scope)
          machine).2) := by
  have settled (ended : Except EvalFault Value × Machine) :
      ended = (ended.1.map fun value => value, ended.2) := by
    rcases ended with ⟨fault | value, after⟩ <;> rfl
  cases node with
  | program statements =>
      change runProgram inner scope statements .null machine = _
      rw [runProgram_eq statements .null rfl, runBlock_eq]
      rfl
  | block line statements =>
      change runBlock inner scope statements .null machine = _
      rw [runBlock_eq]
      exact settled _
  | expressionStatement line expression =>
      change inner expression scope machine = _
      rw [← unlessSignal_done (inner expression scope)]
      exact settled _
  | _ => exact settled _

end Order

/-! ## The first stage -/

/-- The nodes are evaluated in order, each to a value that is no signal. -/
inductive Passes (inner : Inner) (scope : ScopeId) :
    List Node → Machine → List Value → Machine → Prop where
  | nil {machine : Machine} : Passes inner scope [] machine [] machine
  | cons {node : Node} {rest : List Node} {value : Value} {values : List Value}
      {machine middle after : Machine} (ended : inner node scope machine = (.ok value, middle))
      (quiet : value.isSignal = false) (later : Passes inner scope rest middle values after) :
      Passes inner scope (node :: rest) machine (value :: values) after

/-- An evaluation that interrupts the one it is a part of: it ends in a fault or
in a signal. -/
def Interrupts (ended : Except EvalFault Value × Machine) : Prop :=
  ∀ value, ended.1 = .ok value → value.isSignal = true

section Stages

variable {inner : Inner} {scope : ScopeId} {nodes before rest : List Node} {part : Node}
  {values : List Value} {machine middle : Machine} {next : List Value → Eval Value}

theorem Passes.headed (passed : Passes inner scope (part :: rest) machine values middle) :
    ∃ first others, values = first :: others := by
  cases passed
  exact ⟨_, _, rfl⟩

theorem Passes.single (passed : Passes inner scope [part] machine values middle) :
    ∃ value, values = [value] := by
  cases passed with
  | cons _ _ later =>
      cases later
      exact ⟨_, rfl⟩

theorem Passes.pair {second : Node}
    (passed : Passes inner scope [part, second] machine values middle) :
    ∃ left right, values = [left, right] := by
  cases passed with
  | cons _ _ later =>
      obtain ⟨right, rfl⟩ := later.single
      exact ⟨_, right, rfl⟩

/-- What each of the nodes keeps of the heap is kept where they pass, and what each ends
in, unless it is a signal, they pass with. -/
theorem Passes.keeps {heap : Heap → Prop} {good : Value → Prop}
    (passed : Passes inner scope nodes machine values middle)
    (each : ∀ node ∈ nodes, ∀ machine : Machine, heap machine.heap →
      heap (inner node scope machine).2.heap ∧
        ∀ value, (inner node scope machine).1 = .ok value → value.isSignal = false → good value)
    (start : heap machine.heap) : heap middle.heap ∧ ∀ value ∈ values, good value := by
  induction passed with
  | nil => exact ⟨start, List.forall_mem_nil _⟩
  | cons ended quiet _ ih =>
      obtain ⟨here, later⟩ := List.forall_mem_cons.1 each
      obtain ⟨left, ends⟩ := here _ start
      rw [ended] at left ends
      obtain ⟨left', others⟩ := ih later left
      exact ⟨left', List.forall_mem_cons.2 ⟨ends _ rfl quiet, others⟩⟩

theorem taken_of_passes (passed : Passes inner scope nodes machine values middle) :
    withArguments inner scope nodes next machine = next values middle := by
  induction passed generalizing next with
  | nil => rfl
  | cons ended quiet _ ih =>
      change unlessSignal _ _ _ = _
      rw [unlessSignal_apply, ended]
      simpa [quiet] using ih

theorem taken_of_interrupts (passed : Passes inner scope before machine values middle)
    (interrupts : Interrupts (inner part scope middle)) :
    withArguments inner scope (before ++ part :: rest) next machine = inner part scope middle := by
  induction passed generalizing next with
  | nil =>
      change unlessSignal _ _ _ = _
      rw [unlessSignal_apply]
      rcases ended : inner part scope _ with ⟨fault | value, after⟩
      · rfl
      · rw [ended] at interrupts
        simp [interrupts value rfl]
  | cons ended quiet _ ih =>
      change unlessSignal _ _ _ = _
      rw [unlessSignal_apply, ended]
      simpa [quiet] using ih interrupts

/-- Either a node interrupts, or they all pass. -/
theorem taken_cases (inner : Inner) (scope : ScopeId) (nodes : List Node) (machine : Machine) :
    (∃ before part rest values middle, nodes = before ++ part :: rest ∧
      Passes inner scope before machine values middle ∧ Interrupts (inner part scope middle)) ∨
    ∃ values middle, Passes inner scope nodes machine values middle := by
  induction nodes generalizing machine with
  | nil => exact .inr ⟨[], machine, .nil⟩
  | cons node nodes ih =>
      rcases ended : inner node scope machine with ⟨fault | value, after⟩
      · refine .inl ⟨[], node, nodes, [], machine, rfl, .nil, ?_⟩
        rw [ended]
        nofun
      · cases signals : value.isSignal with
        | true =>
            refine .inl ⟨[], node, nodes, [], machine, rfl, .nil, ?_⟩
            rw [ended]
            rintro _ ⟨⟩
            exact signals
        | false =>
            rcases ih after with
              ⟨before, part, rest, values, middle, rfl, passed, interrupts⟩ |
              ⟨values, middle, passed⟩
            · exact .inl ⟨node :: before, part, rest, value :: values, middle, rfl,
                .cons ended signals passed, interrupts⟩
            · exact .inr ⟨value :: values, middle, .cons ended signals passed⟩

end Stages

/-! ## Applications -/

theorem apply_of_room {evaluator : Evaluator} {inner : Inner} {parameters : List Name}
    {body : Node} {outer : ScopeId} {values : List Value} {machine : Machine}
    (arity : values.length = parameters.length)
    (room : (machine.callDepth : Int) < evaluator.maxCallDepth) :
    evaluator.apply inner (.function parameters body outer) values machine =
      enter inner parameters body outer values machine := by
  simp [apply, arity, Int.not_le.2 room]

theorem apply_of_full {evaluator : Evaluator} {inner : Inner} {parameters : List Name}
    {body : Node} {outer : ScopeId} {values : List Value} {machine : Machine}
    (arity : values.length = parameters.length)
    (full : evaluator.maxCallDepth ≤ machine.callDepth) :
    evaluator.apply inner (.function parameters body outer) values machine =
      (worded .callDepth evaluator.maxCallDepth, machine) := by
  simp [apply, arity, full, Eval.ofExcept]

/-- What an application can do: it gives an error at once, it passes a limit, or it enters
a function. -/
theorem apply_cases (evaluator : Evaluator) (inner : Inner) (callee : Value) (values : List Value)
    (machine : Machine) :
    (∃ cause, evaluator.apply inner callee values machine = (.ok (.error cause), machine)) ∨
      ∃ parameters body outer, callee = .function parameters body outer ∧
        values.length = parameters.length ∧
        (evaluator.maxCallDepth ≤ machine.callDepth ∧
            evaluator.apply inner callee values machine =
              (worded .callDepth evaluator.maxCallDepth, machine) ∨
          (machine.callDepth : Int) < evaluator.maxCallDepth ∧
            evaluator.apply inner callee values machine =
              enter inner parameters body outer values machine) := by
  cases callee with
  | function parameters body outer =>
      by_cases arity : values.length = parameters.length
      · refine .inr ⟨parameters, body, outer, rfl, arity, ?_⟩
        by_cases full : evaluator.maxCallDepth ≤ machine.callDepth
        · exact .inl ⟨full, apply_of_full arity full⟩
        · have room := Int.not_le.1 full
          exact .inr ⟨room, apply_of_room arity room⟩
      · exact .inl ⟨.wrongArity parameters.length values.length, by simp [apply, arity, fail, done]⟩
  | _ => exact .inl ⟨_, rfl⟩

/-! ## What a form makes of its parts -/

/-- A node that is done with the values of its parts looks neither at deeper
evaluation nor at the limits, and all that it can change is the heap. -/
structure DoneWith (evaluator : Evaluator) (node : Node) (scope : ScopeId)
    (values : List Value) : Prop where
  heap (inner : Inner) (machine : Machine) :
    (evaluator.finish inner node scope values machine).2 =
      { machine with heap := (evaluator.finish inner node scope values machine).2.heap }
  same (inner : Inner) {other : Evaluator} (inner' : Inner)
    (file : other.file = evaluator.file) :
    other.finish inner' node scope values = evaluator.finish inner node scope values

/-- What a node can do with the values of its parts: take a branch, apply a value,
or be done with them. -/
theorem finish_cases (evaluator : Evaluator) (node : Node) (scope : ScopeId)
    (values : List Value) :
    (∃ branch, ∀ (other : Evaluator) (inner : Inner),
      other.finish inner node scope values = inner branch scope) ∨
    (∃ callee given, ∀ (other : Evaluator) (inner : Inner),
      other.finish inner node scope values = other.apply inner callee given) ∨
    evaluator.DoneWith node scope values := by
  cases node with
  | ifThen line condition consequence =>
      rcases values with _ | ⟨value, _ | ⟨_, _⟩⟩
      · exact .inr (.inr ⟨fun _ _ => rfl, fun _ _ _ _ => rfl⟩)
      · cases truth : value.truthy with
        | true => exact .inl ⟨consequence, fun _ _ => if_pos truth⟩
        | false =>
            have stays (other : Evaluator) (inner : Inner) :
                other.finish inner (.ifThen line condition consequence) scope [value] =
                  done .null := if_neg (by simp [truth])
            refine .inr (.inr ⟨fun inner machine => ?_, fun inner other inner' _ => ?_⟩)
            · rw [stays]
              rfl
            · rw [stays, stays]
      · exact .inr (.inr ⟨fun _ _ => rfl, fun _ _ _ _ => rfl⟩)
  | ifElse line condition consequence alternative =>
      rcases values with _ | ⟨value, _ | ⟨_, _⟩⟩
      · exact .inr (.inr ⟨fun _ _ => rfl, fun _ _ _ _ => rfl⟩)
      · cases truth : value.truthy with
        | true => exact .inl ⟨consequence, fun _ _ => if_pos truth⟩
        | false => exact .inl ⟨alternative, fun _ _ => if_neg (by simp [truth])⟩
      · exact .inr (.inr ⟨fun _ _ => rfl, fun _ _ _ _ => rfl⟩)
  | call line callee arguments =>
      rcases values with _ | ⟨target, given⟩
      · exact .inr (.inr ⟨fun _ _ => rfl, fun _ _ _ _ => rfl⟩)
      · exact .inr (.inl ⟨target, given, fun _ _ => rfl⟩)
  | sequence | foreign =>
      -- the only forms whose fault names the file
      refine .inr (.inr ⟨fun _ _ => rfl, fun _ _ _ file => ?_⟩)
      simp only [finish, Evaluator.unknown, file]
  | identifier name =>
      rcases values with _ | ⟨_, _⟩
      · refine .inr (.inr ⟨fun _ machine => ?_, fun _ _ _ _ => rfl⟩)
        simp only [finish, lookup]
        split <;> rfl
      · exact .inr (.inr ⟨fun _ _ => rfl, fun _ _ _ _ => rfl⟩)
  | _ =>
      rcases values with _ | ⟨_, _ | ⟨_, _ | _⟩⟩ <;>
        exact .inr (.inr ⟨fun _ _ => rfl, fun _ _ _ _ => rfl⟩)

end Evaluator

end ExprLang
