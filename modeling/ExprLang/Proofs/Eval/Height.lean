/-
# ExprLang.Proofs.Eval.Height — the depth limit cuts at the height of a tree

A node counts itself in while it is evaluated, whatever its form, and the limit is
compared with the count before anything else is done. So a tree of operators over
literals is evaluated in full exactly when the limit allows for as many nodes as there
are on its longest path. If it does not, then some path is cut, and since an error is
passed on by every operator, the first path to be cut from the left decides, and the
error is the same for all of them.

`Node.Amounts` says what such a tree comes to when nobody counts. `Evaluator.cut` says
what becomes of that under a limit: the value, if the deepest node that has to be
evaluated is within the limit, and the error of the limit otherwise. Going on from one
operand to the next takes the deeper of the two (`unlessSignal_cut`), and a node adds
nothing to that but itself (`within_cut`).
-/
import ExprLang.Proofs.Eval.Activation
import ExprLang.Proofs.Node.Canonical

namespace ExprLang

set_option autoImplicit false

/-- A tree of prefix and infix expressions over integers and truth values. -/
inductive Node.Operators : Node → Prop where
  | integer (line value : Int) : Operators (.integer line value)
  | boolean (line : Int) (value : Bool) : Operators (.boolean line value)
  | prefixed {line : Int} {operator : String} {operand : Node} (inner : Operators operand) :
      Operators (.prefixed line operator operand)
  | binary {line : Int} {operator : String} {left right : Node} (first : Operators left)
      (second : Operators right) : Operators (.binary line left operator right)

/-- What such a tree comes to, where no operator makes an error of its operands. -/
inductive Node.Amounts : Node → Value → Prop where
  | integer (line value : Int) : Amounts (.integer line value) (.integer value)
  | boolean (line : Int) (value : Bool) : Amounts (.boolean line value) (.boolean value)
  | prefixed {line : Int} {operator : String} {operand : Node} {value : Value}
      (inner : Amounts operand value)
      (defined : (Operator.applyPrefix operator value).isError = false) :
      Amounts (.prefixed line operator operand) (Operator.applyPrefix operator value)
  | binary {line : Int} {operator : String} {left right : Node} {value value' result : Value}
      (first : Amounts left value) (second : Amounts right value')
      (applied : Operator.applyInfix operator value value' = .ok result)
      (defined : result.isError = false) : Amounts (.binary line left operator right) result

namespace Operator

/-- No operator makes a `return`. -/
theorem isSignal_applyPrefix {operator : String} {operand : Value}
    (defined : (applyPrefix operator operand).isError = false) :
    (applyPrefix operator operand).isSignal = false := by
  unfold applyPrefix at defined ⊢
  split at defined <;> first | rfl | cases defined

theorem isSignal_applyInfix {operator : String} {left right result : Value}
    (applied : applyInfix operator left right = .ok result) (defined : result.isError = false) :
    result.isSignal = false := by
  unfold applyInfix applyIntegers applyBooleans divide at applied
  repeat' split at applied
  all_goals first | cases applied | cases eq_error_of_worded applied
  all_goals first | rfl | cases defined

end Operator

/-- What a tree amounts to is no signal. -/
theorem Node.Amounts.isSignal {tree : Node} {value : Value} (amounts : tree.Amounts value) :
    value.isSignal = false := by
  cases amounts with
  | integer | boolean => rfl
  | prefixed _ defined => exact Operator.isSignal_applyPrefix defined
  | binary _ _ applied defined => exact Operator.isSignal_applyInfix applied defined

namespace Evaluator

open Eval

variable {evaluator : Evaluator} {scope : ScopeId} {machine : Machine} {value result : Value}
  {deepest deepest' levels : Nat}

/-- What becomes of a value when nodes as deep as this have to be evaluated for it. -/
def cut (evaluator : Evaluator) (deepest : Nat) (value : Value) : Except EvalFault Value :=
  if (deepest : Int) ≤ evaluator.maxDepth then .ok value
  else worded .evalDepth evaluator.maxDepth

theorem cut_of_le (within : (deepest : Int) ≤ evaluator.maxDepth) :
    evaluator.cut deepest value = .ok value := if_pos within

theorem cut_of_lt (beyond : evaluator.maxDepth < deepest) :
    evaluator.cut deepest value = worded .evalDepth evaluator.maxDepth :=
  if_neg (Int.not_le.2 beyond)

theorem cut_cases (evaluator : Evaluator) (deepest : Nat) (value : Value) :
    (∃ held, evaluator.cut deepest value = .ok held) ∨
      evaluator.cut deepest value = .error .tooLong := by
  by_cases within : (deepest : Int) ≤ evaluator.maxDepth
  · exact .inl ⟨_, cut_of_le within⟩
  · rw [cut_of_lt (Int.not_le.1 within)]
    exact (worded_cases _ _).imp_left fun same => ⟨_, same⟩

/-- What comes after a value may go deeper than the value did. Where the limit has cut
it, nothing comes after. -/
theorem unlessSignal_cut {step : Eval Value} {next : Value → Eval Value}
    (plain : value.isSignal = false)
    (came : step machine = (evaluator.cut deepest value, machine))
    (goes : next value machine = (evaluator.cut deepest' result, machine)) :
    unlessSignal step next machine =
      (evaluator.cut (max deepest deepest') result, machine) := by
  rw [unlessSignal_apply, came]
  by_cases within : (deepest : Int) ≤ evaluator.maxDepth
  · rw [cut_of_le within]
    dsimp only
    rw [plain, if_neg nofun, goes]
    by_cases within' : (deepest' : Int) ≤ evaluator.maxDepth
    · rw [cut_of_le within', cut_of_le (by omega)]
    · rw [cut_of_lt (by omega), cut_of_lt (by omega)]
  · rw [cut_of_lt (by omega), cut_of_lt (by omega)]
    rcases worded_cases .evalDepth evaluator.maxDepth with same | same
    · rw [same]
      rfl
    · rw [same]

/-- A node is cut where its form is, or before that if it is itself too deep. -/
theorem within_cut {node : Node} (below : machine.depth < deepest)
    (formed : (machine.depth : Int) < evaluator.maxDepth →
      evaluator.form (evaluator.evaluateWithin levels) node scope machine.deeper =
        (evaluator.cut deepest value, machine.deeper)) :
    evaluator.evaluateWithin (levels + 1) node scope machine =
      (evaluator.cut deepest value, machine) := by
  change evaluator.visit _ node scope machine = _
  unfold Machine.deeper at formed
  unfold visit
  by_cases room : (machine.depth : Int) < evaluator.maxDepth
  · rw [if_neg (Int.not_le.2 room), formed room]
    rcases evaluator.cut_cases deepest value with ⟨held, same⟩ | same
    · rw [same]
      rfl
    · rw [same]
      rfl
  · rw [if_pos (Int.not_lt.1 room), cut_of_lt (by omega)]
    rfl

/-- A program of one statement is cut where the statement is. -/
theorem runProgram_cut {inner : Inner} {statement : Node} (plain : value.isSignal = false)
    (came : inner statement scope machine = (evaluator.cut deepest value, machine)) :
    runProgram inner scope [statement] .null machine =
      (evaluator.cut deepest value, machine) := by
  change andThen _ _ _ = _
  unfold andThen
  rw [came]
  by_cases within : (deepest : Int) ≤ evaluator.maxDepth
  · rw [cut_of_le within]
    dsimp only
    rw [plain]
    rfl
  · rw [cut_of_lt (by omega)]
    rcases worded_cases .evalDepth evaluator.maxDepth with same | same
    · rw [same]
      rfl
    · rw [same]

/-- A tree is cut where its lowest leaf is. The stack has to reach the leaf, or a node
that is beyond the limit. -/
theorem within_amounts (evaluator : Evaluator) (scope : ScopeId) {tree : Node}
    (amounts : tree.Amounts value) {levels : Nat} {machine : Machine}
    (inside : machine.depth ≤ evaluator.maxDepth.toNat)
    (stack : tree.height ≤ levels ∨ evaluator.maxDepth.toNat < machine.depth + levels) :
    evaluator.evaluateWithin levels tree scope machine =
      (evaluator.cut (machine.depth + tree.height) value, machine) := by
  have deeper : machine.deeper.depth = machine.depth + 1 := rfl
  induction amounts generalizing levels machine with
  | integer | boolean =>
      rw [Node.height] at stack ⊢
      obtain ⟨levels, rfl⟩ : ∃ fewer, levels = fewer + 1 := Nat.exists_eq_add_one.2 (by omega)
      refine within_cut (Nat.lt_succ_self _) fun room => ?_
      rw [cut_of_le (by omega)]
      rfl
  | @prefixed line operator operand value inner defined ih =>
      rw [Node.height] at stack ⊢
      obtain ⟨levels, rfl⟩ : ∃ fewer, levels = fewer + 1 := Nat.exists_eq_add_one.2 (by omega)
      refine within_cut (by omega) fun room => ?_
      have came := @ih levels machine.deeper (by omega) (by omega) rfl
      have goes : (done (Operator.applyPrefix operator value) : Eval Value) machine.deeper =
          (evaluator.cut 0 (Operator.applyPrefix operator value), machine.deeper) := by
        rw [cut_of_le (by omega)]
        rfl
      have deep : max (machine.deeper.depth + operand.height) 0 =
          machine.depth + (operand.height + 1) := by omega
      rw [← deep]
      exact unlessSignal_cut inner.isSignal came goes
  | @binary line operator left right value value' result first second applied defined ih ih' =>
      rw [Node.height] at stack ⊢
      obtain ⟨levels, rfl⟩ : ∃ fewer, levels = fewer + 1 := Nat.exists_eq_add_one.2 (by omega)
      refine within_cut (by omega) fun room => ?_
      have came := @ih levels machine.deeper (by omega) (by omega) rfl
      have came' := @ih' levels machine.deeper (by omega) (by omega) rfl
      have goes : (ofExcept (Operator.applyInfix operator value value') : Eval Value)
          machine.deeper = (evaluator.cut 0 result, machine.deeper) := by
        rw [cut_of_le (by omega), applied]
        rfl
      have deep : max (machine.deeper.depth + left.height)
          (max (machine.deeper.depth + right.height) 0) =
            machine.depth + (max left.height right.height + 1) := by omega
      rw [← deep]
      exact unlessSignal_cut first.isSignal came (unlessSignal_cut second.isSignal came' goes)

/-- The program and its statement are two nodes more. -/
theorem within_amounts_program (evaluator : Evaluator) {tree : Node}
    (amounts : tree.Amounts value) (line : Int) (scope : ScopeId) (heap : Heap) {levels : Nat}
    (stack : tree.height + 2 ≤ levels ∨ evaluator.maxDepth.toNat < levels) :
    evaluator.evaluateWithin levels (.program [.expressionStatement line tree]) scope
      (.ofHeap heap) = (evaluator.cut (tree.height + 2) value, .ofHeap heap) := by
  obtain ⟨levels, rfl⟩ : ∃ fewer, levels = fewer + 1 := Nat.exists_eq_add_one.2 (by omega)
  have first : (Machine.ofHeap heap).depth = 0 := rfl
  have second : (Machine.ofHeap heap).deeper.depth = 1 := rfl
  have third : (Machine.ofHeap heap).deeper.deeper.depth = 2 := rfl
  refine within_cut (by omega) fun room => runProgram_cut amounts.isSignal ?_
  obtain ⟨levels, rfl⟩ : ∃ fewer, levels = fewer + 1 := Nat.exists_eq_add_one.2 (by omega)
  refine within_cut (by omega) fun room' => ?_
  have inside : evaluator.evaluateWithin levels tree scope
      (Machine.ofHeap heap).deeper.deeper = _ :=
    evaluator.within_amounts scope amounts (by omega) (by omega)
  rw [third, Nat.add_comm] at inside
  exact inside

/-! ## Trees that come to a value -/

/-- What goes on to a value that is no error has started with one. -/
theorem of_unlessSignal {step : Eval Value} {next : Value → Eval Value}
    (ended : (unlessSignal step next machine).1 = .ok result) (defined : result.isError = false) :
    ∃ value, (step machine).1 = .ok value ∧ value.isError = false ∧
      (value.isSignal = false → (next value (step machine).2).1 = .ok result) := by
  rw [unlessSignal_apply] at ended
  generalize step machine = came at ended ⊢
  rcases came with ⟨fault | value, after⟩
  · cases ended
  · refine ⟨value, rfl, ?_, fun plain => ?_⟩
    · cases value with
      | error cause =>
          cases ended
          exact defined
      | _ => rfl
    · dsimp only at ended
      rwa [plain, if_neg Bool.false_ne_true] at ended

/-- A node that has a value and no error has it from its form. -/
theorem of_within {node : Node}
    (ended : (evaluator.evaluateWithin levels node scope machine).1 = .ok result)
    (defined : result.isError = false) :
    ∃ fewer, (evaluator.form (evaluator.evaluateWithin fewer) node scope machine.deeper).1 =
      .ok result := by
  cases levels with
  | zero => cases ended
  | succ levels =>
      refine ⟨levels, ?_⟩
      change (evaluator.visit _ node scope machine).1 = _ at ended
      unfold visit at ended
      unfold Machine.deeper
      split at ended
      · cases eq_error_of_worded ended
        cases defined
      · generalize evaluator.form _ node scope _ = formed at ended ⊢
        obtain ⟨came, after⟩ := formed
        dsimp only at ended
        split at ended
        · split at ended
          · cases ended
            cases defined
          · cases ended
        · exact ended

/-- A tree that is evaluated to a value and no error amounts to it. -/
theorem amounts_of_within {tree : Node} (operators : tree.Operators)
    (ended : (evaluator.evaluateWithin levels tree scope machine).1 = .ok result)
    (defined : result.isError = false) : tree.Amounts result := by
  induction operators generalizing levels machine result with
  | integer line value =>
      obtain ⟨fewer, formed⟩ := of_within ended defined
      cases formed
      exact .integer line value
  | boolean line value =>
      obtain ⟨fewer, formed⟩ := of_within ended defined
      cases formed
      exact .boolean line value
  | prefixed inner ih =>
      obtain ⟨fewer, formed⟩ := of_within ended defined
      obtain ⟨value, came, defined', goes⟩ := of_unlessSignal formed defined
      have amounts := ih came defined'
      cases goes amounts.isSignal
      exact .prefixed amounts defined
  | binary first second ih ih' =>
      obtain ⟨fewer, formed⟩ := of_within ended defined
      obtain ⟨value, came, defined', goes⟩ := of_unlessSignal formed defined
      have amounts := ih came defined'
      obtain ⟨value', came', defined'', goes'⟩ :=
        of_unlessSignal (goes amounts.isSignal) defined
      have amounts' := ih' came' defined''
      exact .binary amounts amounts' (goes' amounts'.isSignal) defined

/-- A program that is one expression has its value from the expression. -/
theorem amounts_of_program {tree : Node} (operators : tree.Operators) {line : Int}
    (ended : (evaluator.evaluateWithin levels (.program [.expressionStatement line tree]) scope
      machine).1 = .ok result)
    (defined : result.isError = false) : tree.Amounts result := by
  obtain ⟨fewer, formed⟩ := of_within ended defined
  -- The program goes on from the value of its statement to no other one.
  have statement : ∃ value, (evaluator.evaluateWithin fewer (.expressionStatement line tree) scope
      machine.deeper).1 = .ok value ∧ value.isError = false ∧
        (value.isSignal = false → value = result) := by
    change (andThen _ _ _).1 = _ at formed
    unfold andThen at formed
    generalize evaluator.evaluateWithin fewer _ scope _ = came at formed ⊢
    rcases came with ⟨fault | value, after⟩
    · cases formed
    · refine ⟨value, rfl, ?_, fun plain => ?_⟩
      · cases value with
        | error cause =>
            cases formed
            exact defined
        | _ => rfl
      · dsimp only at formed
        rw [plain] at formed
        exact Except.ok.inj formed
  obtain ⟨value, came, defined', same⟩ := statement
  obtain ⟨fewer', inside⟩ := of_within came defined'
  have amounts := amounts_of_within operators inside defined'
  exact same amounts.isSignal ▸ amounts

/-- **The depth limit cuts at the height of a tree.** Take a tree of operators over
literals, which as a program is evaluated to a value and not to an error, be it under
limits as high as one likes. Under any limit it is evaluated to the same value, if the
limit is at least two more than the height of the tree, and to the error of the limit
otherwise; a limit that cannot be written has no error and breaks evaluation off. Either
way the heap is left as it was, and all that is asked of the stack is that it reaches the
lowest leaf or beyond the limit. -/
theorem evaluate_height {tree : Node} (operators : tree.Operators) {line : Int} {scope : ScopeId}
    {heap : Heap} {value : Value}
    (unlimited : ∃ (unlimited : Evaluator) (levels : Nat),
      (unlimited.evaluateWithin levels (.program [.expressionStatement line tree]) scope
        (.ofHeap heap)).1 = .ok value)
    (defined : value.isError = false) (evaluator : Evaluator) {levels : Nat}
    (stack : tree.height + 2 ≤ levels ∨ evaluator.maxDepth.toNat < levels) :
    let ended := evaluator.evaluateWithin levels (.program [.expressionStatement line tree]) scope
      (.ofHeap heap)
    ((tree.height + 2 : Int) ≤ evaluator.maxDepth → ended = (.ok value, .ofHeap heap)) ∧
      (evaluator.maxDepth < (tree.height + 2 : Int) →
        (Decimal.Writable evaluator.maxDepth → ∃ cause : EvalError,
          cause.message =
            "maximum evaluation depth of " ++ toString evaluator.maxDepth ++ " exceeded" ∧
          ended = (.ok (.error cause), .ofHeap heap)) ∧
        (¬ Decimal.Writable evaluator.maxDepth → ended = (.error .tooLong, .ofHeap heap))) := by
  obtain ⟨_, _, came⟩ := unlimited
  have amounts := amounts_of_program operators came defined
  have ended := evaluator.within_amounts_program amounts line scope heap stack
  dsimp only
  rw [ended]
  refine ⟨fun within => ?_, fun beyond =>
    ⟨fun writable => ⟨.evalDepth evaluator.maxDepth, rfl, ?_⟩, fun long => ?_⟩⟩
  · rw [cut_of_le (by omega)]
  · rw [cut_of_lt (by omega), worded_of_writable writable]
  · rw [cut_of_lt (by omega), worded_of_long long]

/-- The text `!(1 < 2) == (-3 > 4)`. -/
def denials : Node :=
  .binary 1 (.prefixed 1 "!" (.binary 1 (.integer 1 1) "<" (.integer 1 2))) "=="
    (.binary 1 (.prefixed 1 "-" (.integer 1 3)) ">" (.integer 1 4))

/-- Four nodes high, it takes a limit of six. -/
theorem evaluate_height_denials :
    let program : Node := .program [.expressionStatement 1 denials]
    let heap := Heap.empty.add ⟨[], none⟩
    Evaluator.evaluateWithin ⟨"<input>", 64, 6⟩ 500 program 0 (.ofHeap heap) =
        (.ok (.boolean true), .ofHeap heap) ∧
      ∃ cause : EvalError, cause.message = "maximum evaluation depth of 5 exceeded" ∧
        Evaluator.evaluateWithin ⟨"<input>", 64, 5⟩ 500 program 0 (.ofHeap heap) =
          (.ok (.error cause), .ofHeap heap) := by
  intro program heap
  have operators : denials.Operators :=
    .binary (.prefixed (.binary (.integer 1 1) (.integer 1 2)))
      (.binary (.prefixed (.integer 1 3)) (.integer 1 4))
  have amounts : denials.Amounts (.boolean true) :=
    .binary (.prefixed (.binary (.integer 1 1) (.integer 1 2) rfl rfl) rfl)
      (.binary (.prefixed (.integer 1 3) rfl) (.integer 1 4) rfl rfl) rfl rfl
  have unlimited : standard.evaluateWithin 6 program 0 (.ofHeap heap) = _ :=
    standard.within_amounts_program amounts 1 0 heap (.inl (by decide))
  have cut (evaluator : Evaluator) (stack : evaluator.maxDepth.toNat < 500) :=
    evaluate_height operators ⟨standard, 6, congrArg Prod.fst unlimited⟩ rfl evaluator (.inr stack)
  have five : Decimal.Writable 5 := by decide +kernel
  obtain ⟨cause, said, ended⟩ := ((cut ⟨"<input>", 64, 5⟩ (by decide)).2 (by decide)).1 five
  exact ⟨(cut ⟨"<input>", 64, 6⟩ (by decide)).1 (by decide), cause, said.trans (by decide), ended⟩

end Evaluator

end ExprLang
