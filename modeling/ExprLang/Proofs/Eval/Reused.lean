/-
# ExprLang.Proofs.Eval.Reused — one evaluator for many calls

A host may keep an evaluator and call it again and again. What it keeps from one
call to the next are the two counters, and a counter that is not counted back would
make a limit a little lower for every later call. `answers` is such a series of
calls. In between the host may do to the scopes what it likes, and each call may end
in a value, an error or a fault; the machine that it leaves is the one that the next
call starts on. `freshAnswers` is the same series with a new evaluator for each call,
so that only the scopes are handed on.

A call from outside finds both counters at zero and leaves them there
(`answer_ofHeap`), however it ends. So the two series cannot be told apart
(`answers_eq_fresh`).
-/
import ExprLang.Proofs.Eval.Balanced

namespace ExprLang

set_option autoImplicit false

/-- A call from outside: what the host has done to the scopes before it, the node and
the scope that are handed over, and how many levels of stack are left there. -/
structure Request where
  prepare : Heap → Heap
  node : Node
  scope : ScopeId
  levels : Nat

namespace Evaluator

/-- How a request ends, on the machine that the evaluator was left with. -/
def answer (evaluator : Evaluator) (request : Request) (machine : Machine) :
    Except EvalFault Value × Machine :=
  evaluator.evaluateWithin request.levels request.node request.scope
    { machine with heap := request.prepare machine.heap }

/-- How requests end that one evaluator is sent one after the other, each with the
machine that is left. -/
def answers (evaluator : Evaluator) :
    Machine → List Request → List (Except EvalFault Value × Machine)
  | _, [] => []
  | machine, request :: later =>
      let ended := evaluator.answer request machine
      ended :: evaluator.answers ended.2 later

/-- How requests end that are sent to a new evaluator each, with the scopes that are
left. -/
def freshAnswers (evaluator : Evaluator) :
    Heap → List Request → List (Except EvalFault Value × Heap)
  | _, [] => []
  | heap, request :: later =>
      let ended := evaluator.answer request (.ofHeap heap)
      (ended.1, ended.2.heap) :: evaluator.freshAnswers ended.2.heap later

/-- After a call from outside the evaluator is outside of any node and call again. -/
theorem answer_ofHeap (evaluator : Evaluator) (request : Request) (heap : Heap) :
    (evaluator.answer request (.ofHeap heap)).2 =
      .ofHeap (evaluator.answer request (.ofHeap heap)).2.heap := by
  have level := within_balanced evaluator request.levels request.node request.scope
    (.ofHeap (request.prepare heap))
  exact level.eq_of_heap

/-- **An evaluator can be used again after any outcome.** Whatever an evaluator with
some limits is sent, in whatever scopes and on however much stack, and however each
call ends: after each call both counters are zero, and each call ends in the same
value, error or fault and leaves the same scopes as with a new evaluator that has the
same limits. -/
theorem answers_eq_fresh (evaluator : Evaluator) (heap : Heap) (requests : List Request) :
    (∀ ended ∈ evaluator.answers (.ofHeap heap) requests,
      ended.2.depth = 0 ∧ ended.2.callDepth = 0) ∧
    (evaluator.answers (.ofHeap heap) requests).map (fun ended => (ended.1, ended.2.heap)) =
      evaluator.freshAnswers heap requests := by
  induction requests generalizing heap with
  | nil => exact ⟨List.forall_mem_nil _, rfl⟩
  | cons request later ih =>
      have restored := evaluator.answer_ofHeap request heap
      obtain ⟨zero, same⟩ := ih (evaluator.answer request (.ofHeap heap)).2.heap
      rw [← restored] at zero same
      refine ⟨List.forall_mem_cons.2 ⟨?_, zero⟩, congrArg (List.cons _) same⟩
      rw [restored]
      exact ⟨rfl, rfl⟩

/-- Calls in one scope that end in every way there is: with a value, at each of the
limits, on too little stack, with either kind of fault inside of calls, with a `return`. -/
example :
    let within (body : Node) : Node :=
      .call 1 (.function 1 [] (.block 1 [.expressionStatement 1 body])) []
    let again : Node := .call 1 (.identifier ⟨"f", 1⟩) []
    let bind : Node :=
      .letStatement 1 ⟨"f", 1⟩ (.function 1 [] (.block 1 [.expressionStatement 1 again]))
    let deep : Node := .prefixed 1 "-" (.prefixed 1 "-" (.prefixed 1 "-" (within again)))
    let long : Node := .binary 1 (.integer 1 (10 ^ 5000)) "/" (.integer 1 0)
    let requests : List Request :=
      [⟨id, bind, 0, 20⟩, ⟨id, again, 0, 20⟩, ⟨id, deep, 0, 20⟩, ⟨id, again, 0, 5⟩,
        ⟨id, within (.foreign (.other "NoneType")), 0, 20⟩, ⟨id, within (within long), 0, 20⟩,
        ⟨id, .returnStatement 1 (within (within (.integer 1 7))), 0, 20⟩]
    ((⟨"<input>", 2, 9⟩ : Evaluator).answers (.ofHeap (Heap.empty.add ⟨[], none⟩)) requests).map
        (fun ended => match ended.1 with
          | .ok value => (value.display 20).toOption
          | .error fault => some fault.kind) =
      [some "null", some "ERROR: maximum call depth of 2 exceeded",
        some "ERROR: maximum evaluation depth of 9 exceeded",
        some "ERROR: maximum recursion depth exceeded", some "UnknownNodeException",
        some "ValueError", some "7"] := by
  decide +kernel

end Evaluator

end ExprLang
