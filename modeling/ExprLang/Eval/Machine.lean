/-
# ExprLang.Eval.Machine — evaluation with a heap and two counters

An evaluation step works on a heap of scopes and counts how many nodes and how
many calls it is inside of. It ends with a value or breaks off with a fault;
either way the machine it leaves behind is kept.
-/
import ExprLang.Eval.Operator
import ExprLang.Scope
import ExprLang.Settings

namespace ExprLang

set_option autoImplicit false

/-- The state of an evaluation. -/
structure Machine where
  heap : Heap
  depth : Nat
  callDepth : Nat
  deriving Repr

/-- A machine outside of any node and call. -/
def Machine.ofHeap (heap : Heap) : Machine := ⟨heap, 0, 0⟩

/-- The limits of an evaluation and the name of its source. -/
structure Evaluator where
  file : String
  maxCallDepth : Int
  maxDepth : Int
  deriving DecidableEq, Repr

/-- The evaluator with the default limits. -/
def Evaluator.standard : Evaluator := ⟨"<input>", defaultCallDepth, defaultEvalDepth⟩

/-- An evaluation step. -/
def Eval (α : Type) : Type := Machine → Except EvalFault α × Machine

namespace Eval

variable {α β : Type}

/-- End with a result. -/
def done (result : α) : Eval α := fun machine => (.ok result, machine)

/-- Go on with a result; a fault ends both steps. -/
def andThen (step : Eval α) (next : α → Eval β) : Eval β := fun machine =>
  match step machine with
  | (.ok result, after) => next result after
  | (.error fault, after) => (.error fault, after)

instance : Monad Eval where
  pure := done
  bind := andThen

/-- Break off with a fault. -/
def breakOff (fault : EvalFault) : Eval α := fun machine => (.error fault, machine)

/-- A result that needs no machine. -/
def ofExcept (result : Except EvalFault α) : Eval α := fun machine => (result, machine)

/-- End with an error value. -/
def fail (cause : EvalError) : Eval Value := done (.error cause)

/-- The value of a name in a scope. -/
def lookup (scope : ScopeId) (name : String) : Eval Value := fun machine =>
  match machine.heap.lookup scope name with
  | some value => (.ok value, machine)
  | none => fail (.unbound name) machine

/-- Bind a name in a scope. -/
def bindName (scope : ScopeId) (name : String) (value : Value) : Eval Unit := fun machine =>
  (.ok (), { machine with heap := machine.heap.set scope name value })

/-- Go on with a value, unless it is a signal. -/
def unlessSignal (step : Eval Value) (next : Value → Eval Value) : Eval Value := do
  let value ← step
  if value.isSignal then return value else next value

end Eval

end ExprLang
