/-
# ExprLang.Eval.Evaluate — the value of a tree

Each form of node is evaluated over `inner`, evaluation one level deeper;
`evaluate` ties the knot, one unit of stack per level. Operands are looked at
from left to right, and one that is a signal is the value of the whole form. A
`return` is unwrapped where a call or the program ends, nowhere else.

A function body runs in a new scope, enclosed by the scope that the function
keeps, with its parameters bound to the arguments. Nothing else makes a scope.
-/
import ExprLang.Eval.Machine

namespace ExprLang

set_option autoImplicit false

namespace Evaluator

open Eval

/-- Evaluation one level deeper. -/
abbrev Inner := Node → ScopeId → Eval Value

/-- Statements of a program in order; the value of the last. A `return` ends
the program with its value, an error with the error. -/
def runProgram (inner : Inner) (scope : ScopeId) : List Node → Value → Eval Value
  | [], last => done last
  | statement :: rest, _ => do
      let value ← inner statement scope
      if value.isSignal then return value.arrived else runProgram inner scope rest value

/-- Statements of a block in order; the value of the last. A signal ends the
block and is passed on as it is. -/
def runBlock (inner : Inner) (scope : ScopeId) : List Node → Value → Eval Value
  | [], last => done last
  | statement :: rest, _ => do
      let value ← inner statement scope
      if value.isSignal then return value else runBlock inner scope rest value

/-- Arguments in order, then what is done with their values. -/
def withArguments (inner : Inner) (scope : ScopeId) :
    List Node → (List Value → Eval Value) → Eval Value
  | [], next => next []
  | argument :: rest, next =>
      unlessSignal (inner argument scope) fun value =>
        withArguments inner scope rest fun values => next (value :: values)

/-- The scope of a call: enclosed by the function's own, with the parameters
bound from left to right. -/
def callScope (parameters : List Name) (values : List Value) (outer : ScopeId) : Scope :=
  (parameters.zip values).foldl (fun scope binding => scope.set binding.1.text binding.2)
    ⟨[], some outer⟩

/-- Run a function body in a new scope, one call deeper. -/
def enter (inner : Inner) (parameters : List Name) (body : Node) (outer : ScopeId)
    (values : List Value) : Eval Value := fun machine =>
  let scope := machine.heap.next
  let heap := machine.heap.add (callScope parameters values outer)
  let ended := inner body scope { machine with heap, callDepth := machine.callDepth + 1 }
  (ended.1.map Value.arrived, { ended.2 with callDepth := ended.2.callDepth - 1 })

/-- Call a value with arguments. -/
def apply (evaluator : Evaluator) (inner : Inner) (callee : Value) (values : List Value) :
    Eval Value := fun machine =>
  match callee with
  | .function parameters body outer =>
      if values.length ≠ parameters.length then
        fail (.wrongArity parameters.length values.length) machine
      else if evaluator.maxCallDepth ≤ machine.callDepth then
        ofExcept (worded .callDepth evaluator.maxCallDepth) machine
      else enter inner parameters body outer values machine
  | other => fail (.notAFunction other.type) machine

/-- What an evaluator says of a value that is no node, if the line can be written. -/
def unknown (evaluator : Evaluator) (typeName : String) (line : Option Int) : EvalFault :=
  if ∀ number ∈ line, Decimal.Writable number then
    .unknownNode ⟨typeName, line, some evaluator.file⟩
  else .tooLong

/-- The value of a node by its form. -/
def form (evaluator : Evaluator) (inner : Inner) (node : Node) (scope : ScopeId) : Eval Value :=
  match node with
  | .program statements => runProgram inner scope statements .null
  | .block _ statements => runBlock inner scope statements .null
  | .expressionStatement _ expression => inner expression scope
  | .returnStatement _ result =>
      unlessSignal (inner result scope) fun value => done (.returned value)
  | .letStatement _ name result =>
      unlessSignal (inner result scope) fun value => do
        bindName scope name.text value
        return .null
  | .integer _ value => done (.integer value)
  | .boolean _ value => done (.boolean value)
  | .function _ parameters body => done (.function parameters body scope)
  | .identifier name => lookup scope name.text
  | .prefixed _ operator operand =>
      unlessSignal (inner operand scope) fun value => done (Operator.applyPrefix operator value)
  | .binary _ left operator right =>
      unlessSignal (inner left scope) fun leftValue =>
        unlessSignal (inner right scope) fun rightValue =>
          ofExcept (Operator.applyInfix operator leftValue rightValue)
  | .ifThen _ condition consequence =>
      unlessSignal (inner condition scope) fun value =>
        if value.truthy then inner consequence scope else done .null
  | .ifElse _ condition consequence alternative =>
      unlessSignal (inner condition scope) fun value =>
        if value.truthy then inner consequence scope else inner alternative scope
  | .call _ callee arguments =>
      unlessSignal (inner callee scope) fun target =>
        withArguments inner scope arguments fun values => apply evaluator inner target values
  | .sequence _ => breakOff (evaluator.unknown node.typeName none)
  | .foreign value => breakOff (evaluator.unknown value.typeName value.line?)

/-- Evaluate a node one level deeper than the machine is, unless the limit is
reached. The depth is counted back however that ends. Exhaustion of the stack
becomes an error value at the outermost node. -/
def visit (evaluator : Evaluator) (inner : Inner) (node : Node) (scope : ScopeId) :
    Eval Value := fun machine =>
  if evaluator.maxDepth ≤ machine.depth then
    ofExcept (worded .evalDepth evaluator.maxDepth) machine
  else
    let ended := form evaluator inner node scope { machine with depth := machine.depth + 1 }
    let after := { ended.2 with depth := ended.2.depth - 1 }
    match ended.1 with
    | .error .stackExhausted =>
        if machine.depth = 0 then fail .stackExhausted after else breakOff .stackExhausted after
    | result => (result, after)

/-- Evaluate a node in a scope over so many levels of stack. -/
def evaluateWithin (evaluator : Evaluator) : Nat → Inner
  | 0 => fun _ _ => breakOff .stackExhausted
  | levels + 1 => visit evaluator (evaluateWithin evaluator levels)

end Evaluator

end ExprLang
