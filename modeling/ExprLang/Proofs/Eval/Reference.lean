/-
# ExprLang.Proofs.Eval.Reference — evaluation in direct style

The evaluator passes `return` and errors along as values and looks at every
operand for them. Here is the same language written the other way round: data
are integers, truth values, null and closures only (and what a host put into a
scope), a `return` and an error are thrown, and no rule looks at an operand to
see whether it may go on. A call and the program catch a `return`; nothing
catches an error.

The counters are arguments. `left` says how many nodes deep evaluation may still
go, so evaluation is recursive in it and needs no stack of its own; `calls` says
how many calls are open.
-/
import ExprLang.Eval.Evaluate

namespace ExprLang.Reference

set_option autoImplicit false

/-- What a program computes with. -/
inductive Datum where
  | integer (value : Int)
  | boolean (value : Bool)
  | null
  | closure (parameters : List Name) (body : Node) (scope : ScopeId)
  | object

namespace Datum

def type : Datum → ValueType
  | .integer _ => .integer
  | .boolean _ => .boolean
  | .null => .null
  | .closure .. => .function
  | .object => .object

/-- Whether a datum counts as true in a condition. -/
def truthy : Datum → Bool
  | .boolean value => value
  | .null => false
  | .integer _ | .closure .. | .object => true

end Datum

/-- What can be thrown. -/
inductive Thrown where
  | returned (datum : Datum)
  | error (cause : EvalError)

/-- A scope: what it binds and what encloses it. -/
structure Scope where
  bindings : String → Option Datum
  outer : Option ScopeId

/-- Bind a name in a scope. -/
def Scope.bind (scope : Scope) (name : String) (datum : Datum) : Scope :=
  { scope with bindings := fun other => if other = name then some datum else scope.bindings other }

/-- The scopes there are, in the order they were made. -/
abbrev Heap := List Scope

/-- The datum that the nearest enclosing scope binds a name to. Links lead to
earlier scopes; one that does not is not followed. -/
def Heap.lookup (heap : Heap) (place : ScopeId) (name : String) : Option Datum :=
  match heap[place]? with
  | none => none
  | some scope =>
    match scope.bindings name with
    | some datum => some datum
    | none =>
      match scope.outer with
      | none => none
      | some outer => if outer < place then Heap.lookup heap outer name else none
termination_by place

/-- A computation over the heap that may throw. What it did to the heap before it
threw stays done. -/
abbrev Run := ExceptT Thrown (StateM Heap)

/-- Throw an error. -/
def fail {α : Type} (cause : EvalError) : Run α := throw (.error cause)

/-- Run a computation and catch a `return` that it throws. -/
def catchReturn (body : Run Datum) : Run Datum :=
  tryCatch body fun
    | .returned datum => pure datum
    | .error cause => fail cause

/-- The datum of a name. -/
def read (scope : ScopeId) (name : String) : Run Datum := do
  let heap ← getThe Heap
  match heap.lookup scope name with
  | some datum => return datum
  | none => fail (.unbound name)

/-- Bind a name in a scope. -/
def assign (scope : ScopeId) (name : String) (datum : Datum) : Run Unit :=
  modifyThe Heap fun heap => heap.modify scope (·.bind name datum)

/-- Make a scope. -/
def allocate (scope : Scope) : Run ScopeId := do
  let heap ← getThe Heap
  set (heap ++ [scope])
  return heap.length

/-- A prefix operator on a datum. -/
def unary (operator : String) (operand : Datum) : Run Datum :=
  if operator = "!" then return .boolean (!operand.truthy)
  else
    match operand with
    | .integer value =>
        if operator = "-" then return .integer (-value)
        else fail (.unknownPrefix operator .integer)
    | other => fail (.unknownPrefix operator other.type)

/-- An infix operator on two integers. Division goes toward zero. -/
def arithmetic (operator : String) (left right : Int) : Run Datum :=
  match operator with
  | "+" => return .integer (left + right)
  | "-" => return .integer (left - right)
  | "*" => return .integer (left * right)
  | "/" => if right = 0 then fail (.divisionByZero left) else return .integer (left.tdiv right)
  | "<" => return .boolean (left < right)
  | ">" => return .boolean (left > right)
  | "<=" => return .boolean (left ≤ right)
  | ">=" => return .boolean (left ≥ right)
  | "==" => return .boolean (left == right)
  | "!=" => return .boolean (left != right)
  | _ => fail (.unknownInfix .integer operator .integer)

/-- An infix operator on two data. Only integers and truth values have any. -/
def binary (operator : String) (left right : Datum) : Run Datum :=
  match left, right with
  | .integer leftValue, .integer rightValue => arithmetic operator leftValue rightValue
  | .boolean leftValue, .boolean rightValue =>
      match operator with
      | "==" => return .boolean (leftValue == rightValue)
      | "!=" => return .boolean (leftValue != rightValue)
      | _ => fail (.unknownInfix .boolean operator .boolean)
  | left, right =>
      if left.type = right.type then fail (.unknownInfix left.type operator right.type)
      else fail (.typeMismatch left.type operator right.type)

/-- The datum of the last of some nodes, null if there is none. -/
def sequence (each : Node → Run Datum) : List Node → Datum → Run Datum
  | [], last => return last
  | node :: rest, _ => do
      let datum ← each node
      sequence each rest datum

/-- The scope of a call. -/
def callScope (parameters : List Name) (data : List Datum) (outer : ScopeId) : Scope :=
  (parameters.zip data).foldl (fun scope binding => scope.bind binding.1.text binding.2)
    ⟨fun _ => none, some outer⟩

/-- Call a datum. `enter` runs a body in a scope, one call deeper. -/
def call (limits : Evaluator) (calls : Nat) (enter : Node → ScopeId → Run Datum) (callee : Datum)
    (data : List Datum) : Run Datum :=
  match callee with
  | .closure parameters body outer =>
      if data.length ≠ parameters.length then
        fail (.wrongArity parameters.length data.length)
      else if limits.maxCallDepth ≤ calls then fail (.callDepth limits.maxCallDepth)
      else do
        let scope ← allocate (callScope parameters data outer)
        catchReturn (enter body scope)
  | other => fail (.notAFunction other.type)

/-- The datum of a node in a scope. A value that is no node has none; it is read
as null, and no tree whose nodes are in their places holds one. -/
def evaluate (limits : Evaluator) : (left calls : Nat) → Node → ScopeId → Run Datum
  | 0, _, _, _ => fail (.evalDepth limits.maxDepth)
  | left + 1, calls, node, scope =>
    let here := fun part => evaluate limits left calls part scope
    match node with
    | .program statements => catchReturn (sequence here statements .null)
    | .block _ statements => sequence here statements .null
    | .expressionStatement _ expression => here expression
    | .returnStatement _ result => do
        let datum ← here result
        throw (.returned datum)
    | .letStatement _ name result => do
        let datum ← here result
        assign scope name.text datum
        return .null
    | .integer _ value => return .integer value
    | .boolean _ value => return .boolean value
    | .function _ parameters body => return .closure parameters body scope
    | .identifier name => read scope name.text
    | .prefixed _ operator operand => do
        let datum ← here operand
        unary operator datum
    | .binary _ leftNode operator rightNode => do
        let leftDatum ← here leftNode
        let rightDatum ← here rightNode
        binary operator leftDatum rightDatum
    | .ifThen _ condition consequence => do
        let test ← here condition
        if test.truthy then here consequence else return .null
    | .ifElse _ condition consequence alternative => do
        let test ← here condition
        if test.truthy then here consequence else here alternative
    | .call _ callee arguments => do
        let target ← here callee
        let data ← arguments.mapM here
        call limits calls (evaluate limits left (calls + 1)) target data
    | .sequence _ | .foreign _ => return .null

/-- Evaluate a node inside of so many nodes and calls. -/
def evaluateAt (limits : Evaluator) (depth calls : Nat) (node : Node) (scope : ScopeId)
    (heap : Heap) : Except Thrown Datum × Heap :=
  evaluate limits (limits.maxDepth - depth).toNat calls node scope heap

end ExprLang.Reference
