/-
# ExprLang.Eval.Operator — operators on values

Operators never fail to have a result: what an operator cannot be applied to
gives an error value. The one exception is an error that cannot be worded because
it names an integer too long to write (`worded`): the dividend of a division by
zero here, a limit that is passed elsewhere.

Two integers are looked at first, then a difference of kinds, then two truth
values. Division goes toward zero.
-/
import ExprLang.Value

namespace ExprLang

set_option autoImplicit false

/-- A value that is handed to the evaluator and is no node. -/
structure UnknownNode where
  typeName : String
  line : Option Int
  file : Option String
  deriving DecidableEq, Repr

def UnknownNode.message (unknown : UnknownNode) : String :=
  "Cannot evaluate " ++ unknown.typeName ++ ": not an AST node" ++
    (match unknown.line with
      | some line => " on line " ++ toString line
      | none => "") ++
    (match unknown.file with
      | some file => " in " ++ file
      | none => "")

/-- Why an evaluation broke off without a value. -/
inductive EvalFault where
  | tooLong
  | unknownNode (unknown : UnknownNode)
  | stackExhausted
  deriving DecidableEq, Repr

def EvalFault.message : EvalFault → String
  | .tooLong => Decimal.tooLongMessage
  | .unknownNode unknown => unknown.message
  | .stackExhausted => "maximum recursion depth exceeded"

/-- The name a fault is shown under. -/
def EvalFault.kind : EvalFault → String
  | .tooLong => "ValueError"
  | .unknownNode _ => "UnknownNodeException"
  | .stackExhausted => "RecursionError"

/-- The error value that names an integer, which has to be short enough to write. -/
def worded (cause : Int → EvalError) (number : Int) : Except EvalFault Value :=
  if Decimal.Writable number then .ok (.error (cause number)) else .error .tooLong

theorem worded_of_writable {number : Int} (writable : Decimal.Writable number)
    (cause : Int → EvalError) : worded cause number = .ok (.error (cause number)) :=
  if_pos writable

theorem worded_of_long {number : Int} (long : ¬ Decimal.Writable number)
    (cause : Int → EvalError) : worded cause number = .error .tooLong :=
  if_neg long

theorem worded_cases (cause : Int → EvalError) (number : Int) :
    worded cause number = .ok (.error (cause number)) ∨ worded cause number = .error .tooLong :=
  (Decidable.em (Decimal.Writable number)).imp (worded_of_writable · cause)
    (worded_of_long · cause)

theorem eq_error_of_worded {cause : Int → EvalError} {number : Int} {value : Value}
    (ended : worded cause number = .ok value) : value = .error (cause number) := by
  rcases worded_cases cause number with same | same
  · exact Except.ok.inj (ended.symm.trans same)
  · cases ended.symm.trans same

theorem worded_error_iff {cause : Int → EvalError} {number : Int} {fault : EvalFault} :
    worded cause number = .error fault ↔ fault = .tooLong ∧ ¬ Decimal.Writable number := by
  by_cases writable : Decimal.Writable number
  · simp [worded_of_writable writable, writable]
  · simp [worded_of_long writable, writable, eq_comm]

namespace Operator

/-- A prefix operator on a value. -/
def applyPrefix (operator : String) (operand : Value) : Value :=
  match operator, operand with
  | "!", _ => .boolean (!operand.truthy)
  | "-", .integer value => .integer (-value)
  | _, _ => .error (.unknownPrefix operator operand.type)

/-- Division toward zero; its error names the dividend. -/
def divide (left right : Int) : Except EvalFault Value :=
  if right = 0 then worded .divisionByZero left else .ok (.integer (left.tdiv right))

/-- An infix operator on two integers. -/
def applyIntegers (operator : String) (left right : Int) : Except EvalFault Value :=
  match operator with
  | "+" => .ok (.integer (left + right))
  | "-" => .ok (.integer (left - right))
  | "*" => .ok (.integer (left * right))
  | "/" => divide left right
  | "<" => .ok (.boolean (left < right))
  | ">" => .ok (.boolean (left > right))
  | "<=" => .ok (.boolean (left ≤ right))
  | ">=" => .ok (.boolean (left ≥ right))
  | "==" => .ok (.boolean (left == right))
  | "!=" => .ok (.boolean (left != right))
  | _ => .ok (.error (.unknownInfix .integer operator .integer))

/-- An infix operator on two truth values. -/
def applyBooleans (operator : String) (left right : Bool) : Value :=
  match operator with
  | "==" => .boolean (left == right)
  | "!=" => .boolean (left != right)
  | _ => .error (.unknownInfix .boolean operator .boolean)

/-- An infix operator on two values. -/
def applyInfix (operator : String) (left right : Value) : Except EvalFault Value :=
  match left, right with
  | .integer leftValue, .integer rightValue => applyIntegers operator leftValue rightValue
  | .boolean leftValue, .boolean rightValue =>
      .ok (applyBooleans operator leftValue rightValue)
  | _, _ =>
      if left.type = right.type then .ok (.error (.unknownInfix left.type operator right.type))
      else .ok (.error (.typeMismatch left.type operator right.type))

end Operator

end ExprLang
