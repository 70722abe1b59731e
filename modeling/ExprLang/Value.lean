/-
# ExprLang.Value — what programs compute with

Integers, truth values, null and functions are what a program handles. Two more
kinds of value are signals: the result of a `return` on its way out, and an
evaluation error. A signal ends whatever it comes up in and travels outward.
`object` is a value of no kind in particular; only a host program can put one
into a scope.

Null and false count as false, everything else as true, zero and the signals
included.
-/
import ExprLang.Node.Render

namespace ExprLang

set_option autoImplicit false

/-- A scope is known by its place in the heap. -/
abbrev ScopeId := Nat

/-- The kinds of value. -/
inductive ValueType where
  | integer
  | boolean
  | null
  | returned
  | error
  | function
  | object
  deriving DecidableEq, Repr

def ValueType.name : ValueType → String
  | .integer => "INTEGER"
  | .boolean => "BOOLEAN"
  | .null => "NULL"
  | .returned => "RETURN_VALUE"
  | .error => "ERROR"
  | .function => "FUNCTION"
  | .object => ""

/-- Why an evaluation has no value. A host program may also report a message of
its own. -/
inductive EvalError where
  | unbound (name : String)
  | unknownPrefix (operator : String) (operand : ValueType)
  | unknownInfix (left : ValueType) (operator : String) (right : ValueType)
  | typeMismatch (left : ValueType) (operator : String) (right : ValueType)
  | divisionByZero (dividend : Int)
  | notAFunction (type : ValueType)
  | wrongArity (wanted given : Nat)
  | callDepth (limit : Int)
  | evalDepth (limit : Int)
  | stackExhausted
  | reported (text : String)
  deriving DecidableEq, Repr

def EvalError.message : EvalError → String
  | .unbound name => "unbound identifier: " ++ name
  | .unknownPrefix operator operand => "unknown operator: " ++ operator ++ operand.name
  | .unknownInfix left operator right =>
      "unknown operator: " ++ left.name ++ " " ++ operator ++ " " ++ right.name
  | .typeMismatch left operator right =>
      "type mismatch: " ++ left.name ++ " " ++ operator ++ " " ++ right.name
  | .divisionByZero dividend => "division by zero: " ++ toString dividend ++ " / 0"
  | .notAFunction type => "not a function: " ++ type.name
  | .wrongArity wanted given =>
      "wrong number of arguments: want=" ++ toString wanted ++ ", got=" ++ toString given
  | .callDepth limit => "maximum call depth of " ++ toString limit ++ " exceeded"
  | .evalDepth limit => "maximum evaluation depth of " ++ toString limit ++ " exceeded"
  | .stackExhausted => "maximum recursion depth exceeded"
  | .reported text => text

/-- A value. A function keeps the scope it was written in. -/
inductive Value where
  | integer (value : Int)
  | boolean (value : Bool)
  | null
  | returned (value : Value)
  | error (cause : EvalError)
  | function (parameters : List Name) (body : Node) (scope : ScopeId)
  | object
  deriving Repr

namespace Value

def type : Value → ValueType
  | .integer _ => .integer
  | .boolean _ => .boolean
  | .null => .null
  | .returned _ => .returned
  | .error _ => .error
  | .function .. => .function
  | .object => .object

/-- Whether a value counts as true in a condition. -/
def truthy : Value → Bool
  | .boolean value => value
  | .null => false
  | _ => true

/-- Whether a value ends the evaluation it comes up in. -/
def isSignal : Value → Bool
  | .returned _ | .error _ => true
  | _ => false

def isError : Value → Bool
  | .error _ => true
  | _ => false

/-- The value that a `return` carried, at the place where it arrives. -/
def arrived : Value → Value
  | .returned value => value
  | other => other

/-- Whether two distinct values are equal: by content, except that functions and
plain objects equal nothing but themselves. -/
def alike : Value → Value → Bool
  | .integer left, .integer right => left == right
  | .boolean left, .boolean right => left == right
  | .null, .null => true
  | .returned left, .returned right => alike left right
  | .error left, .error right => left.message == right.message
  | _, _ => false

end Value

/-- Why a value has no displayed form. -/
inductive DisplayFault where
  | render (fault : RenderFault)
  | noForm
  deriving DecidableEq, Repr

def DisplayFault.message : DisplayFault → String
  | .render fault => fault.message
  | .noForm => ""

/-- The name a fault is shown under. -/
def DisplayFault.kind : DisplayFault → String
  | .render fault => fault.kind
  | .noForm => "NotImplementedError"

/-- The displayed form of a value, a function body of at most so many levels. -/
def Value.display (levels : Nat) : Value → Except DisplayFault String
  | .integer value =>
      match Decimal.write? value with
      | some text => .ok text
      | none => .error (.render .tooLong)
  | .boolean value => .ok (if value then "true" else "false")
  | .null => .ok "null"
  | .returned value => value.display levels
  | .error cause => .ok ("ERROR: " ++ cause.message)
  | .function parameters body _ =>
      match body.renderWithin levels with
      | .ok text =>
          .ok ("fn(" ++ Node.commaSeparated (parameters.map Name.text) ++ ") " ++ text)
      | .error fault => .error (.render fault)
  | .object => .error .noForm

end ExprLang
