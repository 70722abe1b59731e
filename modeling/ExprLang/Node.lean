/-
# ExprLang.Node — syntax trees

A program is a tree of nodes. Each node but the program itself records a source
line: that of its operator for an infix expression, of the opening parenthesis
for a call, of the opening brace for a block, and of its first token otherwise;
a node built by hand has line zero.

One type holds every node, because the positions are not typed: handlers can be
put into the parser's tables that yield a statement where an expression is
expected, and trees may be built by hand with anything in any place. Values that
are no nodes at all (`foreign`) can stand there too; nothing evaluates or renders
them.
-/
import ExprLang.Token

namespace ExprLang

set_option autoImplicit false

/-- A name in a binding position, and its line. -/
structure Name where
  text : String
  line : Int
  deriving DecidableEq, Repr

/-- A value that is no node: a token, or something known only by its type. -/
inductive Foreign where
  | token (held : Token)
  | other (typeName : String)
  deriving DecidableEq, Repr

namespace Foreign

/-- The name of the value's type. -/
def typeName : Foreign → String
  | .token _ => "Token"
  | .other typeName => typeName

/-- The line of the value, which only a token has. -/
def line? : Foreign → Option Int
  | .token held => some held.line
  | .other _ => none

end Foreign

/-- A syntax tree, or a value in the place of one. -/
inductive Node where
  | program (statements : List Node)
  | block (line : Int) (statements : List Node)
  | letStatement (line : Int) (name : Name) (value : Node)
  | returnStatement (line : Int) (value : Node)
  | expressionStatement (line : Int) (expression : Node)
  | identifier (name : Name)
  | integer (line : Int) (value : Int)
  | boolean (line : Int) (value : Bool)
  | prefixed (line : Int) (operator : String) (operand : Node)
  | binary (line : Int) (left : Node) (operator : String) (right : Node)
  | ifThen (line : Int) (condition consequence : Node)
  | ifElse (line : Int) (condition consequence alternative : Node)
  | function (line : Int) (parameters : List Name) (body : Node)
  | call (line : Int) (callee : Node) (arguments : List Node)
  | sequence (items : List Node)
  | foreign (value : Foreign)
  deriving Repr

namespace Node

/-- The name of a node's type. A bare sequence of nodes, as the rules for
parameters and arguments yield it, is a list and no node. -/
def typeName : Node → String
  | .program .. => "Program"
  | .block .. => "BlockStatement"
  | .letStatement .. => "LetStatement"
  | .returnStatement .. => "ReturnStatement"
  | .expressionStatement .. => "ExpressionStatement"
  | .identifier .. => "Identifier"
  | .integer .. => "IntegerLiteral"
  | .boolean .. => "BooleanLiteral"
  | .prefixed .. => "PrefixExpression"
  | .binary .. => "InfixExpression"
  | .ifThen .. | .ifElse .. => "IfExpression"
  | .function .. => "FunctionLiteral"
  | .call .. => "CallExpression"
  | .sequence .. => "list"
  | .foreign value => value.typeName

end Node

end ExprLang
