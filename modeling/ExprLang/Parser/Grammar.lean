/-
# ExprLang.Parser.Grammar — rules, tables and binding strength

The parser is driven by two tables. A token kind may have a rule for the case
that it starts an expression (`operand`) and one for the case that it follows a
complete expression (`continuation`). Rules are named, so a table can be changed
entry by entry; `standard` holds the language's own tables.

Which operators an expression takes in is decided by `TokenKind.precedence`
alone: kinds that are not operators rank lowest, whatever the tables say.
-/
import ExprLang.Token

namespace ExprLang

set_option autoImplicit false

/-! ## Binding strength, weakest first -/

namespace Precedence

def lowest : Nat := 1
def equality : Nat := 2
def comparison : Nat := 3
def sum : Nat := 4
def product : Nat := 5
def unary : Nat := 6
def call : Nat := 7

end Precedence

/-- How tightly a token binds to the expression before it. -/
def TokenKind.precedence : TokenKind → Nat
  | .equal | .notEqual => Precedence.equality
  | .less | .greater | .lessEqual | .greaterEqual => Precedence.comparison
  | .plus | .minus => Precedence.sum
  | .product | .divide => Precedence.product
  | .leftParen => Precedence.call
  | _ => Precedence.lowest

/-- The parsing rules. `binary` and `call` go on from an expression that is
already read, and `expression` needs to be told how tight its operators have to
bind; the others start from the current token alone. -/
inductive Rule where
  | program
  | statement
  | letStatement
  | returnStatement
  | expressionStatement
  | block
  | expression
  | identifier
  | integer
  | boolean
  | prefixed
  | binary
  | group
  | conditional
  | function
  | parameters
  | call
  | arguments
  deriving DecidableEq, Repr

namespace Rule

/-- Every rule. -/
def all : List Rule :=
  [.program, .statement, .letStatement, .returnStatement, .expressionStatement, .block,
    .expression, .identifier, .integer, .boolean, .prefixed, .binary, .group, .conditional,
    .function, .parameters, .call, .arguments]

/-- The name a rule is installed by. -/
def name : Rule → String
  | .program => "parse_program"
  | .statement => "parse_statement"
  | .letStatement => "parse_let_statement"
  | .returnStatement => "parse_return_statement"
  | .expressionStatement => "parse_expression_statement"
  | .block => "parse_block_statement"
  | .expression => "parse_expression"
  | .identifier => "parse_identifier"
  | .integer => "parse_integer_literal"
  | .boolean => "parse_boolean"
  | .prefixed => "parse_prefix_expression"
  | .binary => "parse_infix_expression"
  | .group => "parse_grouped_expression"
  | .conditional => "parse_if_expression"
  | .function => "parse_function_literal"
  | .parameters => "parse_function_parameters"
  | .call => "parse_call_expression"
  | .arguments => "parse_call_arguments"

/-- The rule of a name, if there is one. -/
def ofName? (text : String) : Option Rule := all.find? fun rule => rule.name == text

/-- What a rule has to be given besides the current token. -/
def parameter? : Rule → Option String
  | .expression => some "precedence"
  | .binary => some "left"
  | .call => some "function"
  | _ => none

end Rule

/-- The two rule tables. -/
structure Grammar where
  operand : TokenKind → Option Rule
  continuation : TokenKind → Option Rule

namespace Grammar

/-- The tables of the language. -/
def standard : Grammar where
  operand
    | .identifier => some .identifier
    | .int => some .integer
    | .bang | .minus => some .prefixed
    | .trueKeyword | .falseKeyword => some .boolean
    | .leftParen => some .group
    | .ifKeyword => some .conditional
    | .functionKeyword => some .function
    | _ => none
  continuation
    | .plus | .minus | .product | .divide | .equal | .notEqual
    | .less | .greater | .lessEqual | .greaterEqual => some .binary
    | .leftParen => some .call
    | _ => none

/-- Set or clear the rule for a kind that starts an expression. -/
def setOperand (grammar : Grammar) (kind : TokenKind) (rule : Option Rule) : Grammar :=
  { grammar with operand := fun other => if other = kind then rule else grammar.operand other }

/-- Set or clear the rule for a kind that follows an expression. -/
def setContinuation (grammar : Grammar) (kind : TokenKind) (rule : Option Rule) : Grammar :=
  { grammar with
    continuation := fun other => if other = kind then rule else grammar.continuation other }

end Grammar

end ExprLang
