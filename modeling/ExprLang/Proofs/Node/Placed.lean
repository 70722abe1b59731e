/-
# ExprLang.Proofs.Node.Placed — trees whose nodes stand where they belong

One type holds every node, so a tree says nothing about its positions. `Placed`
is the discipline that the positions have: statements in sequences, blocks as
branches and bodies, expressions everywhere else. What the leaves, the operators
and the lines may be is a parameter (`Lexicon`), so that one set of rules serves
trees of any making as well as those that have a text.
-/
import ExprLang.Node

namespace ExprLang

set_option autoImplicit false

/-- What the names, numbers, operators and lines of a tree may be, and whether a
block may stand in the place of a statement. -/
structure Lexicon where
  name : String → Prop
  number : Int → Prop
  unary : String → Prop
  binary : String → Prop
  line : Int → Prop
  blockStatement : Prop

/-- The lexicon that admits everything. -/
def Lexicon.any : Lexicon := ⟨fun _ => True, fun _ => True, fun _ => True, fun _ => True,
  fun _ => True, True⟩

/-- The positions of a tree. -/
inductive Place where
  | program
  | statement
  | block
  | expression
  deriving DecidableEq, Repr

/-- The place that a node is meant for. A value that is no node is meant for none. -/
def Node.place? : Node → Option Place
  | .program _ => some .program
  | .block .. => some .block
  | .letStatement .. | .returnStatement .. | .expressionStatement .. => some .statement
  | .identifier _ | .integer .. | .boolean .. | .prefixed .. | .binary .. | .ifThen .. | .ifElse ..
  | .function .. | .call .. => some .expression
  | .sequence _ | .foreign _ => none

/-- A tree that may stand in a place. -/
inductive Node.Placed (lexicon : Lexicon) : Place → Node → Prop where
  | program {statements : List Node}
      (each : ∀ statement ∈ statements, Placed lexicon .statement statement) :
      Placed lexicon .program (.program statements)
  | block {line : Int} {statements : List Node} (onLine : lexicon.line line)
      (each : ∀ statement ∈ statements, Placed lexicon .statement statement) :
      Placed lexicon .block (.block line statements)
  | blockStatement {node : Node} (admitted : lexicon.blockStatement)
      (inner : Placed lexicon .block node) : Placed lexicon .statement node
  | letStatement {line : Int} {name : Name} {value : Node} (onLine : lexicon.line line)
      (named : lexicon.name name.text) (inner : Placed lexicon .expression value) :
      Placed lexicon .statement (.letStatement line name value)
  | returnStatement {line : Int} {value : Node} (onLine : lexicon.line line)
      (inner : Placed lexicon .expression value) :
      Placed lexicon .statement (.returnStatement line value)
  | expressionStatement {line : Int} {expression : Node} (onLine : lexicon.line line)
      (inner : Placed lexicon .expression expression) :
      Placed lexicon .statement (.expressionStatement line expression)
  | identifier {name : Name} (onLine : lexicon.line name.line) (named : lexicon.name name.text) :
      Placed lexicon .expression (.identifier name)
  | integer {line value : Int} (onLine : lexicon.line line) (number : lexicon.number value) :
      Placed lexicon .expression (.integer line value)
  | boolean {line : Int} {value : Bool} (onLine : lexicon.line line) :
      Placed lexicon .expression (.boolean line value)
  | prefixed {line : Int} {operator : String} {operand : Node} (onLine : lexicon.line line)
      (known : lexicon.unary operator) (inner : Placed lexicon .expression operand) :
      Placed lexicon .expression (.prefixed line operator operand)
  | binary {line : Int} {left : Node} {operator : String} {right : Node}
      (onLine : lexicon.line line) (known : lexicon.binary operator)
      (first : Placed lexicon .expression left) (second : Placed lexicon .expression right) :
      Placed lexicon .expression (.binary line left operator right)
  | ifThen {line : Int} {condition consequence : Node} (onLine : lexicon.line line)
      (test : Placed lexicon .expression condition)
      (first : Placed lexicon .block consequence) :
      Placed lexicon .expression (.ifThen line condition consequence)
  | ifElse {line : Int} {condition consequence alternative : Node} (onLine : lexicon.line line)
      (test : Placed lexicon .expression condition)
      (first : Placed lexicon .block consequence) (second : Placed lexicon .block alternative) :
      Placed lexicon .expression (.ifElse line condition consequence alternative)
  | function {line : Int} {parameters : List Name} {body : Node} (onLine : lexicon.line line)
      (named : ∀ parameter ∈ parameters,
        lexicon.line parameter.line ∧ lexicon.name parameter.text)
      (inner : Placed lexicon .block body) :
      Placed lexicon .expression (.function line parameters body)
  | call {line : Int} {callee : Node} {arguments : List Node} (onLine : lexicon.line line)
      (target : Placed lexicon .expression callee)
      (each : ∀ argument ∈ arguments, Placed lexicon .expression argument) :
      Placed lexicon .expression (.call line callee arguments)

end ExprLang
