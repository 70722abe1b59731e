/-
# ExprLang.Node.Render — the canonical text of a tree

Prefix and infix expressions are written in parentheses, so the text shows how
the operators were grouped and reads back to the same tree. In a sequence, a
semicolon follows each expression statement (the other statements bring their
own) and a space separates statements.

Rendering fails on a value that is no node, on an integer that is too long to
write, and on a tree of more levels than are allowed. The first failure met
counts; a call looks at its arguments before its callee.
-/
import ExprLang.Decimal
import ExprLang.Node

namespace ExprLang

set_option autoImplicit false

/-- Why a tree has no text. -/
inductive RenderFault where
  | notANode (typeName : String)
  | tooLong
  | stackExhausted
  deriving DecidableEq, Repr

def RenderFault.message : RenderFault → String
  | .notANode typeName => "Cannot render " ++ typeName ++ " as an AST node"
  | .tooLong => Decimal.tooLongMessage
  | .stackExhausted => "maximum recursion depth exceeded"

/-- The name a fault is shown under. -/
def RenderFault.kind : RenderFault → String
  | .notANode _ => "TypeError"
  | .tooLong => "ValueError"
  | .stackExhausted => "RecursionError"

namespace Node

/-- The text of an integer literal. -/
def renderInteger (value : Int) : Except RenderFault String :=
  match Decimal.write? value with
  | some text => .ok text
  | none => .error .tooLong

/-- What follows a statement inside a sequence. -/
def terminator : Node → String
  | .expressionStatement .. => ";"
  | _ => ""

/-- The text of a statement inside a sequence. -/
def renderStatement (render : Node → Except RenderFault String) (statement : Node) :
    Except RenderFault String := do
  let text ← render statement
  return text ++ statement.terminator

/-- Statements in order, separated by a space. -/
def renderSequence (render : Node → Except RenderFault String) (statements : List Node) :
    Except RenderFault String := do
  let texts ← statements.mapM (renderStatement render)
  return " ".intercalate texts

/-- Items in order, separated by a comma. -/
def commaSeparated (items : List String) : String := ", ".intercalate items

/-- The canonical text of a tree of at most so many levels. -/
def renderWithin : Nat → Node → Except RenderFault String
  | 0, _ => .error .stackExhausted
  | levels + 1, node =>
    match node with
    | .program statements => renderSequence (renderWithin levels) statements
    | .letStatement _ name value => do
        let text ← renderWithin levels value
        return "let " ++ name.text ++ " = " ++ text ++ ";"
    | .returnStatement _ value => do
        let text ← renderWithin levels value
        return "return " ++ text ++ ";"
    | .expressionStatement _ expression => renderWithin levels expression
    | .block _ [] => .ok "\x7b \x7d"
    | .block _ statements => do
        let text ← renderSequence (renderWithin levels) statements
        return "\x7b " ++ text ++ " \x7d"
    | .identifier name => .ok name.text
    | .integer _ value => renderInteger value
    | .boolean _ value => .ok (if value then "true" else "false")
    | .prefixed _ operator operand => do
        let text ← renderWithin levels operand
        return "(" ++ operator ++ text ++ ")"
    | .binary _ left operator right => do
        let leftText ← renderWithin levels left
        let rightText ← renderWithin levels right
        return "(" ++ leftText ++ " " ++ operator ++ " " ++ rightText ++ ")"
    | .ifThen _ condition consequence => do
        let test ← renderWithin levels condition
        let body ← renderWithin levels consequence
        return "if (" ++ test ++ ") " ++ body
    | .ifElse _ condition consequence alternative => do
        let test ← renderWithin levels condition
        let body ← renderWithin levels consequence
        let other ← renderWithin levels alternative
        return "if (" ++ test ++ ") " ++ body ++ " else " ++ other
    | .function _ parameters body => do
        let text ← renderWithin levels body
        return "fn(" ++ commaSeparated (parameters.map Name.text) ++ ") " ++ text
    | .call _ callee arguments => do
        let texts ← arguments.mapM (renderWithin levels)
        let target ← renderWithin levels callee
        return target ++ "(" ++ commaSeparated texts ++ ")"
    | .sequence _ => .error (.notANode node.typeName)
    | .foreign value => .error (.notANode value.typeName)

end Node

end ExprLang
