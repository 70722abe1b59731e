/-
# ExprLang.Parser.Routine — what the rules read

Each rule is written over `Nested`, the two routines that go one level deeper:
reading an expression and reading a block. `nestedRoutines` ties the knot, one
unit of stack per level; at the bottom both break off with a fault. On entry the
current token is the first of the construct, on success it is the last. A program
that is parsed so is made of the statements that could be read; `parse` is what
everything else uses: the standard tables over the tokens of a text.

Loops take at most one turn for each token from the current one on (`turns`). On
a list closed by `eof` every turn moves on and the bound is never met; a list
that never ends its input is read as if it ended there.
-/
import ExprLang.Node
import ExprLang.Parser.State
import ExprLang.Settings

namespace ExprLang

set_option autoImplicit false

/-- How tight the operators of an expression have to bind. The rule for
expressions can be installed as the continuation of another; it is then handed
an expression where a level belongs. -/
inductive Floor where
  | level (precedence : Nat)
  | operand (node : Node)

namespace Floor

/-- The floor of an expression that takes in every operator. -/
def lowest : Floor := .level Precedence.lowest

/-- Whether a precedence lies above the floor. -/
def below : Floor → Nat → Except ParseFault Bool
  | .level floor, precedence => .ok (floor < precedence)
  | .operand node, _ => .error (.notALevel node.typeName)

end Floor

/-- The routines one level deeper. -/
structure Nested where
  expression : Floor → Parse Node
  block : Parse Node

namespace Routine

open Parse

/-! ## Operands -/

/-- A name. -/
def identifier : Parse Node := do
  let token ← current
  return .identifier ⟨token.literal, token.line⟩

/-- An integer literal. -/
def integer : Parse Node := do
  let token ← current
  match Decimal.read? token.literal with
  | some value => return .integer token.line value
  | none => failHere (.notAnInteger token.literal)

/-- A truth value: true exactly on the keyword for it. -/
def boolean : Parse Node := do
  let token ← current
  return .boolean token.line (token.kind == .trueKeyword)

/-- An operator before its operand. -/
def prefixed (inner : Nested) : Parse Node := do
  let token ← current
  advance
  let operand ← inner.expression (.level Precedence.unary)
  return .prefixed token.line token.literal operand

/-- An expression in parentheses, which leave no node behind. -/
def group (inner : Nested) : Parse Node := do
  advance
  let node ← inner.expression .lowest
  expect .rightParen
  return node

/-- What follows the first block of a conditional. -/
def alternative (inner : Nested) (line : Int) (condition consequence : Node) : Parse Node :=
  fun parser =>
    if parser.peek.kind = .elseKeyword then
      (do
        advance
        expect .leftBrace
        let other ← inner.block
        return .ifElse line condition consequence other : Parse Node) parser
    else done (.ifThen line condition consequence) parser

/-- A conditional, with or without an alternative. -/
def conditional (inner : Nested) : Parse Node := do
  let token ← current
  expect .leftParen
  advance
  let condition ← inner.expression .lowest
  expect .rightParen
  expect .leftBrace
  let consequence ← inner.block
  alternative inner token.line condition consequence

/-- A name in a parameter list. -/
def parameter : Parse Name := do
  expect .identifier
  let token ← current
  return ⟨token.literal, token.line⟩

/-- Further parameters after a comma each, up to the closing parenthesis. -/
def moreParameters : List Token → List Name → Parse (List Name)
  | [], found => do
      expect .rightParen
      return found.reverse
  | _ :: turns, found => fun parser =>
      if parser.peek.kind = .comma then
        (do
          advance
          let name ← parameter
          moreParameters turns (name :: found) : Parse (List Name)) parser
      else
        (do
          expect .rightParen
          return found.reverse : Parse (List Name)) parser

/-- A parameter list, from its opening parenthesis to its closing one. -/
def parameters : Parse (List Name) := fun parser =>
  if parser.peek.kind = .rightParen then (.parsed [], parser.advance)
  else
    (do
      let name ← parameter
      moreParameters parser.tokens [name] : Parse (List Name)) parser

/-- A function literal. -/
def function (inner : Nested) : Parse Node := do
  let token ← current
  expect .leftParen
  let names ← parameters
  expect .leftBrace
  let body ← inner.block
  return .function token.line names body

/-! ## Continuations -/

/-- An infix operator after its left operand. The right operand takes in only
operators that bind tighter, so equal ones group to the left. -/
def binary (inner : Nested) (left : Node) : Parse Node := do
  let token ← current
  advance
  let right ← inner.expression (.level token.kind.precedence)
  return .binary token.line left token.literal right

/-- Further arguments after a comma each, up to the closing parenthesis. -/
def moreArguments (inner : Nested) : List Token → List Node → Parse (List Node)
  | [], found => do
      expect .rightParen
      return found.reverse
  | _ :: turns, found => fun parser =>
      if parser.peek.kind = .comma then
        (do
          advance
          advance
          let node ← inner.expression .lowest
          moreArguments inner turns (node :: found) : Parse (List Node)) parser
      else
        (do
          expect .rightParen
          return found.reverse : Parse (List Node)) parser

/-- An argument list, from its opening parenthesis to its closing one. -/
def arguments (inner : Nested) : Parse (List Node) := fun parser =>
  if parser.peek.kind = .rightParen then (.parsed [], parser.advance)
  else
    (do
      advance
      let node ← inner.expression .lowest
      moreArguments inner parser.tokens [node] : Parse (List Node)) parser

/-- A call after its callee. -/
def call (inner : Nested) (callee : Node) : Parse Node := do
  let token ← current
  let given ← arguments inner
  return .call token.line callee given

/-! ## Statements -/

/-- A binding. Once its value has been tried, a semicolon is taken either way. -/
def letStatement (inner : Nested) : Parse Node := do
  let token ← current
  expect .identifier
  let name ← current
  expect .assign
  advance
  let value ← terminated (inner.expression .lowest)
  return .letStatement token.line ⟨name.literal, name.line⟩ value

/-- A return. -/
def returnStatement (inner : Nested) : Parse Node := do
  let token ← current
  advance
  let value ← terminated (inner.expression .lowest)
  return .returnStatement token.line value

/-- An expression in the place of a statement. -/
def expressionStatement (inner : Nested) : Parse Node := do
  let token ← current
  let expression ← terminated (inner.expression .lowest)
  return .expressionStatement token.line expression

/-- A statement, told apart by its first token. -/
def statement (inner : Nested) : Parse Node := fun parser =>
  match parser.curr.kind with
  | .letKeyword => letStatement inner parser
  | .returnKeyword => returnStatement inner parser
  | _ => expressionStatement inner parser

/-- The statements of a block up to its closing brace. A statement that failed
is left out; if it stopped on a closing brace, that brace closes the block. -/
def blockBody (inner : Nested) : List Token → List Node → Parse (List Node)
  | [], _ => failHere (.unexpected .rightBrace .eof)
  | _ :: turns, found => fun parser =>
      if parser.curr.kind = .rightBrace then (.parsed found.reverse, parser)
      else if parser.curr.kind = .eof then failHere (.unexpected .rightBrace .eof) parser
      else
        match statement inner parser with
        | (.parsed node, after) => blockBody inner turns (node :: found) after.advance
        | (.failed, after) =>
            if after.curr.kind = .rightBrace then (.parsed found.reverse, after)
            else blockBody inner turns found after.advance
        | (.fault cause, after) => (.fault cause, after)

/-- A block, from its opening brace to its closing one. -/
def block (limit : Int) (inner : Nested) : Parse Node :=
  nested limit do
    let token ← current
    advance
    let statements ← (fun parser => blockBody inner parser.tokens [] parser :
      Parse (List Node))
    return .block token.line statements

/-- The statements of a program up to the end of input. Statements that failed
are left out. If the stack runs out in one, that is a nesting problem and ends
the program there; the limit it is reported by has to be one that can be written. -/
def programBody (limit : Int) (inner : Nested) : List Token → List Node → Parse (List Node)
  | [], found => done found.reverse
  | _ :: turns, found => fun parser =>
      if parser.curr.kind = .eof then (.parsed found.reverse, parser)
      else
        match statement inner parser with
        | (.parsed node, after) => programBody limit inner turns (node :: found) after.advance
        | (.failed, after) => programBody limit inner turns found after.advance
        | (.fault .stackExhausted, after) =>
            if Decimal.Writable limit then
              (.parsed found.reverse, after.recordHere (.tooNested limit))
            else (.fault .tooLong, after)
        | (.fault cause, after) => (.fault cause, after)

/-- A program. -/
def program (limit : Int) (inner : Nested) : Parse Node := fun parser =>
  (do
    let statements ← programBody limit inner parser.tokens []
    return .program statements : Parse Node) parser

/-! ## Expressions -/

/-- A rule that is installed for the start of an expression. -/
def asOperand (limit : Int) (inner : Nested) : Rule → Parse Node
  | .program => program limit inner
  | .statement => statement inner
  | .letStatement => letStatement inner
  | .returnStatement => returnStatement inner
  | .expressionStatement => expressionStatement inner
  | .block => inner.block
  | .identifier => identifier
  | .integer => integer
  | .boolean => boolean
  | .prefixed => prefixed inner
  | .group => group inner
  | .conditional => conditional inner
  | .function => function inner
  | .parameters => do
      let names ← parameters
      return .sequence (names.map .identifier)
  | .arguments => do
      let given ← arguments inner
      return .sequence given
  | .expression => breakOff (.missingOperand .expression)
  | .binary => breakOff (.missingOperand .binary)
  | .call => breakOff (.missingOperand .call)

/-- A rule that is installed for what follows an expression. -/
def asContinuation (inner : Nested) (left : Node) : Rule → Parse Node
  | .binary => binary inner left
  | .call => call inner left
  | .expression => inner.expression (.operand left)
  | rule => breakOff (.unwantedOperand rule)

/-- The operand an expression starts with. -/
def operand (grammar : Grammar) (limit : Int) (inner : Nested) : Parse Node := fun parser =>
  match grammar.operand parser.curr.kind with
  | none => failHere (.noOperand parser.curr.kind) parser
  | some rule => asOperand limit inner rule parser

/-- Take in continuations for as long as the next token lies above the floor
and has a rule. -/
def climb (grammar : Grammar) (inner : Nested) (floor : Floor) : List Token → Node → Parse Node
  | [], left => done left
  | _ :: turns, left => fun parser =>
      if parser.peek.kind = .semicolon then (.parsed left, parser)
      else
        match floor.below parser.peek.kind.precedence with
        | .error cause => (.fault cause, parser)
        | .ok false => (.parsed left, parser)
        | .ok true =>
            match grammar.continuation parser.peek.kind with
            | none => (.parsed left, parser)
            | some rule =>
                (do
                  advance
                  let next ← asContinuation inner left rule
                  climb grammar inner floor turns next : Parse Node) parser

/-- An expression whose operators lie above a floor. -/
def expression (grammar : Grammar) (limit : Int) (inner : Nested) (floor : Floor) : Parse Node :=
  nested limit do
    let left ← operand grammar limit inner
    (fun parser => climb grammar inner floor parser.tokens left parser : Parse Node)

end Routine

/-- The nesting routines over so many levels of stack. -/
def nestedRoutines (grammar : Grammar) (limit : Int) : Nat → Nested
  | 0 => ⟨fun _ => Parse.breakOff .stackExhausted, Parse.breakOff .stackExhausted⟩
  | levels + 1 =>
      let inner := nestedRoutines grammar limit levels
      ⟨Routine.expression grammar limit inner, Routine.block limit inner⟩

/-! ## From text to tree -/

/-- A program and what was wrong with its text. -/
structure Parsed where
  program : Node
  diagnostics : List Diagnostic
  deriving Repr

/-- The diagnostic messages of a parse. -/
def Parsed.errors (parsed : Parsed) : List String := parsed.diagnostics.map Diagnostic.message

/-- Run the rule for programs with given tables, nesting limit and stack. -/
def parseProgram (grammar : Grammar) (limit : Int) (levels : Nat) : Parse Node :=
  Routine.program limit (nestedRoutines grammar limit levels)

/-- Parse a token list with the standard tables. A program never fails, and the tables
name no rule where it does not fit, so what is left to break a parse off is a limit that
cannot be written. -/
def parseTokens (limit : Int) (levels : Nat) (tokens : List Token) : Except ParseFault Parsed :=
  match parseProgram .standard limit levels (Parser.ofTokens tokens) with
  | (.parsed program, parser) => .ok ⟨program, parser.diagnostics⟩
  | (.failed, parser) => .ok ⟨.program [], parser.diagnostics⟩
  | (.fault cause, _) => .error cause

/-- Parse a text under a nesting limit. -/
def parse (limit : Int) (levels : Nat) (source : String) : Except ParseFault Parsed :=
  parseTokens limit levels (tokenize source)

/-- Parse a text under the default limit. That one can be written, so nothing breaks
the parse off. -/
def parseDefault (levels : Nat) (source : String) : Parsed :=
  match parse defaultNesting levels source with
  | .ok parsed => parsed
  | .error _ => ⟨.program [], []⟩

end ExprLang
