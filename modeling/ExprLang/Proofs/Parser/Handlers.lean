/-
# ExprLang.Proofs.Parser.Handlers — a parser with any handlers over any routines

The tables of a grammar name rules, and below the last level of stack every routine
breaks off. To say that an entry of a table is never looked up, or that a level of stack
is never reached, one has to be able to put something else there. So here both are open:
a table holds handlers, which may do anything with a parser and are given the routines
one level deeper, and below the last level there may be any routines.

With the handlers of a grammar, and routines that break off, this is the parser of the
grammar (`Grammar.routines_handlers`).
-/
import ExprLang.Parser.Routine

namespace ExprLang

set_option autoImplicit false

/-- Two tables of handlers: what is done on a kind that starts an expression, and what
is done on a kind that follows one. -/
structure Handlers where
  operand : TokenKind → Option (Nested → Parse Node)
  continuation : TokenKind → Option (Nested → Node → Parse Node)

namespace Routine

open Parse

/-- The operand that an expression starts with, by its handler. -/
def operandBy (handlers : Handlers) (inner : Nested) : Parse Node := fun parser =>
  match handlers.operand parser.curr.kind with
  | none => failHere (.noOperand parser.curr.kind) parser
  | some handler => handler inner parser

/-- Take in continuations for as long as the next token lies above the floor and has a
handler. -/
def climbBy (handlers : Handlers) (inner : Nested) (floor : Floor) :
    List Token → Node → Parse Node
  | [], left => done left
  | _ :: turns, left => fun parser =>
      if parser.peek.kind = .semicolon then (.parsed left, parser)
      else
        match floor.below parser.peek.kind.precedence with
        | .error cause => (.fault cause, parser)
        | .ok false => (.parsed left, parser)
        | .ok true =>
            match handlers.continuation parser.peek.kind with
            | none => (.parsed left, parser)
            | some handler =>
                (do
                  advance
                  let next ← handler inner left
                  climbBy handlers inner floor turns next : Parse Node) parser

/-- An expression by the handlers of its tokens. -/
def expressionBy (handlers : Handlers) (limit : Int) (inner : Nested) (floor : Floor) :
    Parse Node :=
  nested limit do
    let left ← operandBy handlers inner
    (fun parser => climbBy handlers inner floor parser.tokens left parser : Parse Node)

end Routine

/-- Routines that break off because the stack has run out. -/
def Nested.exhausted : Nested :=
  ⟨fun _ => Parse.breakOff .stackExhausted, Parse.breakOff .stackExhausted⟩

/-- The routines that go one level deeper by these. -/
def Handlers.above (handlers : Handlers) (limit : Int) (inner : Nested) : Nested :=
  ⟨Routine.expressionBy handlers limit inner, Routine.block limit inner⟩

/-- The nesting routines over so many levels, with these below them. -/
def Handlers.routines (handlers : Handlers) (limit : Int) (bottom : Nested) : Nat → Nested
  | 0 => bottom
  | levels + 1 => handlers.above limit (handlers.routines limit bottom levels)

/-- Run the rule for programs with these handlers. -/
def Handlers.parseProgram (handlers : Handlers) (limit : Int) (levels : Nat) : Parse Node :=
  Routine.program limit (handlers.routines limit .exhausted levels)

/-! ## The handlers of a grammar -/

namespace Grammar

variable (grammar : Grammar) (limit : Int)

/-- The handlers that a grammar names by their rules. -/
def handlers : Handlers where
  operand kind := (grammar.operand kind).map fun rule inner => Routine.asOperand limit inner rule
  continuation kind := (grammar.continuation kind).map fun rule inner left =>
    Routine.asContinuation inner left rule

theorem operandBy_handlers (inner : Nested) :
    Routine.operandBy (grammar.handlers limit) inner = Routine.operand grammar limit inner := by
  funext parser
  unfold Routine.operandBy Routine.operand
  dsimp only [handlers]
  cases grammar.operand parser.curr.kind <;> rfl

theorem climbBy_handlers (inner : Nested) (floor : Floor) (turns : List Token) (left : Node) :
    Routine.climbBy (grammar.handlers limit) inner floor turns left =
      Routine.climb grammar inner floor turns left := by
  induction turns generalizing left with
  | nil => rfl
  | cons turn turns ih =>
      have later : Routine.climbBy (grammar.handlers limit) inner floor turns =
        Routine.climb grammar inner floor turns := funext ih
      funext parser
      unfold Routine.climbBy Routine.climb
      rw [later]
      cases floor.below parser.peek.kind.precedence with
      | error cause => rfl
      | ok above =>
          cases above with
          | false => rfl
          | true =>
              dsimp only [handlers]
              cases grammar.continuation parser.peek.kind <;> rfl

theorem expressionBy_handlers (inner : Nested) (floor : Floor) :
    Routine.expressionBy (grammar.handlers limit) limit inner floor =
      Routine.expression grammar limit inner floor := by
  unfold Routine.expressionBy Routine.expression
  simp only [operandBy_handlers, climbBy_handlers]

/-- With the handlers of a grammar, the routines are those of the grammar. -/
theorem routines_handlers (levels : Nat) :
    (grammar.handlers limit).routines limit .exhausted levels =
      nestedRoutines grammar limit levels := by
  induction levels with
  | zero => rfl
  | succ levels ih =>
      rw [Handlers.routines, nestedRoutines, ih, Handlers.above]
      congr 1
      exact funext (grammar.expressionBy_handlers limit _)

theorem parseProgram_handlers (levels : Nat) :
    (grammar.handlers limit).parseProgram limit levels = parseProgram grammar limit levels := by
  rw [Handlers.parseProgram, parseProgram, routines_handlers]

end Grammar

end ExprLang
