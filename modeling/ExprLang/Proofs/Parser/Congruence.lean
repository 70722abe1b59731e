/-
# ExprLang.Proofs.Parser.Congruence — two parsers that go the same way

What is to be compared are two runs of the rules over the same tokens: under two
nesting limits, say, or with and without someone who watches. How the two runs are
related is for the comparison to say. If the relation holds wherever a single token
is looked at, taken or refused, and is kept by every way of putting steps together
(`Congruence`), then it is kept by every rule: when it holds of the routines one
level deeper, it holds of expressions (`Congruence.expression`) and of statements
(`Congruence.statement`).

Nothing is said here about the statements of a block or of a program. Their loops
are where a failure ends, so every comparison has to look at them itself.
-/
import ExprLang.Proofs.Parser.Orderly

namespace ExprLang

set_option autoImplicit false

namespace Parse

/-- From this window the two steps do the same. -/
def SameAt {α : Type} (window : Window) (step other : Parse α) : Prop :=
  ∀ depth diagnostics, step ⟨window, depth, diagnostics⟩ = other ⟨window, depth, diagnostics⟩

/-- A relation between steps of two parsers, each with a nesting limit of its own,
that is kept by every way the rules put steps together. Which steps these are may
depend on where the parsers stand, and on nothing else. -/
structure Congruence (limit limit' : Int) (rel : {α : Type} → Parse α → Parse α → Prop) :
    Prop where
  pure {α : Type} (result : α) : rel (pure result) (pure result)
  current : rel Parse.current Parse.current
  advance : rel Parse.advance Parse.advance
  expect (kind : TokenKind) : rel (Parse.expect kind) (Parse.expect kind)
  failHere {α : Type} {problem : Problem} (found : ∀ text, problem ≠ .reported text) :
    rel (Parse.failHere problem : Parse α) (Parse.failHere problem)
  bind {α β : Type} {step step' : Parse α} {next next' : α → Parse β} :
    rel step step' → (∀ result, rel (next result) (next' result)) →
      rel (step >>= next) (step' >>= next')
  nested {α : Type} {step step' : Parse α} :
    rel step step' → rel (Parse.nested limit step) (Parse.nested limit' step')
  terminated {α : Type} {step step' : Parse α} :
    rel step step' → rel (Parse.terminated step) (Parse.terminated step')
  anywhere {α : Type} {step step' : Parse α} :
    (∀ window, ∃ other other', rel other other' ∧ SameAt window step other ∧
      SameAt window step' other') → rel step step'

/-- Both routines one level deeper are related. -/
structure Related (rel : {α : Type} → Parse α → Parse α → Prop) (inner inner' : Nested) :
    Prop where
  expression : ∀ floor : Nat,
    rel (inner.expression (.level floor)) (inner'.expression (.level floor))
  block : rel inner.block inner'.block

namespace Congruence

variable {limit limit' : Int} {rel : {α : Type} → Parse α → Parse α → Prop} {α : Type}
  (congruence : Congruence limit limit' rel)

include congruence

/-- A step that chooses by the kind of the next token. -/
theorem choice {kind : TokenKind} {first first' second second' : Parse α}
    (chosen : rel first first') (otherwise : rel second second') :
    rel (fun parser => if parser.peek.kind = kind then first parser else second parser)
      (fun parser => if parser.peek.kind = kind then first' parser else second' parser) := by
  refine congruence.anywhere fun window => ?_
  by_cases here : window.peek.kind = kind
  · exact ⟨first, first', chosen, fun _ _ => if_pos here, fun _ _ => if_pos here⟩
  · exact ⟨second, second', otherwise, fun _ _ => if_neg here, fun _ _ => if_neg here⟩

/-- A step that takes its turns from the tokens where it stands. -/
theorem look {steps steps' : List Token → Parse α}
    (each : ∀ turns, rel (steps turns) (steps' turns)) :
    rel (fun parser => steps parser.tokens parser) (fun parser => steps' parser.tokens parser) :=
  congruence.anywhere fun window =>
    ⟨_, _, each window.tokens, fun _ _ => rfl, fun _ _ => rfl⟩

/-! ## Rules that stay on their level -/

theorem identifier : rel Routine.identifier Routine.identifier :=
  congruence.bind congruence.current fun _ => congruence.pure _

theorem integer : rel Routine.integer Routine.integer := by
  refine congruence.bind congruence.current fun token => ?_
  cases Decimal.read? token.literal with
  | some value => exact congruence.pure _
  | none => exact congruence.failHere nofun

theorem boolean : rel Routine.boolean Routine.boolean :=
  congruence.bind congruence.current fun _ => congruence.pure _

theorem parameter : rel Routine.parameter Routine.parameter :=
  congruence.bind (congruence.expect _) fun _ =>
    congruence.bind congruence.current fun _ => congruence.pure _

/-- The end of a list in parentheses. -/
theorem closing (found : List α) :
    rel (do Parse.expect .rightParen; return found) (do Parse.expect .rightParen; return found) :=
  congruence.bind (congruence.expect _) fun _ => congruence.pure _

theorem moreParameters (turns : List Token) (found : List Name) :
    rel (Routine.moreParameters turns found) (Routine.moreParameters turns found) := by
  induction turns generalizing found with
  | nil => exact congruence.closing found.reverse
  | cons turn turns ih =>
      refine congruence.choice ?_ (congruence.closing found.reverse)
      exact congruence.bind congruence.advance fun _ =>
        congruence.bind congruence.parameter fun name => ih (name :: found)

theorem parameters : rel Routine.parameters Routine.parameters := by
  have none : rel (do Parse.advance; return ([] : List Name))
      (do Parse.advance; return ([] : List Name)) :=
    congruence.bind congruence.advance fun _ => congruence.pure _
  have some (turns : List Token) : rel (do
      let name ← Routine.parameter
      Routine.moreParameters turns [name]) (do
      let name ← Routine.parameter
      Routine.moreParameters turns [name]) :=
    congruence.bind congruence.parameter fun name => congruence.moreParameters turns [name]
  exact congruence.choice none (congruence.look some)

/-! ## Rules that go deeper -/

variable {inner inner' : Nested} (related : Related rel inner inner')

include related

theorem prefixed : rel (Routine.prefixed inner) (Routine.prefixed inner') :=
  congruence.bind congruence.current fun _ => congruence.bind congruence.advance fun _ =>
    congruence.bind (related.expression _) fun _ => congruence.pure _

theorem group : rel (Routine.group inner) (Routine.group inner') :=
  congruence.bind congruence.advance fun _ => congruence.bind (related.expression _) fun _ =>
    congruence.bind (congruence.expect _) fun _ => congruence.pure _

theorem alternative (line : Int) (condition consequence : Node) :
    rel (Routine.alternative inner line condition consequence)
      (Routine.alternative inner' line condition consequence) := by
  refine congruence.choice ?_ (congruence.pure _)
  exact congruence.bind congruence.advance fun _ => congruence.bind (congruence.expect _) fun _ =>
    congruence.bind related.block fun _ => congruence.pure _

theorem conditional : rel (Routine.conditional inner) (Routine.conditional inner') :=
  congruence.bind congruence.current fun _ => congruence.bind (congruence.expect _) fun _ =>
    congruence.bind congruence.advance fun _ => congruence.bind (related.expression _) fun _ =>
      congruence.bind (congruence.expect _) fun _ => congruence.bind (congruence.expect _) fun _ =>
        congruence.bind related.block fun _ => congruence.alternative related _ _ _

theorem function : rel (Routine.function inner) (Routine.function inner') :=
  congruence.bind congruence.current fun _ => congruence.bind (congruence.expect _) fun _ =>
    congruence.bind congruence.parameters fun _ => congruence.bind (congruence.expect _) fun _ =>
      congruence.bind related.block fun _ => congruence.pure _

theorem moreArguments (turns : List Token) (found : List Node) :
    rel (Routine.moreArguments inner turns found) (Routine.moreArguments inner' turns found) := by
  induction turns generalizing found with
  | nil => exact congruence.closing found.reverse
  | cons turn turns ih =>
      refine congruence.choice ?_ (congruence.closing found.reverse)
      exact congruence.bind congruence.advance fun _ => congruence.bind congruence.advance fun _ =>
        congruence.bind (related.expression _) fun node => ih (node :: found)

theorem arguments : rel (Routine.arguments inner) (Routine.arguments inner') := by
  have none : rel (do Parse.advance; return ([] : List Node))
      (do Parse.advance; return ([] : List Node)) :=
    congruence.bind congruence.advance fun _ => congruence.pure _
  have some (turns : List Token) : rel (do
      Parse.advance
      let node ← inner.expression .lowest
      Routine.moreArguments inner turns [node]) (do
      Parse.advance
      let node ← inner'.expression .lowest
      Routine.moreArguments inner' turns [node]) :=
    congruence.bind congruence.advance fun _ => congruence.bind (related.expression _)
      fun node => congruence.moreArguments related turns [node]
  exact congruence.choice none (congruence.look some)

theorem asContinuation (left : Node) {kind : TokenKind} {rule : Rule}
    (found : Grammar.standard.continuation kind = some rule) :
    rel (Routine.asContinuation inner left rule) (Routine.asContinuation inner' left rule) := by
  rcases Grammar.continuation_standard found with ⟨-, rfl⟩ | ⟨-, rfl⟩
  · exact congruence.bind congruence.current fun _ => congruence.bind congruence.advance fun _ =>
      congruence.bind (related.expression _) fun _ => congruence.pure _
  · exact congruence.bind congruence.current fun _ =>
      congruence.bind (congruence.arguments related) fun _ => congruence.pure _

theorem asOperand {kind : TokenKind} {rule : Rule}
    (found : Grammar.standard.operand kind = some rule) :
    rel (Routine.asOperand limit inner rule) (Routine.asOperand limit' inner' rule) := by
  rcases Grammar.operand_standard found with
    ⟨-, rfl⟩ | ⟨-, rfl⟩ | ⟨-, rfl⟩ | ⟨-, rfl⟩ | ⟨-, rfl⟩ | ⟨-, rfl⟩ | ⟨-, rfl⟩
  · exact congruence.identifier
  · exact congruence.integer
  · exact congruence.boolean
  · exact congruence.group related
  · exact congruence.prefixed related
  · exact congruence.conditional related
  · exact congruence.function related

theorem operand :
    rel (Routine.operand .standard limit inner) (Routine.operand .standard limit' inner') := by
  refine congruence.anywhere fun window => ?_
  cases found : Grammar.standard.operand window.curr.kind with
  | none =>
      have refused : rel (Parse.failHere (.noOperand window.curr.kind) : Parse Node)
          (Parse.failHere (.noOperand window.curr.kind)) := congruence.failHere nofun
      exact ⟨_, _, refused, fun _ _ => Routine.operand_of_none found,
        fun _ _ => Routine.operand_of_none found⟩
  | some rule =>
      exact ⟨_, _, congruence.asOperand related found, fun _ _ => Routine.operand_of_rule found,
        fun _ _ => Routine.operand_of_rule found⟩

/-- Both parsers see the same next token, so both go on or neither does. -/
theorem climb (floor : Nat) (turns : List Token) (left : Node) :
    rel (Routine.climb .standard inner (.level floor) turns left)
      (Routine.climb .standard inner' (.level floor) turns left) := by
  induction turns generalizing left with
  | nil => exact congruence.pure left
  | cons turn turns ih =>
      refine congruence.anywhere fun window => ?_
      by_cases stops : window.peek.kind.Stops floor
      · exact ⟨_, _, congruence.pure left, fun _ _ => Routine.climb_of_stops stops,
          fun _ _ => Routine.climb_of_stops stops⟩
      · obtain ⟨rule, found, goes⟩ := @Routine.climb_of_goes inner _ _ stops
        obtain ⟨rule', found', goes'⟩ := @Routine.climb_of_goes inner' _ _ stops
        obtain rfl : rule = rule' := Option.some.inj (found.symm.trans found')
        refine ⟨_, _, ?_, fun _ _ => goes turn turns left _ rfl,
          fun _ _ => goes' turn turns left _ rfl⟩
        exact congruence.bind congruence.advance fun _ =>
          congruence.bind (congruence.asContinuation related left found) fun next => ih next

/-- Expressions over related routines are related. -/
theorem expression (floor : Nat) :
    rel (Routine.expression .standard limit inner (.level floor))
      (Routine.expression .standard limit' inner' (.level floor)) :=
  congruence.nested (congruence.bind (congruence.operand related) fun left =>
    congruence.look fun turns => congruence.climb related floor turns left)

/-- So are statements. -/
theorem statement : rel (Routine.statement inner) (Routine.statement inner') := by
  have value : rel (Parse.terminated (inner.expression .lowest))
      (Parse.terminated (inner'.expression .lowest)) :=
    congruence.terminated (related.expression _)
  refine congruence.anywhere fun window => ?_
  by_cases isLet : window.curr.kind = .letKeyword
  · refine ⟨_, _, ?_, fun _ _ => Routine.statement_of_let isLet,
      fun _ _ => Routine.statement_of_let isLet⟩
    exact congruence.bind congruence.current fun _ => congruence.bind (congruence.expect _) fun _ =>
      congruence.bind congruence.current fun _ => congruence.bind (congruence.expect _) fun _ =>
        congruence.bind congruence.advance fun _ => congruence.bind value fun _ => congruence.pure _
  by_cases isReturn : window.curr.kind = .returnKeyword
  · refine ⟨_, _, ?_, fun _ _ => Routine.statement_of_return isReturn,
      fun _ _ => Routine.statement_of_return isReturn⟩
    exact congruence.bind congruence.current fun _ => congruence.bind congruence.advance fun _ =>
      congruence.bind value fun _ => congruence.pure _
  · refine ⟨_, _, ?_, fun _ _ => Routine.statement_of_other isLet isReturn,
      fun _ _ => Routine.statement_of_other isLet isReturn⟩
    exact congruence.bind congruence.current fun _ =>
      congruence.bind value fun _ => congruence.pure _

end Congruence

end Parse

end ExprLang
