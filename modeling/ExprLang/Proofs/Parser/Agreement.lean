/-
# ExprLang.Proofs.Parser.Agreement — two parsers that do the same on some windows

Two parsers may differ in their handlers and in the routines far below, and yet do the
same as long as they stand on certain windows: those that show only certain tokens, or
only so many of them. A step that moves forward does not leave such windows. So if two
steps agree there, what follows on them only has to agree there too (`Parse.Agree`).

A rule that takes a token before it goes deeper asks less of the routines it goes to
than of itself: they have to agree only on windows that are reached with a token taken
(`Stage`). Whether the two windows are told apart is up to the comparison.

When the routines one level deeper agree (`AgreeNested`), and handlers agree wherever a
token can lead to them (`AgreeHandlers`), then so do expressions, blocks and programs.
-/
import ExprLang.Proofs.Parser.Handlers
import ExprLang.Proofs.Parser.Orderly

namespace ExprLang

set_option autoImplicit false

/-! ## Windows -/

/-- A parser that moves forward stays on such windows. -/
class Onward (domain : Window → Prop) : Prop where
  kept : ∀ {window middle : Window}, domain window → middle.tokens <:+ window.tokens →
    domain middle

/-- From here a token that is taken leads beyond. -/
structure Stage (here beyond : Window → Prop) : Prop where
  taken : ∀ {window : Window}, here window → beyond window.advance
  within : ∀ {window : Window}, beyond window → here window

/-- Where nothing is told apart. -/
theorem Stage.same (domain : Window → Prop) [onward : Onward domain] : Stage domain domain :=
  ⟨fun {window} inside => onward.kept inside window.tokens_advance, id⟩

/-! ## Floors -/

theorem TokenKind.lowest_le_precedence (kind : TokenKind) :
    Precedence.lowest ≤ kind.precedence := by
  cases kind <;> decide

/-- No operator that is taken in above the floor ranks lowest. -/
def Floor.Standing : Floor → Prop
  | .level floor => Precedence.lowest ≤ floor
  | .operand _ => True

theorem Floor.Standing.lt {floor : Floor} (standing : floor.Standing) {precedence : Nat}
    (above : floor.below precedence = .ok true) : Precedence.lowest < precedence := by
  cases floor with
  | operand node => cases above
  | level level =>
      have tight : level < precedence := by simpa [below] using above
      exact Nat.lt_of_le_of_lt standing tight

/-! ## Steps -/

namespace Parse

variable {α β : Type} {domain here beyond : Window → Prop} {step step' : Parse α}
  {next next' : α → Parse β}

/-- On the windows of the domain both steps do the same, and they move forward. -/
def Agree (domain : Window → Prop) {α : Type} (step step' : Parse α) : Prop :=
  ∀ parser, domain parser.window →
    step' parser = step parser ∧ (step parser).2.window.tokens <:+ parser.window.tokens

namespace Agree

theorem mono (agree : Agree here step step')
    (within : ∀ window, beyond window → here window) : Agree beyond step step' :=
  fun parser inside => agree parser (within _ inside)

/-- A step that is orderly moves forward. -/
theorem refl [orderly : Orderly (fun _ _ => False) step] : Agree domain step step := by
  intro parser _
  obtain ⟨outcome, left, found, ran, onward, -⟩ := orderly.orders parser.window parser.depth
  have ended : step parser = _ := ran parser.diagnostics
  rw [ended]
  exact ⟨rfl, onward⟩

theorem done (result : α) : Agree domain (Parse.done result) (Parse.done result) :=
  fun _ _ => ⟨rfl, List.suffix_refl _⟩

theorem failHere (problem : Problem) :
    Agree domain (Parse.failHere problem : Parse α) (Parse.failHere problem) :=
  fun _ _ => ⟨rfl, List.suffix_refl _⟩

theorem breakOff (cause : ParseFault) :
    Agree domain (Parse.breakOff cause : Parse α) (Parse.breakOff cause) :=
  fun _ _ => ⟨rfl, List.suffix_refl _⟩

/-- What follows on a step has to agree only where the step leads. -/
theorem andThen (first : Agree here step step')
    (reaches : ∀ parser result after, here parser.window →
      step parser = (.parsed result, after) → beyond after.window)
    (second : ∀ result, Agree beyond (next result) (next' result)) :
    Agree here (step >>= next) (step' >>= next') := by
  intro parser inside
  obtain ⟨same, onward⟩ := first parser inside
  change Parse.andThen step' next' parser = Parse.andThen step next parser ∧
    (Parse.andThen step next parser).2.window.tokens <:+ _
  unfold Parse.andThen
  rw [same]
  rcases ended : step parser with ⟨outcome, after⟩
  rw [ended] at onward
  cases outcome with
  | parsed result =>
      obtain ⟨same', onward'⟩ := second result after (reaches parser result after inside ended)
      exact ⟨same', onward'.trans onward⟩
  | failed => exact ⟨rfl, onward⟩
  | fault cause => exact ⟨rfl, onward⟩

theorem bind [onward : Onward domain] (first : Agree domain step step')
    (second : ∀ result, Agree domain (next result) (next' result)) :
    Agree domain (step >>= next) (step' >>= next') := by
  refine first.andThen (fun parser result after inside ended => ?_) second
  have moved := (first parser inside).2
  rw [ended] at moved
  exact onward.kept inside moved

/-- Beyond a token that is taken. -/
theorem take (stage : Stage here beyond) {next next' : Unit → Parse β}
    (second : Agree beyond (next ()) (next' ())) :
    Agree here (Parse.advance >>= next) (Parse.advance >>= next') := by
  refine refl.andThen (fun parser _ after inside ended => ?_) fun _ => second
  cases ended
  exact stage.taken inside

/-- Beyond a token that is taken if it is of a kind. -/
theorem takeOf (stage : Stage here beyond) {kind : TokenKind} {next next' : Unit → Parse β}
    (second : Agree beyond (next ()) (next' ())) :
    Agree here (Parse.expect kind >>= next) (Parse.expect kind >>= next') := by
  refine refl.andThen (fun parser _ after inside ended => ?_) fun _ => second
  unfold Parse.expect at ended
  split at ended
  · cases ended
    exact stage.taken inside
  · cases ended

theorem overLimit (limit : Int) :
    Agree domain (Parse.overLimit limit : Parse α) (Parse.overLimit limit) := by
  unfold Parse.overLimit
  split
  · exact .failHere _
  · exact .breakOff _

theorem nested (limit : Int) (inside : Agree domain step step') :
    Agree domain (Parse.nested limit step) (Parse.nested limit step') := by
  intro parser here
  unfold Parse.nested
  split
  · exact overLimit limit parser here
  · obtain ⟨same, onward⟩ := inside { parser with depth := parser.depth + 1 } here
    dsimp only
    rw [same]
    exact ⟨rfl, onward⟩

theorem terminated (inside : Agree domain step step') :
    Agree domain (Parse.terminated step) (Parse.terminated step') := by
  intro parser here
  obtain ⟨same, onward⟩ := inside parser here
  unfold Parse.terminated
  rw [same]
  refine ⟨rfl, ?_⟩
  generalize step parser = ended at onward ⊢
  obtain ⟨outcome, after⟩ := ended
  have taken : (if after.peek.kind = .semicolon then after.advance else after).window.tokens <:+
      parser.window.tokens := by
    split
    · exact after.window.tokens_advance.trans onward
    · exact onward
  cases outcome with
  | fault cause => exact onward
  | _ => exact taken

/-- A step that chooses by the kind of the next token. -/
theorem choice {kind : TokenKind} {first first' second second' : Parse α}
    (chosen : Agree domain first first') (otherwise : Agree domain second second') :
    Agree domain (fun parser => if parser.peek.kind = kind then first parser else second parser)
      (fun parser => if parser.peek.kind = kind then first' parser else second' parser) := by
  intro parser inside
  dsimp only
  split
  · exact chosen parser inside
  · exact otherwise parser inside

/-- A step that takes its turns from the tokens where it stands. -/
theorem look {steps steps' : List Token → Parse α}
    (each : ∀ turns, Agree domain (steps turns) (steps' turns)) :
    Agree domain (fun parser => steps parser.tokens parser)
      (fun parser => steps' parser.tokens parser) :=
  fun parser inside => each parser.tokens parser inside

end Agree

end Parse

open Parse

/-- On the windows of the domain both routines one level deeper agree, whatever operators
the parser asks for. -/
structure AgreeNested (domain : Window → Prop) (inner inner' : Nested) : Prop where
  expression : ∀ floor : Floor, floor.Standing →
    Agree domain (inner.expression floor) (inner'.expression floor)
  block : Agree domain inner.block inner'.block

namespace AgreeNested

variable {domain here beyond : Window → Prop} {inner inner' : Nested}

theorem lowest (nested : AgreeNested domain inner inner') :
    Agree domain (inner.expression .lowest) (inner'.expression .lowest) :=
  nested.expression .lowest (Nat.le_refl _)

/-! ## Rules that take a token before they go deeper -/

section Staged

variable [Onward here] [Onward beyond] (stage : Stage here beyond)
  (nested : AgreeNested beyond inner inner')

include stage nested

theorem prefixed : Agree here (Routine.prefixed inner) (Routine.prefixed inner') := by
  have tight : (Floor.level Precedence.unary).Standing := by
    change Precedence.lowest ≤ Precedence.unary
    decide
  exact .bind .refl fun _ => .take stage <| .bind (nested.expression _ tight) fun _ => .refl

omit [Onward here] in
theorem group : Agree here (Routine.group inner) (Routine.group inner') :=
  .take stage <| .bind nested.lowest fun _ => .refl

theorem conditional : Agree here (Routine.conditional inner) (Routine.conditional inner') := by
  have other (line : Int) (condition consequence : Node) :
      Agree beyond (Routine.alternative inner line condition consequence)
        (Routine.alternative inner' line condition consequence) :=
    .choice (.bind .refl fun _ => .bind .refl fun _ => .bind nested.block fun _ => .refl) (.done _)
  exact .bind .refl fun token => .takeOf stage <| .bind .refl fun _ =>
    .bind nested.lowest fun condition => .bind .refl fun _ => .bind .refl fun _ =>
      .bind nested.block fun consequence => other token.line condition consequence

theorem function : Agree here (Routine.function inner) (Routine.function inner') :=
  .bind .refl fun _ => .takeOf stage <| .bind .refl fun _ => .bind .refl fun _ =>
    .bind nested.block fun _ => .refl

end Staged

/-! ## Rules that go deeper where they stand -/

section

variable [onward : Onward domain] (nested : AgreeNested domain inner inner')

include nested

theorem binary (left : Node) :
    Agree domain (Routine.binary inner left) (Routine.binary inner' left) :=
  .bind .refl fun token => .bind .refl fun _ =>
    .bind (nested.expression _ token.kind.lowest_le_precedence) fun _ => .refl

theorem moreArguments (turns : List Token) (found : List Node) :
    Agree domain (Routine.moreArguments inner turns found)
      (Routine.moreArguments inner' turns found) := by
  induction turns generalizing found with
  | nil => exact .bind .refl fun _ => .refl
  | cons turn turns ih =>
      refine .choice ?_ .refl
      exact .bind .refl fun _ => .bind .refl fun _ => .bind nested.lowest fun node =>
        ih (node :: found)

theorem arguments : Agree domain (Routine.arguments inner) (Routine.arguments inner') := by
  have none : Agree domain (do Parse.advance; return ([] : List Node))
      (do Parse.advance; return ([] : List Node)) := .refl
  have some (turns : List Token) : Agree domain (do
      Parse.advance
      let node ← inner.expression .lowest
      Routine.moreArguments inner turns [node]) (do
      Parse.advance
      let node ← inner'.expression .lowest
      Routine.moreArguments inner' turns [node]) :=
    .bind .refl fun _ => .bind nested.lowest fun node => nested.moreArguments turns [node]
  exact .choice none (.look some)

theorem call (callee : Node) :
    Agree domain (Routine.call inner callee) (Routine.call inner' callee) :=
  .bind .refl fun _ => .bind nested.arguments fun _ => .refl

theorem letStatement :
    Agree domain (Routine.letStatement inner) (Routine.letStatement inner') :=
  .bind .refl fun _ => .bind .refl fun _ => .bind .refl fun _ => .bind .refl fun _ =>
    .bind .refl fun _ => .bind nested.lowest.terminated fun _ => .refl

theorem returnStatement :
    Agree domain (Routine.returnStatement inner) (Routine.returnStatement inner') :=
  .bind .refl fun _ => .bind .refl fun _ => .bind nested.lowest.terminated fun _ => .refl

theorem expressionStatement :
    Agree domain (Routine.expressionStatement inner) (Routine.expressionStatement inner') :=
  .bind .refl fun _ => .bind nested.lowest.terminated fun _ => .refl

theorem statement : Agree domain (Routine.statement inner) (Routine.statement inner') := by
  intro parser inside
  unfold Routine.statement
  split
  · exact nested.letStatement parser inside
  · exact nested.returnStatement parser inside
  · exact nested.expressionStatement parser inside

end

end AgreeNested

/-! ## Blocks and programs -/

/-- The statements that are read from a window of the domain agree. At the end of input
none is read. -/
def AgreeStatements (domain : Window → Prop) (inner inner' : Nested) : Prop :=
  Agree (fun window => domain window ∧ window.curr.kind ≠ .eof) (Routine.statement inner)
    (Routine.statement inner')

theorem AgreeNested.statements {domain : Window → Prop} [Onward domain] {inner inner' : Nested}
    (nested : AgreeNested domain inner inner') : AgreeStatements domain inner inner' :=
  nested.statement.mono fun _ inside => inside.1

namespace AgreeStatements

variable {domain here : Window → Prop} [onward : Onward domain] {inner inner' : Nested}
  (reads : AgreeStatements domain inner inner')

include onward reads

theorem blockBody (turns : List Token) (found : List Node) :
    Agree domain (Routine.blockBody inner turns found)
      (Routine.blockBody inner' turns found) := by
  induction turns generalizing found with
  | nil => exact .failHere _
  | cons turn turns ih =>
      intro parser inside
      rw [Routine.blockBody, Routine.blockBody]
      dsimp only
      split
      · exact ⟨rfl, List.suffix_refl _⟩
      split
      · exact ⟨rfl, List.suffix_refl _⟩
      next noEnd =>
      obtain ⟨same, moved⟩ := reads parser ⟨inside, noEnd⟩
      rw [same]
      generalize Routine.statement inner parser = ended at moved ⊢
      obtain ⟨outcome, after⟩ := ended
      have advanced := after.window.tokens_advance.trans moved
      have later (found : List Node) :=
        (ih found after.advance (onward.kept inside advanced)).imp_right fun moved' =>
          moved'.trans advanced
      cases outcome with
      | parsed node => exact later _
      | failed =>
          dsimp only
          split
          · exact ⟨rfl, moved⟩
          · exact later _
      | fault cause => exact ⟨rfl, moved⟩

theorem block (limit : Int) (stage : Stage here domain) [Onward here] :
    Agree here (Routine.block limit inner) (Routine.block limit inner') :=
  .nested limit <| .bind .refl fun _ => .take stage <|
    .bind (.look fun turns => reads.blockBody turns []) fun _ => .refl

theorem programBody (limit : Int) (turns : List Token) (found : List Node) :
    Agree domain (Routine.programBody limit inner turns found)
      (Routine.programBody limit inner' turns found) := by
  induction turns generalizing found with
  | nil => exact .done _
  | cons turn turns ih =>
      intro parser inside
      rw [Routine.programBody, Routine.programBody]
      dsimp only
      split
      · exact ⟨rfl, List.suffix_refl _⟩
      next noEnd =>
      obtain ⟨same, moved⟩ := reads parser ⟨inside, noEnd⟩
      rw [same]
      generalize Routine.statement inner parser = ended at moved ⊢
      obtain ⟨outcome, after⟩ := ended
      have advanced := after.window.tokens_advance.trans moved
      have later (found : List Node) :=
        (ih found after.advance (onward.kept inside advanced)).imp_right fun moved' =>
          moved'.trans advanced
      cases outcome with
      | parsed node => exact later _
      | failed => exact later _
      | fault cause =>
          cases cause with
          | stackExhausted =>
              by_cases named : Decimal.Writable limit
              · simp only [if_pos named]
                exact ⟨trivial, moved⟩
              · simp only [if_neg named]
                exact ⟨trivial, moved⟩
          | _ => exact ⟨rfl, moved⟩

theorem program (limit : Int) :
    Agree domain (Routine.program limit inner) (Routine.program limit inner') := by
  have each (turns : List Token) : Agree domain (do
      let statements ← Routine.programBody limit inner turns []
      return Node.program statements) (do
      let statements ← Routine.programBody limit inner' turns []
      return Node.program statements) :=
    .bind (reads.programBody limit turns []) fun _ => .refl
  exact .look each

end AgreeStatements

/-! ## Rules by name -/

namespace AgreeNested

variable {domain here beyond : Window → Prop} [Onward domain] [Onward here] [Onward beyond]
  {inner inner' : Nested}

theorem asContinuation (nested : AgreeNested domain inner inner') (left : Node) (rule : Rule) :
    Agree domain (Routine.asContinuation inner left rule)
      (Routine.asContinuation inner' left rule) := by
  cases rule with
  | binary => exact nested.binary left
  | call => exact nested.call left
  | expression => exact nested.expression (.operand left) trivial
  | _ => exact .breakOff _

/-- The rules of the standard tables take a token before they go deeper. -/
theorem asOperand_standard (stage : Stage here beyond) (nested : AgreeNested beyond inner inner')
    (limit : Int) {kind : TokenKind} {rule : Rule}
    (found : Grammar.standard.operand kind = some rule) :
    Agree here (Routine.asOperand limit inner rule) (Routine.asOperand limit inner' rule) := by
  rcases Grammar.operand_standard found with
    ⟨-, rfl⟩ | ⟨-, rfl⟩ | ⟨-, rfl⟩ | ⟨-, rfl⟩ | ⟨-, rfl⟩ | ⟨-, rfl⟩ | ⟨-, rfl⟩
  · exact (.refl : Agree here Routine.identifier _)
  · exact (.refl : Agree here Routine.integer _)
  · exact (.refl : Agree here Routine.boolean _)
  · exact nested.group stage
  · exact nested.prefixed stage
  · exact nested.conditional stage
  · exact nested.function stage

/-- Any rule may be installed for the start of an expression. -/
theorem asOperand (nested : AgreeNested domain inner inner') (limit : Int) (rule : Rule) :
    Agree domain (Routine.asOperand limit inner rule) (Routine.asOperand limit inner' rule) := by
  cases rule with
  | program => exact nested.statements.program limit
  | statement => exact nested.statement
  | letStatement => exact nested.letStatement
  | returnStatement => exact nested.returnStatement
  | expressionStatement => exact nested.expressionStatement
  | block => exact nested.block
  | identifier => exact (.refl : Agree domain Routine.identifier _)
  | integer => exact (.refl : Agree domain Routine.integer _)
  | boolean => exact (.refl : Agree domain Routine.boolean _)
  | prefixed => exact nested.prefixed (.same domain)
  | group => exact nested.group (.same domain)
  | conditional => exact nested.conditional (.same domain)
  | function => exact nested.function (.same domain)
  | parameters => exact .bind (.refl : Agree domain Routine.parameters _) fun _ => .refl
  | arguments => exact .bind nested.arguments fun _ => .refl
  | expression => exact .breakOff _
  | binary => exact .breakOff _
  | call => exact .breakOff _

end AgreeNested

/-! ## Expressions -/

/-- Wherever a token leads to a handler, it leads to agreeing handlers in both tables. A
token that ranks lowest leads to no continuation. -/
structure AgreeHandlers (here beyond : Window → Prop) (handlers handlers' : Handlers)
    (inner inner' : Nested) : Prop where
  operand : ∀ window, here window →
    Option.Rel (fun handler handler' => Agree here (handler inner) (handler' inner'))
      (handlers.operand window.curr.kind) (handlers'.operand window.curr.kind)
  continuation : ∀ window, here window → Precedence.lowest < window.peek.kind.precedence →
    Option.Rel (fun handler handler' => ∀ left,
        Agree beyond (handler inner left) (handler' inner' left))
      (handlers.continuation window.peek.kind) (handlers'.continuation window.peek.kind)

namespace AgreeHandlers

variable {here beyond : Window → Prop} {handlers handlers' : Handlers} {inner inner' : Nested}
  (alike : AgreeHandlers here beyond handlers handlers' inner inner')

include alike

theorem operandBy :
    Agree here (Routine.operandBy handlers inner) (Routine.operandBy handlers' inner') := by
  intro parser inside
  unfold Routine.operandBy
  have chosen : Option.Rel _ (handlers.operand parser.curr.kind)
    (handlers'.operand parser.curr.kind) := alike.operand parser.window inside
  generalize handlers.operand parser.curr.kind = found at chosen ⊢
  generalize handlers'.operand parser.curr.kind = found' at chosen ⊢
  cases chosen with
  | none => exact ⟨rfl, List.suffix_refl _⟩
  | some agree => exact agree parser inside

theorem climbBy [Onward beyond] (stage : Stage here beyond) {floor : Floor}
    (standing : floor.Standing) (turns : List Token) (left : Node) :
    Agree here (Routine.climbBy handlers inner floor turns left)
      (Routine.climbBy handlers' inner' floor turns left) := by
  induction turns generalizing left with
  | nil => exact .done left
  | cons turn turns ih =>
      intro parser inside
      rw [Routine.climbBy, Routine.climbBy]
      dsimp only
      split
      · exact ⟨rfl, List.suffix_refl _⟩
      cases above : floor.below parser.peek.kind.precedence with
      | error cause => exact ⟨rfl, List.suffix_refl _⟩
      | ok tight =>
          cases tight with
          | false => exact ⟨rfl, List.suffix_refl _⟩
          | true =>
              have chosen : Option.Rel _ (handlers.continuation parser.peek.kind)
                (handlers'.continuation parser.peek.kind) :=
                  alike.continuation parser.window inside (standing.lt above)
              generalize handlers.continuation parser.peek.kind = found at chosen ⊢
              generalize handlers'.continuation parser.peek.kind = found' at chosen ⊢
              cases chosen with
              | none => exact ⟨rfl, List.suffix_refl _⟩
              | some agree =>
                  refine Agree.take stage ?_ parser inside
                  exact .bind (agree left) fun next =>
                    (ih next).mono fun _ => stage.within

theorem expressionBy [Onward here] [Onward beyond] (stage : Stage here beyond) (limit : Int)
    {floor : Floor} (standing : floor.Standing) :
    Agree here (Routine.expressionBy handlers limit inner floor)
      (Routine.expressionBy handlers' limit inner' floor) :=
  .nested limit <| .bind alike.operandBy fun left =>
    .look fun turns => alike.climbBy stage standing turns left

end AgreeHandlers

end ExprLang
