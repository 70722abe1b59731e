/-
# ExprLang.Proofs.Parser.Loops — the loops of the rules, one pass at a time

Five rules go round: over the statements of a program and of a block, over the names
and the arguments between parentheses, and over the operators of an expression. They
are written with a bound on the turns they may take. Here each of them is a `Loop`: when
it goes through its body, what one pass through it does, and what is done instead of a
pass. The rules are the bounded runs of these loops (`blockBody_run` and the others).

The bound does not matter if every pass moves forward (`Loop.Moves`): a loop with a turn
for each token from where it stands then ends before its turns are spent
(`Loop.run_enough`).
-/
import ExprLang.Proofs.Parser.Agreement
import ExprLang.Proofs.Parser.Resume

namespace ExprLang

set_option autoImplicit false

/-- What a pass through the body of a loop comes to: the loop is tried again with what it
has by then, or it has ended. -/
inductive Pass (σ β : Type) where
  | again (state : σ)
  | ended (outcome : Outcome β)

/-- A pass that goes on exactly if its body has a result, with what the result makes of
what there was. -/
def Pass.ofBody {σ α β : Type} (grow : α → σ) : Outcome α × Parser → Pass σ β × Parser
  | (.parsed result, after) => (.again (grow result), after)
  | (.failed, after) => (.ended .failed, after)
  | (.fault cause, after) => (.ended (.fault cause), after)

/-- A loop of the parser. -/
structure Loop (σ β : Type) where
  /-- Whether the body is entered. -/
  enters : Parser → Bool
  pass : σ → Parser → Pass σ β × Parser
  /-- What is done when the body is not entered. -/
  last : σ → Parse β

namespace Loop

variable {σ β : Type}

/-- The loop with so many turns, and what is done when they are spent. -/
def run (loop : Loop σ β) (spent : σ → Parse β) : List Token → σ → Parse β
  | [], state => spent state
  | _ :: turns, state => fun parser =>
      if loop.enters parser then
        match loop.pass state parser with
        | (.again next, after) => loop.run spent turns next after
        | (.ended outcome, after) => (outcome, after)
      else loop.last state parser

end Loop

/-! ## The loops of the rules -/

namespace Loop

open Parse Routine

/-- The statements of a program. -/
def program (limit : Int) (inner : Nested) : Loop (List Node) (List Node) where
  enters parser := parser.curr.kind ≠ .eof
  pass found parser :=
    match statement inner parser with
    | (.parsed node, after) => (.again (node :: found), after.advance)
    | (.failed, after) => (.again found, after.advance)
    | (.fault .stackExhausted, after) =>
        if Decimal.Writable limit then
          (.ended (.parsed found.reverse), after.recordHere (.tooNested limit))
        else (.ended (.fault .tooLong), after)
    | (.fault cause, after) => (.ended (.fault cause), after)
  last found := done found.reverse

/-- The statements of a block. -/
def block (inner : Nested) : Loop (List Node) (List Node) where
  enters parser := parser.curr.kind ≠ .rightBrace
  pass found parser :=
    if parser.curr.kind = .eof then
      (.ended .failed, parser.recordHere (.unexpected .rightBrace .eof))
    else
      match statement inner parser with
      | (.parsed node, after) => (.again (node :: found), after.advance)
      | (.failed, after) =>
          if after.curr.kind = .rightBrace then (.ended (.parsed found.reverse), after)
          else (.again found, after.advance)
      | (.fault cause, after) => (.ended (.fault cause), after)
  last found := done found.reverse

/-- Further items after a comma each, up to the closing parenthesis. -/
def commas {γ : Type} (item : Parse γ) : Loop (List γ) (List γ) where
  enters parser := parser.peek.kind = .comma
  pass found parser := Pass.ofBody (· :: found) (item parser.advance)
  last found := do
    expect .rightParen
    return found.reverse

/-- The names between the parentheses of a function literal. -/
def parameters : Loop (List Name) (List Name) := commas parameter

/-- The arguments of a call. -/
def arguments (inner : Nested) : Loop (List Node) (List Node) :=
  commas do
    advance
    inner.expression .lowest

/-- The operators of an expression. -/
def operators (inner : Nested) (floor : Nat) : Loop Node Node where
  enters parser := parser.peek.kind ≠ .semicolon ∧ floor < parser.peek.kind.precedence ∧
    (Grammar.standard.continuation parser.peek.kind).isSome
  pass left parser :=
    match Grammar.standard.continuation parser.peek.kind with
    | none => (.ended (.parsed left), parser)
    | some rule => Pass.ofBody id (asContinuation inner left rule parser.advance)
  last := done

end Loop

/-! ## The rules are runs of their loops -/

namespace Loop

open Parse Routine

section

variable {σ β : Type} {loop : Loop σ β} {spent : σ → Parse β} {turn : Token} {turns : List Token}
  {state : σ} {parser : Parser}

theorem run_of_leaves (leaves : ¬ loop.enters parser = true) :
    loop.run spent (turn :: turns) state parser = loop.last state parser :=
  if_neg leaves

theorem run_of_enters (enters : loop.enters parser = true) :
    loop.run spent (turn :: turns) state parser =
      match loop.pass state parser with
      | (.again next, after) => loop.run spent turns next after
      | (.ended outcome, after) => (outcome, after) :=
  if_pos enters

/-- A pass that is made of a step goes on with the loop after the step. -/
theorem pass_ofBody {α : Type} (grow : α → σ) (body : Parse α) (next : σ → Parse β)
    (parser : Parser) :
    (body >>= fun result => next (grow result)) parser =
      match (Pass.ofBody grow (body parser) : Pass σ β × Parser) with
      | (.again state, after) => next state after
      | (.ended outcome, after) => (outcome, after) := by
  change andThen body _ parser = _
  unfold andThen
  rcases body parser with ⟨outcome, after⟩
  cases outcome <;> rfl

end

theorem programBody_run (limit : Int) (inner : Nested) (turns : List Token) (found : List Node) :
    programBody limit inner turns found =
      (program limit inner).run (fun found => done found.reverse) turns found := by
  induction turns generalizing found with
  | nil => rfl
  | cons turn turns ih =>
      funext parser
      by_cases ends : parser.curr.kind = .eof
      · have leaves : ¬ (program limit inner).enters parser = true := by simp [program, ends]
        exact (if_pos ends).trans (run_of_leaves leaves).symm
      · refine (if_neg ends).trans (Eq.trans ?_ (run_of_enters (by simp [program, ends])).symm)
        rw [funext ih]
        generalize (program limit inner).run _ turns = later
        dsimp only [program]
        rcases statement inner parser with ⟨outcome, after⟩
        rcases outcome with node | - | cause
        · rfl
        · rfl
        · cases cause with
          | stackExhausted =>
              dsimp only
              split <;> rfl
          | _ => rfl

theorem blockBody_run (inner : Nested) (turns : List Token) (found : List Node) :
    blockBody inner turns found =
      (block inner).run (fun _ => failHere (.unexpected .rightBrace .eof)) turns found := by
  induction turns generalizing found with
  | nil => rfl
  | cons turn turns ih =>
      funext parser
      by_cases closes : parser.curr.kind = .rightBrace
      · have leaves : ¬ (block inner).enters parser = true := by simp [block, closes]
        exact (if_pos closes).trans (run_of_leaves leaves).symm
      · refine (if_neg closes).trans (Eq.trans ?_ (run_of_enters (by simp [block, closes])).symm)
        rw [funext ih]
        generalize (block inner).run _ turns = later
        dsimp only [block]
        by_cases ends : parser.curr.kind = .eof
        · rw [if_pos ends, if_pos ends]
          rfl
        rw [if_neg ends, if_neg ends]
        rcases statement inner parser with ⟨outcome, after⟩
        rcases outcome with node | - | cause
        · rfl
        · dsimp only
          split <;> rfl
        · rfl

/-- Two rules that differ in what they read after a comma. -/
theorem commas_run {γ : Type} {item : Parse γ} {rule : List Token → List γ → Parse (List γ)}
    (stops : ∀ found, rule [] found = (commas item).last found)
    (turned : ∀ turn turns found parser, rule (turn :: turns) found parser =
      if parser.peek.kind = .comma then
        (item >>= fun next => rule turns (next :: found)) parser.advance
      else (commas item).last found parser)
    (turns : List Token) (found : List γ) :
    rule turns found = (commas item).run (commas item).last turns found := by
  induction turns generalizing found with
  | nil => exact stops found
  | cons turn turns ih =>
      funext parser
      rw [turned]
      by_cases more : parser.peek.kind = .comma
      · have enters : (commas item).enters parser = true := decide_eq_true more
        rw [if_pos more, run_of_enters enters, funext ih]
        exact pass_ofBody _ _ _ _
      · have leaves : ¬ (commas item).enters parser = true := by simp [commas, more]
        rw [if_neg more, run_of_leaves leaves]

theorem moreParameters_run (turns : List Token) (found : List Name) :
    moreParameters turns found = parameters.run parameters.last turns found :=
  commas_run (fun _ => rfl) (fun _ _ _ _ => rfl) turns found

theorem moreArguments_run (inner : Nested) (turns : List Token) (found : List Node) :
    moreArguments inner turns found = (arguments inner).run (arguments inner).last turns found :=
  commas_run (fun _ => rfl) (fun _ _ _ _ => rfl) turns found

theorem enters_operators_iff {inner : Nested} {floor : Nat} {parser : Parser} :
    (operators inner floor).enters parser = true ↔ ¬ parser.peek.kind.Stops floor := by
  simp [operators, TokenKind.Stops, Option.isSome_iff_ne_none]

theorem climb_run (inner : Nested) (floor : Nat) (turns : List Token) (left : Node) :
    climb .standard inner (.level floor) turns left =
      (operators inner floor).run done turns left := by
  induction turns generalizing left with
  | nil => rfl
  | cons turn turns ih =>
      funext parser
      by_cases stops : parser.peek.kind.Stops floor
      · rw [climb_of_stops stops, run_of_leaves (by simpa [enters_operators_iff] using stops)]
        rfl
      · obtain ⟨rule, found, goes⟩ := @climb_of_goes inner _ _ stops
        rw [goes turn turns left parser rfl, run_of_enters (enters_operators_iff.2 stops),
          funext ih]
        generalize (operators inner floor).run _ turns = later
        dsimp only [operators]
        rw [found]
        exact pass_ofBody id _ later _

end Loop

/-! ## Loops that move forward -/

/-- The window lies further on in the tokens. -/
def Window.LaterThan (later window : Window) : Prop :=
  later.tokens <:+ window.tokens ∧ later.tokens.length < window.tokens.length

theorem Window.advance_laterThan {window middle : Window} (onward : middle.tokens <:+ window.tokens)
    (more : 1 < window.tokens.length) : middle.advance.LaterThan window :=
  ⟨middle.tokens_advance.trans onward, length_advance_lt onward more⟩

namespace Loop

variable {σ β : Type} {loop : Loop σ β}

/-- A pass from this parser moves forward, or it ends the loop at the end of input. Only a
limit that cannot be written breaks it off elsewhere, if no more levels than there are
tokens pass that limit. -/
def Moves (limit : Int) (loop : Loop σ β) (parser : Parser) : Prop :=
  ∀ state, loop.enters parser = true →
    (loop.pass state parser).2.window.LaterThan parser.window ∨
      ((loop.pass state parser).2.curr.kind = .eof ∧
        ∃ outcome, (loop.pass state parser).1 = .ended outcome) ∨
      Unnamed limit (parser.depth + parser.window.tokens.length) ∧
        (loop.pass state parser).1 = .ended (.fault .tooLong)

/-- A loop that moves forward wherever it may come does not spend a turn for each token.
So it does not matter how many more turns it has, and what it would do without them. -/
theorem run_enough {limit : Int} {domain : Window → Prop} [onward : Onward domain]
    (moves : ∀ parser, domain parser.window → loop.Moves limit parser) {spent spent' : σ → Parse β}
    (turns turns' : List Token) (state : σ) {parser : Parser} (inside : domain parser.window)
    (enough : parser.window.tokens.length ≤ turns.length)
    (enough' : parser.window.tokens.length ≤ turns'.length) :
    loop.run spent turns state parser = loop.run spent' turns' state parser := by
  induction turns generalizing turns' state parser with
  | nil => simp [Window.tokens] at enough
  | cons turn turns ih =>
      cases turns' with
      | nil => simp [Window.tokens] at enough'
      | cons turn' turns' =>
          by_cases enters : loop.enters parser = true
          · rw [run_of_enters enters, run_of_enters enters]
            have moved := moves parser inside state enters
            generalize loop.pass state parser = passed at moved ⊢
            obtain ⟨pass, after⟩ := passed
            rcases moved with ⟨later, shorter⟩ | ⟨-, outcome, ended⟩ | ⟨-, ended⟩
            · cases pass with
              | ended outcome => rfl
              | again next =>
                  change after.window.tokens.length < _ at shorter
                  rw [List.length_cons] at enough enough'
                  exact ih turns' next (onward.kept inside later) (by omega) (by omega)
            · cases ended
              rfl
            · cases ended
              rfl
          · rw [run_of_leaves enters, run_of_leaves enters]

end Loop

end ExprLang
