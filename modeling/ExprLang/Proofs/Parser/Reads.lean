/-
# ExprLang.Proofs.Parser.Reads — steps that read a phrase

A parser that is to read a list of tokens stands on the first of them
(`Parser.over`). A step reads a list up to a rest when it succeeds and the parser
then stands on the last token before the rest, as deep as before and with the
same diagnostics (`Parse.Reads`). The lemmas here say so of the ways that steps
are made and put together; the rules are read off them.
-/
import ExprLang.Parser.Routine
import ExprLang.Proofs.Parser.Derivation

namespace ExprLang

set_option autoImplicit false

/-- A parser that stands on the first of some tokens. -/
def Parser.over (tokens : List Token) (depth : Nat) (diagnostics : List Diagnostic) : Parser :=
  ⟨Window.ofTokens tokens, depth, diagnostics⟩

namespace Parse

variable {α β : Type} {depth : Nat} {diagnostics : List Diagnostic}

/-- The step reads the tokens up to the rest, with a result. -/
def Reads (step : Parse α) (depth : Nat) (diagnostics : List Diagnostic) (input : List Token)
    (result : α) (rest : List Token) : Prop :=
  ∃ last, step (.over input depth diagnostics) =
    (.parsed result, .over (last :: rest) depth diagnostics)

theorem bind_of_parsed {step : Parse α} {parser after : Parser} {result : α}
    (ended : step parser = (.parsed result, after)) (next : α → Parse β) :
    (step >>= next) parser = next result after := by
  change andThen step next parser = _
  unfold andThen
  rw [ended]

theorem Reads.bind {step : Parse α} {next : α → Parse β} {input middle rest : List Token}
    {result : α} {final : β} (first : Reads step depth diagnostics input result middle)
    (second : ∀ last, Reads (next result) depth diagnostics (last :: middle) final rest) :
    Reads (step >>= next) depth diagnostics input final rest := by
  obtain ⟨last, ended⟩ := first
  obtain ⟨last', ended'⟩ := second last
  exact ⟨last', (bind_of_parsed ended next).trans ended'⟩

theorem Reads.done (result : α) (last : Token) (rest : List Token) :
    Reads (pure result) depth diagnostics (last :: rest) result rest :=
  ⟨last, rfl⟩

/-- Looking at the current token reads nothing. -/
theorem Reads.current {next : Token → Parse β} {token : Token} {tokens rest : List Token}
    {final : β} (later : Reads (next token) depth diagnostics (token :: tokens) final rest) :
    Reads (Parse.current >>= next) depth diagnostics (token :: tokens) final rest :=
  later

/-- Moving on reads the token that was current. -/
theorem Reads.advance {next : Unit → Parse β} {passed token : Token} {tokens rest : List Token}
    {final : β} (later : Reads (next ()) depth diagnostics (token :: tokens) final rest) :
    Reads (Parse.advance >>= next) depth diagnostics (passed :: token :: tokens) final rest :=
  later

theorem Reads.expect {next : Unit → Parse β} {passed token : Token} {tokens rest : List Token}
    {final : β} {kind : TokenKind} (wanted : token.kind = kind)
    (later : Reads (next ()) depth diagnostics (token :: tokens) final rest) :
    Reads (Parse.expect kind >>= next) depth diagnostics (passed :: token :: tokens) final
      rest := by
  have moved : Parse.expect kind (.over (passed :: token :: tokens) depth diagnostics) =
      (.parsed (), .over (token :: tokens) depth diagnostics) := if_pos wanted
  obtain ⟨last, ended⟩ := later
  exact ⟨last, (bind_of_parsed moved next).trans ended⟩

section Choices

variable {condition : Parser → Prop} [∀ parser, Decidable (condition parser)]
  {first second : Parse α} {input rest : List Token} {result : α}

/-- A step that chooses by where it stands reads what the step it chooses reads. -/
theorem Reads.chosen (holds : condition (.over input depth diagnostics))
    (reads : Reads first depth diagnostics input result rest) :
    Reads (fun parser => if condition parser then first parser else second parser)
      depth diagnostics input result rest := by
  obtain ⟨last, ended⟩ := reads
  exact ⟨last, (if_pos holds).trans ended⟩

theorem Reads.otherwise (fails : ¬ condition (.over input depth diagnostics))
    (reads : Reads second depth diagnostics input result rest) :
    Reads (fun parser => if condition parser then first parser else second parser)
      depth diagnostics input result rest := by
  obtain ⟨last, ended⟩ := reads
  exact ⟨last, (if_neg fails).trans ended⟩

end Choices

/-- Below the limit a nested step runs one level deeper. -/
theorem nested_of_lt {limit : Int} {parser inside : Parser} {step : Parse α} {outcome : Outcome α}
    (room : (parser.depth : Int) < limit)
    (ended : step { parser with depth := parser.depth + 1 } = (outcome, inside)) :
    Parse.nested limit step parser = (outcome, { inside with depth := inside.depth - 1 }) := by
  have enters : parser.atLimit limit = false := decide_eq_false (Int.not_le.2 room)
  unfold Parse.nested
  rw [enters, ended]
  rfl

theorem Reads.nested {limit : Int} {step : Parse α} {input rest : List Token} {result : α}
    (room : (depth : Int) < limit)
    (inside : Reads step (depth + 1) diagnostics input result rest) :
    Reads (Parse.nested limit step) depth diagnostics input result rest := by
  obtain ⟨last, ended⟩ := inside
  have left : Parse.nested limit step (.over input depth diagnostics) = _ :=
    nested_of_lt room ended
  exact ⟨last, left⟩

/-- After a value, a statement takes in its semicolon if there is one. -/
theorem Reads.terminated {step : Parse α} {input after rest : List Token} {result : α}
    {ending : Option Token} (reads : Reads step depth diagnostics input result after)
    (ends : Ends ending after rest) :
    Reads (Parse.terminated step) depth diagnostics input result rest := by
  obtain ⟨last, ended⟩ := reads
  unfold Reads Parse.terminated
  rw [ended]
  cases ends with
  | @semicolon token rest kind => exact ⟨token, congrArg (Prod.mk _) (if_pos kind)⟩
  | bare noSemicolon stops => exact ⟨last, congrArg (Prod.mk _) (if_neg noSemicolon)⟩

end Parse

/-- There is stack and there are levels for so much nesting. -/
structure Room (limit : Int) (levels depth nesting : Nat) : Prop where
  stack : nesting ≤ levels
  limit : ((depth + nesting : Nat) : Int) ≤ limit

namespace Room

variable {limit : Int} {levels depth nesting less : Nat}

theorem mono (room : Room limit levels depth nesting) (fewer : less ≤ nesting) :
    Room limit levels depth less where
  stack := Nat.le_trans fewer room.stack
  limit := by have := room.limit; omega

/-- To enter an expression or a block takes one level of either kind. -/
theorem enter (room : Room limit levels depth (nesting + 1)) :
    ∃ fewer, levels = fewer + 1 ∧ (depth : Int) < limit ∧ Room limit fewer (depth + 1) nesting := by
  obtain ⟨stack, within⟩ := room
  obtain ⟨fewer, rfl⟩ : ∃ fewer, levels = fewer + 1 := ⟨levels - 1, by omega⟩
  exact ⟨fewer, rfl, by omega, by omega, by omega⟩

theorem zero (within : (depth : Int) ≤ limit) : Room limit levels depth 0 :=
  ⟨Nat.zero_le _, by simpa using within⟩

theorem max {other : Nat} (room : Room limit levels depth nesting)
    (room' : Room limit levels depth other) : Room limit levels depth (max nesting other) := by
  rcases Nat.le_total nesting other with below | below
  · rwa [Nat.max_eq_right below]
  · rwa [Nat.max_eq_left below]

theorem leave (room : Room limit levels (depth + 1) nesting) :
    Room limit (levels + 1) depth (nesting + 1) := by
  obtain ⟨stack, within⟩ := room
  exact ⟨by omega, by omega⟩

end Room

namespace Routine

variable {inner : Nested} {parser : Parser}

theorem statement_of_let (kind : parser.curr.kind = .letKeyword) :
    statement inner parser = letStatement inner parser := by
  unfold statement
  rw [kind]

theorem statement_of_return (kind : parser.curr.kind = .returnKeyword) :
    statement inner parser = returnStatement inner parser := by
  unfold statement
  rw [kind]

theorem statement_of_other (noLet : parser.curr.kind ≠ .letKeyword)
    (noReturn : parser.curr.kind ≠ .returnKeyword) :
    statement inner parser = expressionStatement inner parser := by
  unfold statement
  split
  · next kind => exact absurd kind noLet
  · next kind => exact absurd kind noReturn
  · rfl

theorem operand_of_rule {grammar : Grammar} {limit : Int} {rule : Rule}
    (found : grammar.operand parser.curr.kind = some rule) :
    operand grammar limit inner parser = asOperand limit inner rule parser := by
  unfold operand
  rw [found]

theorem operand_of_none {grammar : Grammar} {limit : Int}
    (absent : grammar.operand parser.curr.kind = none) :
    operand grammar limit inner parser = Parse.failHere (.noOperand parser.curr.kind) parser := by
  unfold operand
  rw [absent]

/-- An expression inside of its nesting guard. -/
def unguarded (limit : Int) (inner : Nested) (floor : Nat) : Parse Node := do
  let left ← operand .standard limit inner
  (fun parser => climb .standard inner (.level floor) parser.tokens left parser : Parse Node)

/-- Before the next token an expression is either complete or goes on. -/
theorem climb_cases (floor : Nat) (turn : Token) (turns : List Token) (left : Node)
    (parser : Parser) :
    (parser.peek.kind = .semicolon ∨ parser.peek.kind.precedence ≤ floor ∨
        Grammar.standard.continuation parser.peek.kind = none) ∧
      climb .standard inner (.level floor) (turn :: turns) left parser = (.parsed left, parser) ∨
    ∃ rule, floor < parser.peek.kind.precedence ∧
      Grammar.standard.continuation parser.peek.kind = some rule ∧
      climb .standard inner (.level floor) (turn :: turns) left parser =
        (do
          Parse.advance
          let next ← asContinuation inner left rule
          climb .standard inner (.level floor) turns next : Parse Node) parser := by
  rw [climb]
  by_cases semicolon : parser.peek.kind = .semicolon
  · exact .inl ⟨.inl semicolon, if_pos semicolon⟩
  simp only [if_neg semicolon, Floor.below]
  by_cases tight : floor < parser.peek.kind.precedence
  · cases found : Grammar.standard.continuation parser.peek.kind with
    | none => exact .inl ⟨.inr (.inr rfl), by simp [tight]⟩
    | some rule => exact .inr ⟨rule, tight, rfl, by simp [tight]⟩
  · exact .inl ⟨.inr (.inl (Nat.le_of_not_lt tight)), by simp [tight]⟩

end Routine

end ExprLang
