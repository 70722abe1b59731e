/-
# ExprLang.Proofs.Parser.Honest — what a step does to the diagnostics

A step never takes a diagnostic back, and it leaves a new one when it fails.
`Honest` says this of a step, from every parser; with the standard tables every
rule is honest (`nestedRoutines_honest`).

It follows that a run of two steps is clean, with a result and no new
diagnostic, exactly when both are (`Clean.bind`). So a clean run can be taken
apart step by step.
-/
import ExprLang.Proofs.Parser.Reads

namespace ExprLang

set_option autoImplicit false

/-- How a step may end that started on a parser. -/
structure Reported {α : Type} (before : Parser) (ended : Outcome α × Parser) : Prop where
  kept : before.diagnostics <+: ended.2.diagnostics
  failed : ended.1 = .failed → ended.2.diagnostics ≠ before.diagnostics

/-- Every run of the step ends in such a way. -/
class Honest {α : Type} (step : Parse α) : Prop where
  reported : ∀ parser, Reported parser (step parser)

/-- Both routines one level deeper are honest. -/
class HonestNested (inner : Nested) : Prop where
  expression : ∀ floor : Nat, Honest (inner.expression (.level floor))
  block : Honest inner.block

/-- Diagnostics that are the same at the end were the same all along. -/
theorem unchanged {earlier middle later : List Diagnostic} (first : earlier <+: middle)
    (second : middle <+: later) (same : later = earlier) : middle = earlier := by
  have shorter := second.length_le
  rw [same] at shorter
  exact (first.eq_of_length_le shorter).symm

namespace Reported

variable {α : Type} {before middle : Parser}

theorem parsed {result : α} {after : Parser} (kept : before.diagnostics <+: after.diagnostics) :
    Reported before (.parsed result, after) :=
  ⟨kept, nofun⟩

/-- What was recorded before a step does not matter to it. -/
theorem after {ended : Outcome α × Parser} (kept : before.diagnostics <+: middle.diagnostics)
    (reported : Reported middle ended) : Reported before ended where
  kept := kept.trans reported.kept
  failed failed same := by
    have still := unchanged kept reported.kept same
    exact reported.failed failed (same.trans still.symm)

theorem brokenOff {cause : ParseFault} {after : Parser}
    (kept : before.diagnostics <+: after.diagnostics) :
    Reported before ((.fault cause : Outcome α), after) :=
  ⟨kept, nofun⟩

end Reported

theorem Parse.reported {α : Type} (step : Parse α) [honest : Honest step] (parser : Parser) :
    Reported parser (step parser) :=
  honest.reported parser

namespace Honest

variable {α β : Type} {step : Parse α} {next : α → Parse β} {inner : Nested}

open Parse

instance pure (result : α) : Honest (pure result : Parse α) where
  reported _ := .parsed (List.prefix_refl _)

instance bind [first : Honest step] [second : ∀ result, Honest (next result)] :
    Honest (step >>= next) where
  reported parser := by
    have reported := first.reported parser
    change Reported parser (andThen step next parser)
    unfold andThen
    split
    · next result after ended =>
        rw [ended] at reported
        exact ((second result).reported after).after reported.kept
    · next after ended =>
        rw [ended] at reported
        exact ⟨reported.kept, fun _ => reported.failed rfl⟩
    · next cause after ended =>
        rw [ended] at reported
        exact .brokenOff reported.kept

instance current : Honest Parse.current where
  reported _ := .parsed (List.prefix_refl _)

instance advance : Honest Parse.advance where
  reported _ := .parsed (List.prefix_refl _)

theorem recorded (parser : Parser) (problem : Problem) (line : Int) :
    Reported parser ((.failed : Outcome α), parser.record problem line) where
  kept := List.prefix_append _ _
  failed _ same := by
    have lengths := congrArg List.length same
    simp [Parser.record] at lengths

instance failHere (problem : Problem) : Honest (Parse.failHere problem : Parse α) where
  reported parser := recorded parser problem parser.curr.line

instance expect (kind : TokenKind) : Honest (Parse.expect kind) where
  reported parser := by
    unfold Parse.expect
    split
    · exact .parsed (List.prefix_refl _)
    · exact recorded _ _ _

instance breakOff (cause : ParseFault) : Honest (Parse.breakOff cause : Parse α) where
  reported _ := .brokenOff (List.prefix_refl _)

instance overLimit (limit : Int) : Honest (Parse.overLimit limit : Parse α) := by
  unfold Parse.overLimit
  split <;> infer_instance

instance nested (limit : Int) [honest : Honest step] : Honest (Parse.nested limit step) where
  reported parser := by
    unfold Parse.nested
    split
    · exact (overLimit limit).reported parser
    · obtain ⟨kept, failed⟩ := honest.reported { parser with depth := parser.depth + 1 }
      exact ⟨kept, failed⟩

instance terminated [honest : Honest step] : Honest (Parse.terminated step) where
  reported parser := by
    have reported := honest.reported parser
    unfold Parse.terminated
    split
    · next cause after ended => rwa [ended] at reported
    · next outcome after _ ended =>
        rw [ended] at reported
        obtain ⟨kept, failed⟩ := reported
        split
        · exact ⟨kept, failed⟩
        · exact ⟨kept, failed⟩

/-- A step that first looks where it stands. -/
theorem look {step : Parser → Parse α} (honest : ∀ parser, Honest (step parser)) :
    Honest (fun parser => step parser parser : Parse α) where
  reported parser := (honest parser).reported parser

/-- A step that chooses by where it stands. -/
theorem choice {condition : Parser → Prop} [∀ parser, Decidable (condition parser)]
    {first second : Parse α} (left : Honest first) (right : Honest second) :
    Honest (fun parser => if condition parser then first parser else second parser : Parse α) where
  reported parser := by
    split
    · exact left.reported parser
    · exact right.reported parser

end Honest

/-- A passed limit leaves nothing to go on with. -/
theorem Parse.overLimit_ne_parsed {α : Type} (limit : Int) (parser : Parser) (result : α)
    (after : Parser) : Parse.overLimit limit parser ≠ (.parsed result, after) := by
  unfold Parse.overLimit
  split
  · exact nofun
  · exact nofun

/-! ## Clean runs -/

/-- The step has a result and leaves no diagnostic. -/
def Parse.Clean {α : Type} (step : Parse α) (before : Parser) (result : α) (after : Parser) :
    Prop :=
  step before = (.parsed result, after) ∧ after.diagnostics = before.diagnostics

namespace Parse.Clean

variable {α β : Type} {step : Parse α} {next : α → Parse β} {before after : Parser}

section Steps

variable {second : Parse β} [first : Honest step] [Honest second] {middle onward : Parser}

/-- When one step follows on another and both together leave no diagnostic, each
leaves none. -/
theorem both {result : α} {final : β} (reached : step before = (.parsed result, middle))
    (ended : second onward = (.parsed final, after))
    (here : onward.diagnostics = middle.diagnostics)
    (same : after.diagnostics = before.diagnostics) :
    Clean step before result middle ∧ Clean second onward final after := by
  have reported := first.reported before
  have later := second.reported onward
  rw [reached] at reported
  rw [ended] at later
  have still := unchanged (here ▸ reported.kept) later.kept same
  exact ⟨⟨reached, here.symm.trans still⟩, ended, same.trans still.symm⟩

/-- What follows on a failure does not take its diagnostic back. -/
theorem changed_of_failed {outcome : Outcome β} (reached : step before = (.failed, middle))
    (ended : second onward = (outcome, after)) (here : onward.diagnostics = middle.diagnostics) :
    after.diagnostics ≠ before.diagnostics := by
  intro same
  have reported := first.reported before
  have later := second.reported onward
  rw [reached] at reported
  rw [ended] at later
  have still := unchanged (here ▸ reported.kept) later.kept same
  exact reported.failed rfl (here.symm.trans still)

end Steps

/-- Of two steps in a clean run each is clean. -/
theorem bind [Honest step] [∀ result, Honest (next result)] {final : β}
    (clean : Clean (step >>= next) before final after) :
    ∃ result middle, Clean step before result middle ∧ Clean (next result) middle final after := by
  obtain ⟨ended, same⟩ := clean
  change andThen step next before = _ at ended
  unfold andThen at ended
  split at ended
  · next result middle reached => exact ⟨result, middle, both reached ended rfl same⟩
  · cases ended
  · cases ended

theorem pure {result final : α} (clean : Clean (pure result) before final after) :
    final = result ∧ after = before := by
  obtain ⟨ended, -⟩ := clean
  cases ended
  exact ⟨rfl, rfl⟩

theorem expect {kind : TokenKind} (clean : Clean (Parse.expect kind) before () after) :
    before.peek.kind = kind ∧ after = before.advance := by
  obtain ⟨ended, -⟩ := clean
  unfold Parse.expect at ended
  split at ended
  · next wanted =>
      cases ended
      exact ⟨wanted, rfl⟩
  · cases ended

theorem nested {limit : Int} {result : α}
    (clean : Clean (Parse.nested limit step) before result after) :
    (before.depth : Int) < limit ∧
      ∃ inside, Clean step { before with depth := before.depth + 1 } result inside ∧
        after = { inside with depth := inside.depth - 1 } := by
  obtain ⟨ended, same⟩ := clean
  by_cases room : (before.depth : Int) < limit
  · rcases reached : step { before with depth := before.depth + 1 } with ⟨outcome, inside⟩
    rw [nested_of_lt room reached] at ended
    cases ended
    exact ⟨room, inside, ⟨reached, same⟩, rfl⟩
  · have full : before.atLimit limit = true := decide_eq_true (Int.not_lt.1 room)
    unfold Parse.nested at ended
    rw [if_pos full] at ended
    exact absurd ended (overLimit_ne_parsed limit before result after)

theorem terminated {result : α} (clean : Clean (Parse.terminated step) before result after) :
    ∃ middle, Clean step before result middle ∧
      after = if middle.peek.kind = .semicolon then middle.advance else middle := by
  obtain ⟨ended, same⟩ := clean
  unfold Parse.terminated at ended
  split at ended
  · cases ended
  · next outcome middle _ reached =>
      obtain ⟨rfl, rfl⟩ := Prod.mk.injEq _ _ _ _ ▸ ended
      refine ⟨middle, ⟨reached, ?_⟩, rfl⟩
      rw [← same]
      split <;> rfl

end Parse.Clean

/-! ## The rules -/

namespace Routine

open Parse

variable {inner : Nested}

instance identifier_honest : Honest identifier := by
  unfold identifier
  infer_instance

instance boolean_honest : Honest boolean := by
  unfold boolean
  infer_instance

instance integer_honest : Honest integer := by
  unfold integer
  refine @Honest.bind _ _ _ _ _ fun token => ?_
  split <;> infer_instance

instance expression_honest [honest : HonestNested inner] (floor : Nat) :
    Honest (inner.expression (.level floor)) :=
  honest.expression floor

instance lowest_honest [honest : HonestNested inner] : Honest (inner.expression .lowest) :=
  honest.expression _

instance block_honest [honest : HonestNested inner] : Honest inner.block :=
  honest.block

instance prefixed_honest [HonestNested inner] : Honest (prefixed inner) := by
  unfold prefixed
  infer_instance

instance group_honest [HonestNested inner] : Honest (group inner) := by
  unfold group
  infer_instance

instance alternative_honest [HonestNested inner] (line : Int) (condition consequence : Node) :
    Honest (alternative inner line condition consequence) :=
  .choice inferInstance (.pure _)

instance conditional_honest [HonestNested inner] : Honest (conditional inner) := by
  have later (line : Int) (condition : Node) : Honest (do
      expect .rightParen
      expect .leftBrace
      let consequence ← inner.block
      alternative inner line condition consequence) := inferInstance
  unfold conditional
  infer_instance

instance parameter_honest : Honest parameter := by
  unfold parameter
  infer_instance

instance moreParameters_honest (turns : List Token) (found : List Name) :
    Honest (moreParameters turns found) := by
  induction turns generalizing found with
  | nil =>
      unfold moreParameters
      infer_instance
  | cons turn turns ih => exact .choice inferInstance inferInstance

instance parameters_honest : Honest parameters where
  reported parser := by
    unfold parameters
    split
    · exact .parsed (List.prefix_refl _)
    · exact Honest.bind.reported parser

instance function_honest [HonestNested inner] : Honest (function inner) := by
  unfold function
  infer_instance

instance binary_honest [HonestNested inner] (left : Node) : Honest (binary inner left) := by
  unfold binary
  infer_instance

instance moreArguments_honest [HonestNested inner] (turns : List Token) (found : List Node) :
    Honest (moreArguments inner turns found) := by
  induction turns generalizing found with
  | nil =>
      unfold moreArguments
      infer_instance
  | cons turn turns ih => exact .choice inferInstance inferInstance

instance arguments_honest [HonestNested inner] : Honest (arguments inner) where
  reported parser := by
    unfold arguments
    split
    · exact .parsed (List.prefix_refl _)
    · exact Honest.bind.reported parser

instance call_honest [HonestNested inner] (callee : Node) : Honest (call inner callee) := by
  unfold call
  infer_instance

instance statement_honest [HonestNested inner] : Honest (statement inner) where
  reported parser := by
    unfold statement
    split
    · exact Honest.bind.reported parser
    · exact Honest.bind.reported parser
    · exact Honest.bind.reported parser

instance blockBody_honest [HonestNested inner] (turns : List Token) (found : List Node) :
    Honest (blockBody inner turns found) := by
  induction turns generalizing found with
  | nil => exact Honest.failHere _
  | cons turn turns ih =>
      refine ⟨fun parser => ?_⟩
      have first := reported (statement inner) parser
      unfold blockBody
      split
      · exact .parsed (List.prefix_refl _)
      split
      · exact (Honest.failHere _).reported parser
      split
      · next node after ended =>
          rw [ended] at first
          have kept : parser.diagnostics <+: after.advance.diagnostics := first.kept
          exact ((ih _).reported after.advance).after kept
      · next after ended =>
          rw [ended] at first
          have kept : parser.diagnostics <+: after.advance.diagnostics := first.kept
          split
          · exact .parsed kept
          · exact ((ih _).reported after.advance).after kept
      · next cause after ended =>
          rw [ended] at first
          exact .brokenOff first.kept

/-- One turn of a clean block: its closing brace, or a statement that is clean. -/
theorem clean_blockBody [HonestNested inner] {turn : Token} {turns : List Token}
    {found result : List Node} {before after : Parser}
    (clean : Clean (blockBody inner (turn :: turns) found) before result after) :
    before.curr.kind = .rightBrace ∧ result = found.reverse ∧ after = before ∨
      before.curr.kind ≠ .eof ∧ ∃ node middle, Clean (statement inner) before node middle ∧
        Clean (blockBody inner turns (node :: found)) middle.advance result after := by
  obtain ⟨ended, same⟩ := clean
  unfold blockBody at ended
  split at ended
  · next closes =>
      cases ended
      exact .inl ⟨closes, rfl, rfl⟩
  split at ended
  · cases ended
  · next noEnd =>
      refine .inr ⟨noEnd, ?_⟩
      split at ended
      · next node middle reached => exact ⟨node, middle, Clean.both reached ended rfl same⟩
      · next middle reached =>
          split at ended
          · have first := reported (statement inner) before
            rw [reached] at first
            cases ended
            exact absurd same (first.failed rfl)
          · exact absurd same (Clean.changed_of_failed reached ended rfl)
      · cases ended

instance programBody_honest [HonestNested inner] (limit : Int) (turns : List Token)
    (found : List Node) : Honest (programBody limit inner turns found) := by
  induction turns generalizing found with
  | nil => exact Honest.pure _
  | cons turn turns ih =>
      refine ⟨fun parser => ?_⟩
      have first := reported (statement inner) parser
      unfold programBody
      split
      · exact .parsed (List.prefix_refl _)
      split
      · next node after ended =>
          rw [ended] at first
          have kept : parser.diagnostics <+: after.advance.diagnostics := first.kept
          exact ((ih _).reported after.advance).after kept
      · next after ended =>
          rw [ended] at first
          have kept : parser.diagnostics <+: after.advance.diagnostics := first.kept
          exact ((ih _).reported after.advance).after kept
      · next after ended =>
          rw [ended] at first
          split
          · exact .parsed (first.kept.trans (List.prefix_append _ _))
          · exact .brokenOff first.kept
      · next cause after _ ended =>
          rw [ended] at first
          exact .brokenOff first.kept

/-- The statements of a program are read or broken off: a statement that failed is left
out, and that the stack runs out is recorded. -/
theorem programBody_ne_failed (limit : Int) (inner : Nested) (turns : List Token)
    (found : List Node) (parser : Parser) :
    (programBody limit inner turns found parser).1 ≠ .failed := by
  induction turns generalizing found parser with
  | nil => exact nofun
  | cons turn turns ih =>
      unfold programBody
      split
      · exact nofun
      split
      · next node after _ => exact ih (node :: found) after.advance
      · next after _ => exact ih found after.advance
      · split
        · exact nofun
        · exact nofun
      · exact nofun

/-- A program is its statements. -/
theorem program_eq (limit : Int) (inner : Nested) (parser : Parser) :
    program limit inner parser =
      ((programBody limit inner parser.tokens [] parser).1.map .program,
        (programBody limit inner parser.tokens [] parser).2) := by
  change andThen _ _ parser = _
  unfold andThen
  split
  · next ended =>
      rw [ended]
      rfl
  · next ended =>
      rw [ended]
      rfl
  · next ended =>
      rw [ended]
      rfl

theorem program_ne_failed (limit : Int) (inner : Nested) (parser : Parser) :
    (program limit inner parser).1 ≠ .failed := by
  have body := programBody_ne_failed limit inner parser.tokens [] parser
  rw [program_eq]
  cases ended : (programBody limit inner parser.tokens [] parser).1 with
  | failed => exact absurd ended body
  | _ => exact nofun

/-- One turn of a clean program: the end of input, or a statement that is clean. -/
theorem clean_programBody [HonestNested inner] {limit : Int} {turn : Token} {turns : List Token}
    {found result : List Node} {before after : Parser}
    (clean : Clean (programBody limit inner (turn :: turns) found) before result after) :
    before.curr.kind = .eof ∧ result = found.reverse ∧ after = before ∨
      before.curr.kind ≠ .eof ∧ ∃ node middle, Clean (statement inner) before node middle ∧
        Clean (programBody limit inner turns (node :: found)) middle.advance result after := by
  obtain ⟨ended, same⟩ := clean
  unfold programBody at ended
  split at ended
  · next closes =>
      cases ended
      exact .inl ⟨closes, rfl, rfl⟩
  · next noEnd =>
      refine .inr ⟨noEnd, ?_⟩
      split at ended
      · next node middle reached => exact ⟨node, middle, Clean.both reached ended rfl same⟩
      · next middle reached => exact absurd same (Clean.changed_of_failed reached ended rfl)
      · next middle reached =>
          have first := reported (statement inner) before
          rw [reached] at first
          split at ended
          · cases ended
            have recorded : middle.diagnostics <+:
                (middle.recordHere (.tooNested limit)).diagnostics := List.prefix_append _ _
            have still := unchanged first.kept recorded same
            have lengths := congrArg List.length (same.trans still.symm)
            simp [Parser.recordHere, Parser.record] at lengths
          · cases ended
      · cases ended

/-- A clean program is made of the statements of a clean body. -/
theorem clean_program [HonestNested inner] {limit : Int} {result : Node} {before after : Parser}
    (clean : Clean (program limit inner) before result after) :
    ∃ statements, result = .program statements ∧
      Clean (programBody limit inner before.tokens []) before statements after := by
  have steps : Clean (do
      let statements ← programBody limit inner before.tokens []
      return .program statements) before result after := clean
  obtain ⟨statements, middle, body, closed⟩ := steps.bind
  obtain ⟨rfl, rfl⟩ := closed.pure
  exact ⟨statements, rfl, body⟩

instance operand_honest [HonestNested inner] (limit : Int) :
    Honest (operand .standard limit inner) where
  reported parser := by
    unfold operand
    split
    · exact (Honest.failHere _).reported parser
    · next rule found =>
        rcases Grammar.operand_standard found with
          ⟨-, rfl⟩ | ⟨-, rfl⟩ | ⟨-, rfl⟩ | ⟨-, rfl⟩ | ⟨-, rfl⟩ | ⟨-, rfl⟩ | ⟨-, rfl⟩
        · exact identifier_honest.reported parser
        · exact integer_honest.reported parser
        · exact boolean_honest.reported parser
        · exact group_honest.reported parser
        · exact prefixed_honest.reported parser
        · exact conditional_honest.reported parser
        · exact function_honest.reported parser

theorem asContinuation_honest (inner : Nested) [HonestNested inner] (left : Node)
    {kind : TokenKind} {rule : Rule} (found : Grammar.standard.continuation kind = some rule) :
    Honest (asContinuation inner left rule) := by
  rcases Grammar.continuation_standard found with ⟨-, rfl⟩ | ⟨-, rfl⟩
  · exact binary_honest left
  · exact call_honest left

instance climb_honest [HonestNested inner] (floor : Nat) (turns : List Token) (left : Node) :
    Honest (climb .standard inner (.level floor) turns left) := by
  induction turns generalizing left with
  | nil => exact Honest.pure left
  | cons turn turns ih =>
      refine ⟨fun parser => ?_⟩
      rcases climb_cases floor turn turns left parser with ⟨-, ended⟩ | ⟨rule, -, found, goes⟩
      · rw [ended]
        exact .parsed (List.prefix_refl _)
      · have honest := asContinuation_honest inner left found
        rw [goes]
        exact Honest.bind.reported parser

instance climbing_honest [HonestNested inner] (floor : Nat) (left : Node) :
    Honest (fun parser => climb .standard inner (.level floor) parser.tokens left parser :
      Parse Node) :=
  .look fun parser => climb_honest floor parser.tokens left

instance blockStatements_honest [HonestNested inner] :
    Honest (fun parser => blockBody inner parser.tokens [] parser : Parse (List Node)) :=
  .look fun parser => blockBody_honest parser.tokens []

end Routine

/-- On every level of stack the routines one level deeper are honest. -/
instance nestedRoutines_honest (limit : Int) (levels : Nat) :
    HonestNested (nestedRoutines .standard limit levels) := by
  induction levels with
  | zero => exact ⟨fun _ => Honest.breakOff _, Honest.breakOff _⟩
  | succ levels ih =>
      refine ⟨fun floor => ?_, ?_⟩
      · refine @Honest.nested _ _ limit (@Honest.bind _ _ _ _ _ fun left => ?_)
        exact Routine.climbing_honest floor left
      · refine @Honest.nested _ _ limit (@Honest.bind _ _ _ _ _ fun token => ?_)
        exact @Honest.bind _ _ _ _ _ fun _ =>
          @Honest.bind _ _ _ _ Routine.blockStatements_honest fun _ => inferInstance

/-- A text is parsed to what the rule for programs makes of its tokens. -/
theorem parse_eq_ok_iff {limit : Int} {levels : Nat} {source : String} {parsed : Parsed} :
    parse limit levels source = .ok parsed ↔
      ∃ after, parseProgram .standard limit levels (.ofSource source) =
        (.parsed parsed.program, after) ∧ after.diagnostics = parsed.diagnostics := by
  unfold parse parseTokens Parser.ofSource
  split
  · next program after ended =>
      rw [ended]
      constructor
      · rintro ⟨⟩
        exact ⟨after, rfl, rfl⟩
      · rintro ⟨_, ⟨⟩, same⟩
        rw [same]
  · next ended => exact absurd (congrArg Prod.fst ended) (Routine.program_ne_failed limit _ _)
  · next ended => simp [ended]

end ExprLang
