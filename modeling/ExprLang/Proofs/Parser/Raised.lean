/-
# ExprLang.Proofs.Parser.Raised — parsing under a higher nesting limit

The nesting limit is looked at in one place, before an expression or a block is
entered. Where it is reached a diagnostic says so, and no diagnostic is ever taken
back. Two parsers that differ in their limits therefore go the same way until the
lower limit speaks up, also through statements that fail for other reasons: the
depth that the limit is compared with is counted back however a step ends.

That the limit has spoken cannot be told from how a step ends, since a block drops
the statement and goes on. So `Spares` looks at the diagnostics: the first step has
recorded that its limit was reached, or the second does the same. The stack is no
exception: where it runs out, the program records that the limit was reached. A limit
that cannot be written breaks off where another one is recorded.
-/
import ExprLang.Proofs.Parser.Congruence

namespace ExprLang

set_option autoImplicit false

/-- The parser has recorded that this nesting limit was reached. -/
def Parser.Hit (limit : Int) (parser : Parser) : Prop :=
  ∃ diagnostic ∈ parser.diagnostics, diagnostic.problem = .tooNested limit

/-- What was hit stays so. -/
theorem Parser.Hit.kept {limit : Int} {before after : Parser} (hit : before.Hit limit)
    (kept : before.diagnostics <+: after.diagnostics) : after.Hit limit := by
  obtain ⟨diagnostic, member, same⟩ := hit
  exact ⟨diagnostic, kept.subset member, same⟩

theorem Parser.hit_record (limit line : Int) (parser : Parser) :
    (parser.record (.tooNested limit) line).Hit limit :=
  ⟨⟨.tooNested limit, line⟩, by simp [record], rfl⟩

/-- The limit is why the step ended as it did, or was left out of what it read: it is
recorded, or it broke the step off because it cannot be. -/
def Rejected {α : Type} (limit : Int) (ended : Outcome α × Parser) : Prop :=
  ended.2.Hit limit ∨ ended.1 = .fault .tooLong ∧ ¬ Decimal.Writable limit

/-- How a step may end that started with some diagnostics, beside how it ends under
the higher limit: it takes no diagnostic back, and the limit is why or it ends the
same way. -/
structure Spared {α : Type} (limit : Int) (recorded : List Diagnostic)
    (ended raised : Outcome α × Parser) : Prop where
  kept : recorded <+: ended.2.diagnostics
  agrees : Rejected limit ended ∨ raised = ended

namespace Spared

variable {α β : Type} {limit : Int} {recorded : List Diagnostic}

theorem refl {ended : Outcome α × Parser} (kept : recorded <+: ended.2.diagnostics) :
    Spared limit recorded ended ended :=
  ⟨kept, .inr rfl⟩

/-- What comes after a step is spared if it is when both parsers go on from where the
first of them stands. -/
theorem follow {ended raised : Outcome α × Parser} {final onward other : Outcome β × Parser}
    (spared : Spared limit recorded ended raised)
    (later : Spared limit ended.2.diagnostics final onward)
    (passes : ended.1 = .fault .tooLong → final.1 = .fault .tooLong)
    (same : raised = ended → other = onward) : Spared limit recorded final other where
  kept := spared.kept.trans later.kept
  agrees := by
    rcases spared.agrees with (hit | ⟨broken, long⟩) | agree
    · exact .inl (.inl (hit.kept later.kept))
    · exact .inl (.inr ⟨passes broken, long⟩)
    · rw [same agree]
      exact later.agrees

/-- A step that passes the fault of another one on. -/
theorem brokenOff {cause : ParseFault} {after : Parser} {raised : Outcome α × Parser}
    {other : Outcome β × Parser} (spared : Spared limit recorded (.fault cause, after) raised)
    (same : raised = (.fault cause, after) → other = (.fault cause, after)) :
    Spared limit recorded (.fault cause, after) other :=
  spared.follow (.refl (List.prefix_refl _)) (fun broken => by cases broken; rfl) same

end Spared

namespace Parse

variable {α β : Type} {limit raised : Int}

/-- From every parser the second step spares what the first one does. -/
def Spares (limit : Int) {α : Type} (step step' : Parse α) : Prop :=
  ∀ parser, Spared limit parser.diagnostics (step parser) (step' parser)

namespace Spares

variable {step step' : Parse α}

theorem refl (kept : ∀ parser, parser.diagnostics <+: (step parser).2.diagnostics) :
    Spares limit step step :=
  fun parser => .refl (kept parser)

theorem failHere (problem : Problem) :
    Spares limit (Parse.failHere problem : Parse α) (Parse.failHere problem) :=
  .refl fun _ => List.prefix_append _ _

theorem expect (kind : TokenKind) : Spares limit (Parse.expect kind) (Parse.expect kind) := by
  refine .refl fun parser => ?_
  unfold Parse.expect
  split
  · exact List.prefix_refl _
  · exact List.prefix_append _ _

theorem bind {next next' : α → Parse β} (first : Spares limit step step')
    (second : ∀ result, Spares limit (next result) (next' result)) :
    Spares limit (step >>= next) (step' >>= next') := by
  intro parser
  have spared := first parser
  change Spared limit _ (andThen step next parser) (andThen step' next' parser)
  unfold andThen
  generalize step parser = ended at spared ⊢
  obtain ⟨outcome, after⟩ := ended
  cases outcome with
  | parsed result => exact spared.follow (second result after) (by simp) fun same => by rw [same]
  | failed => exact spared.follow (.refl (List.prefix_refl _)) (by simp) fun same => by rw [same]
  | fault cause => exact spared.brokenOff fun same => by rw [same]

/-- What the lower limit lets in, the higher one does. -/
theorem nested (higher : limit ≤ raised) (inside : Spares limit step step') :
    Spares limit (Parse.nested limit step) (Parse.nested raised step') := by
  intro parser
  unfold Parse.nested
  by_cases full : limit ≤ parser.depth
  · have closed : parser.atLimit limit = true := decide_eq_true full
    rw [if_pos closed, Parse.overLimit]
    by_cases named : Decimal.Writable limit
    · rw [if_pos named]
      exact ⟨List.prefix_append _ _, .inl (.inl (parser.hit_record limit _))⟩
    · rw [if_neg named]
      exact ⟨List.prefix_refl _, .inl (.inr ⟨rfl, named⟩)⟩
  · have room : ¬ raised ≤ parser.depth := fun reached => full (Int.le_trans higher reached)
    have enters : ¬ parser.atLimit limit = true := fun reached => full (of_decide_eq_true reached)
    have enters' : ¬ parser.atLimit raised = true := fun reached => room (of_decide_eq_true reached)
    rw [if_neg enters, if_neg enters']
    obtain ⟨kept, agrees⟩ := inside { parser with depth := parser.depth + 1 }
    refine ⟨kept, agrees.imp_right fun same => ?_⟩
    dsimp only
    rw [same]

theorem terminated (inside : Spares limit step step') :
    Spares limit (Parse.terminated step) (Parse.terminated step') := by
  intro parser
  have spared := inside parser
  unfold Parse.terminated
  generalize step parser = ended at spared ⊢
  obtain ⟨outcome, after⟩ := ended
  have taken : after.diagnostics <+:
      (if after.peek.kind = .semicolon then after.advance else after).diagnostics := by
    split <;> exact List.prefix_refl _
  cases outcome with
  | parsed result => exact spared.follow (.refl taken) (by simp) fun same => by rw [same]
  | failed => exact spared.follow (.refl taken) (by simp) fun same => by rw [same]
  | fault cause => exact spared.brokenOff fun same => by rw [same]

end Spares

/-- A higher limit spares what every way of putting steps together does. -/
theorem spares_congruence (higher : limit ≤ raised) :
    Congruence limit raised (@Spares limit) where
  pure _ := .refl fun _ => List.prefix_refl _
  current := .refl fun _ => List.prefix_refl _
  advance := .refl fun _ => List.prefix_refl _
  expect := .expect
  failHere _ := .failHere _
  bind := .bind
  nested := .nested higher
  terminated := .terminated
  anywhere each parser := by
    obtain ⟨other, other', spares, same, same'⟩ := each parser.window
    have spared := spares parser
    rwa [← same parser.depth parser.diagnostics, ← same' parser.depth parser.diagnostics] at spared

end Parse

/-! ## Blocks and programs -/

namespace Routine

open Parse

variable {limit raised : Int} (higher : limit ≤ raised) {inner inner' : Nested}
  (related : Related (@Spares limit) inner inner')

include higher related

theorem statement_spares : Spares limit (statement inner) (statement inner') :=
  (spares_congruence higher).statement related

/-- A statement that was dropped for its depth is not taken up again, and the block
goes on with a diagnostic that says so. -/
theorem blockBody_spares (turns : List Token) (found : List Node) :
    Spares limit (blockBody inner turns found) (blockBody inner' turns found) := by
  induction turns generalizing found with
  | nil => exact .failHere _
  | cons turn turns ih =>
      intro parser
      have spared := statement_spares higher related parser
      rw [blockBody, blockBody]
      dsimp only
      split
      · exact .refl (List.prefix_refl _)
      split
      · exact Spares.failHere _ parser
      generalize statement inner parser = ended at spared ⊢
      obtain ⟨outcome, after⟩ := ended
      cases outcome with
      | parsed node =>
          exact spared.follow (ih (node :: found) after.advance) (by simp) fun same => by rw [same]
      | failed =>
          dsimp only
          split
          · next closes =>
              refine spared.follow (.refl (List.prefix_refl _)) (by simp) fun same => ?_
              rw [same]
              exact if_pos closes
          · next goesOn =>
              refine spared.follow (ih found after.advance) (by simp) fun same => ?_
              rw [same]
              exact if_neg goesOn
      | fault cause => exact spared.brokenOff fun same => by rw [same]

/-- Where the stack runs out, the program records that its limit was reached, or breaks
off because it cannot. -/
theorem programBody_spares (turns : List Token) (found : List Node) :
    Spares limit (programBody limit inner turns found) (programBody raised inner' turns found) := by
  induction turns generalizing found with
  | nil => exact .refl fun _ => List.prefix_refl _
  | cons turn turns ih =>
      intro parser
      have spared := statement_spares higher related parser
      rw [programBody, programBody]
      dsimp only
      split
      · exact .refl (List.prefix_refl _)
      generalize statement inner parser = ended at spared ⊢
      obtain ⟨outcome, after⟩ := ended
      cases outcome with
      | parsed node =>
          exact spared.follow (ih (node :: found) after.advance) (by simp) fun same => by rw [same]
      | failed => exact spared.follow (ih found after.advance) (by simp) fun same => by rw [same]
      | fault cause =>
          cases cause with
          | stackExhausted =>
              dsimp only
              split
              · exact ⟨spared.kept.trans (List.prefix_append _ _),
                  .inl (.inl (after.hit_record limit _))⟩
              · next long => exact ⟨spared.kept, .inl (.inr ⟨rfl, long⟩)⟩
          | _ => exact spared.brokenOff fun same => by rw [same]

theorem block_spares : Spares limit (block limit inner) (block raised inner') := by
  have congruence := spares_congruence higher
  exact congruence.nested (congruence.bind congruence.current fun _ =>
    congruence.bind congruence.advance fun _ => congruence.bind
      (congruence.look fun turns => blockBody_spares higher related turns [])
      fun _ => congruence.pure _)

theorem program_spares : Spares limit (program limit inner) (program raised inner') := by
  have congruence := spares_congruence higher
  have each (turns : List Token) : Spares limit (do
      let statements ← programBody limit inner turns []
      return Node.program statements) (do
      let statements ← programBody raised inner' turns []
      return Node.program statements) :=
    congruence.bind (programBody_spares higher related turns []) fun _ => congruence.pure _
  exact congruence.look each

end Routine

/-- On every level of stack a higher limit spares what the routines do. -/
theorem nestedRoutines_spares {limit raised : Int} (higher : limit ≤ raised) (levels : Nat) :
    Parse.Related (@Parse.Spares limit) (nestedRoutines .standard limit levels)
      (nestedRoutines .standard raised levels) := by
  induction levels with
  | zero => exact ⟨fun _ => .refl fun _ => List.prefix_refl _, .refl fun _ => List.prefix_refl _⟩
  | succ levels ih =>
      exact ⟨(Parse.spares_congruence higher).expression ih, Routine.block_spares higher ih⟩

/-- **A raised nesting limit changes only what the limit rejected.** If the tokens,
well-formed or not, are parsed to a program and no diagnostic says that the limit was
exceeded, then under a higher one they are parsed to the same program with the same
diagnostics, and the parser is left in the same place. There is a program under every
limit that can be written; one that cannot may break off instead of being reported. -/
theorem parseProgram_eq_of_raised {limit raised : Int} (higher : limit ≤ raised) (levels : Nat)
    (tokens : List Token) :
    (∀ program after,
      parseProgram .standard limit levels (.ofTokens tokens) = (.parsed program, after) →
      (Problem.tooNested limit).message ∉ after.errors →
      parseProgram .standard raised levels (.ofTokens tokens) = (.parsed program, after)) ∧
    (Decimal.Writable limit → ∃ program after,
      parseProgram .standard limit levels (.ofTokens tokens) = (.parsed program, after)) := by
  constructor
  · intro program after ended spared
    have spares := Routine.program_spares higher (nestedRoutines_spares higher levels)
    have agrees := (spares (.ofTokens tokens)).agrees
    change Rejected limit (parseProgram .standard limit levels _) ∨
      parseProgram .standard raised levels _ = parseProgram .standard limit levels _ at agrees
    rw [ended] at agrees
    rcases agrees with (⟨diagnostic, member, hit⟩ | ⟨broken, -⟩) | same
    · refine absurd (List.mem_map.2 ⟨diagnostic, member, ?_⟩) spared
      rw [Diagnostic.message, hit]
    · cases broken
    · exact same
  · intro named
    obtain ⟨statements, after, ended⟩ := parseProgram_parsed named levels (.ofTokens tokens)
    exact ⟨_, after, ended⟩

/-- A block that drops a binding, and a call that lacks an operand, three levels deep. -/
theorem parseProgram_eq_of_raised_malformed :
    let tokens : List Token := [⟨.functionKeyword, "fn", 1⟩, ⟨.leftParen, "(", 1⟩,
      ⟨.rightParen, ")", 1⟩, ⟨.leftBrace, "\x7b", 1⟩, ⟨.letKeyword, "let", 1⟩,
      ⟨.rightBrace, "\x7d", 1⟩, ⟨.leftParen, "(", 2⟩, ⟨.int, "1", 2⟩, ⟨.plus, "+", 2⟩,
      ⟨.semicolon, ";", 2⟩, ⟨.int, "2", 2⟩, ⟨.eof, "", 2⟩]
    ∃ program after, parseProgram .standard 3 500 (.ofTokens tokens) = (.parsed program, after) ∧
      after.diagnostics = [⟨.unexpected .identifier .rightBrace, 1⟩, ⟨.noOperand .semicolon, 2⟩] ∧
      parseProgram .standard 100 500 (.ofTokens tokens) = (.parsed program, after) := by
  intro tokens
  have higher : (3 : Int) ≤ 100 := by decide
  obtain ⟨same, read⟩ := parseProgram_eq_of_raised higher 500 tokens
  obtain ⟨program, after, ended⟩ := read (by decide +kernel)
  have recorded : (parseProgram .standard 3 500 (.ofTokens tokens)).2.diagnostics =
      [⟨.unexpected .identifier .rightBrace, 1⟩, ⟨.noOperand .semicolon, 2⟩] := by
    decide +kernel
  rw [ended] at recorded
  refine ⟨program, after, ended, recorded, same program after ended ?_⟩
  rw [Parser.errors, recorded]
  decide +kernel

end ExprLang
