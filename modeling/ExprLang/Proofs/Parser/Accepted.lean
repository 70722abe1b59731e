/-
# ExprLang.Proofs.Parser.Accepted — the parser accepts its grammar

The three parts together: what has a derivation is read (`Complete`), what is
read without a diagnostic has one (`Sound`), and it has no other
(`Unambiguous`). The nesting of a derivation is held against the limit and
against the stack alike, so a stack with as many levels as the limit allows is
never what decides (`parseProgram_clean_iff`).

A limit is an integer, and one below zero allows no more and no less than zero
does: an expression cannot be entered, so that the only text without a diagnostic
is one without a statement. With that case told apart, acceptance is one
condition on the derivation for all limits (`parseProgram_accepts`): the nesting
is at most the limit, read as a natural number, and at most the stack.
-/
import ExprLang.Proofs.Parser.Complete
import ExprLang.Proofs.Parser.Orderly
import ExprLang.Proofs.Parser.Sound
import ExprLang.Proofs.Parser.Unambiguous

namespace ExprLang

set_option autoImplicit false

theorem room_iff {limit levels nesting : Nat} :
    Room limit levels 0 nesting ↔ nesting ≤ limit ∧ nesting ≤ levels := by
  constructor
  · rintro ⟨stack, within⟩
    exact ⟨by omega, stack⟩
  · rintro ⟨within, stack⟩
    exact ⟨stack, by omega⟩

/-- The tokens of a text are parsed without a diagnostic exactly when they have a
derivation that is nested no deeper than the limit and the stack allow. They have
at most one, and the program is its tree. Under a limit that can be written there is
always a program, and then the diagnostics alone tell. -/
theorem parseProgram_clean_iff (source : String) (limit levels : Nat) :
    ((∃ program after, Parse.Clean (parseProgram .standard limit levels)
        (.ofTokens (tokenize source)) program after) ↔
      ∃ tree, Derives (.statements .eof) tree (tokenize source) [] ∧
        tree.nesting ≤ limit ∧ tree.nesting ≤ levels) ∧
    (Decimal.Writable limit →
      ((parseProgram .standard limit levels (.ofTokens (tokenize source))).2.diagnostics = [] ↔
        ∃ tree, Derives (.statements .eof) tree (tokenize source) [] ∧
          tree.nesting ≤ limit ∧ tree.nesting ≤ levels)) ∧
    (∀ tree other, Derives (.statements .eof) tree (tokenize source) [] →
      Derives (.statements .eof) other (tokenize source) [] → tree = other) ∧
    (∀ tree, Derives (.statements .eof) tree (tokenize source) [] → tree.nesting ≤ limit →
      tree.nesting ≤ levels →
      ∃ after, Parse.Clean (parseProgram .standard limit levels) (.ofTokens (tokenize source))
        (.program tree.nodes) after) := by
  have accepts : (∃ program after, Parse.Clean (parseProgram .standard limit levels)
      (.ofTokens (tokenize source)) program after) ↔
        ∃ tree, Derives (.statements .eof) tree (tokenize source) [] ∧
          tree.nesting ≤ limit ∧ tree.nesting ≤ levels := by
    constructor
    · rintro ⟨program, after, clean⟩
      obtain ⟨tree, derives, room, -⟩ := parseProgram_sound (lexed_tokenize source)
        (Int.natCast_nonneg limit) clean
      exact ⟨tree, derives, room_iff.1 room⟩
    · rintro ⟨tree, derives, room⟩
      obtain ⟨after, clean⟩ := derives.parseProgram_eq (room_iff.2 room)
      exact ⟨_, after, clean⟩
  refine ⟨accepts, fun named => (parseProgram_quiet_iff named levels _).trans accepts, ?_, ?_⟩
  · intro tree other derives derives'
    exact (derives.unique derives').1
  · intro tree derives within stack
    exact derives.parseProgram_eq (room_iff.2 ⟨within, stack⟩)

/-! ## Limits below zero -/

namespace Derivation

/-- A derivation that is nested no deeper than a limit and a stack allow. -/
structure Fits (tree : Derivation) (limit : Int) (levels : Nat) : Prop where
  limit : tree.nesting ≤ limit.toNat
  stack : tree.nesting ≤ levels

variable {tree : Derivation} {limit : Int} {levels : Nat}

theorem fits_iff_room (within : 0 ≤ limit) :
    tree.Fits limit levels ↔ Room limit levels 0 tree.nesting := by
  constructor
  · rintro ⟨shallow, stack⟩
    exact ⟨stack, by omega⟩
  · rintro ⟨stack, shallow⟩
    exact ⟨by omega, stack⟩

end Derivation

/-- What is not nested has no statement. -/
theorem Derives.closed_of_nesting {closer : TokenKind} {tree : Derivation}
    {input rest : List Token} (derives : Derives (.statements closer) tree input rest)
    (flat : tree.nesting = 0) :
    ∃ closing, tree = .closed closing ∧ input = closing :: rest ∧ closing.kind = closer := by
  cases derives with
  | closed closes => exact ⟨_, rfl, rfl, closes⟩
  | followed here later =>
      cases here <;> simp [Derivation.nesting] at flat

namespace Routine

open Parse

/-- A statement without a diagnostic has an expression in it, and there is room to
enter that. -/
theorem clean_statement_room {limit : Int} {levels : Nat} {before after : Parser} {node : Node}
    (clean : Clean (statement (nestedRoutines .standard limit levels)) before node after) :
    0 < limit := by
  have entered {parser left : Parser} {value : Node}
      (clean : Clean (terminated ((nestedRoutines .standard limit levels).expression .lowest))
        parser value left) : 0 < limit := by
    obtain ⟨middle, inner, -⟩ := clean.terminated
    cases levels with
    | zero =>
        obtain ⟨ended, -⟩ := inner
        cases ended
    | succ levels =>
        obtain ⟨room, -⟩ := Clean.nested inner
        omega
  by_cases isLet : before.curr.kind = .letKeyword
  · have run : Clean (letStatement (nestedRoutines .standard limit levels)) before node after := by
      rwa [Clean, ← statement_of_let isLet]
    obtain ⟨_, _, -, run⟩ := run.bind
    obtain ⟨_, _, -, run⟩ := run.bind
    obtain ⟨_, _, -, run⟩ := run.bind
    obtain ⟨_, _, -, run⟩ := run.bind
    obtain ⟨_, _, -, run⟩ := run.bind
    obtain ⟨_, _, value, -⟩ := run.bind
    exact entered value
  by_cases isReturn : before.curr.kind = .returnKeyword
  · have run : Clean (returnStatement (nestedRoutines .standard limit levels)) before node
        after := by
      rwa [Clean, ← statement_of_return isReturn]
    obtain ⟨_, _, -, run⟩ := run.bind
    obtain ⟨_, _, -, run⟩ := run.bind
    obtain ⟨_, _, value, -⟩ := run.bind
    exact entered value
  · have run : Clean (expressionStatement (nestedRoutines .standard limit levels)) before node
        after := by
      rwa [Clean, ← statement_of_other isLet isReturn]
    obtain ⟨_, _, -, run⟩ := run.bind
    obtain ⟨_, _, value, -⟩ := run.bind
    exact entered value

end Routine

/-- A program that is read without a diagnostic is the tree of a derivation that fits. -/
theorem parseProgram_derives {limit : Int} {levels : Nat} {tokens : List Token}
    (lexed : Lexed tokens) {program : Node} {after : Parser}
    (clean : Parse.Clean (parseProgram .standard limit levels) (.ofTokens tokens) program after) :
    ∃ tree, Derives (.statements .eof) tree tokens [] ∧ tree.Fits limit levels ∧
      program = .program tree.nodes := by
  by_cases within : 0 ≤ limit
  · obtain ⟨tree, derives, room, parsed⟩ := parseProgram_sound lexed within clean
    exact ⟨tree, derives, (Derivation.fits_iff_room within).2 room, parsed⟩
  -- No statement can be read, so the first token is the end of the input.
  obtain ⟨token, tail, rfl⟩ := List.exists_cons_of_ne_nil lexed.ne_nil
  obtain ⟨nodes, rfl, body⟩ := Routine.clean_program clean
  rcases Routine.clean_programBody body with ⟨closes, rfl, -⟩ | ⟨-, node, middle, here, -⟩
  · cases lexed with
    | eof kind => exact ⟨.closed token, .closed kind, ⟨Nat.zero_le _, Nat.zero_le _⟩, rfl⟩
    | more other => exact absurd closes other
  · exact absurd (Int.le_of_lt (Routine.clean_statement_room here)) within

/-- A program with a derivation that fits is parsed to its tree. -/
theorem Derives.parseProgram_of_fits {limit : Int} {levels : Nat} {tree : Derivation}
    {tokens : List Token} (derives : Derives (.statements .eof) tree tokens [])
    (fits : tree.Fits limit levels) :
    ∃ after, Parse.Clean (parseProgram .standard limit levels) (.ofTokens tokens)
      (.program tree.nodes) after := by
  by_cases within : 0 ≤ limit
  · exact derives.parseProgram_eq ((Derivation.fits_iff_room within).1 fits)
  have flat : tree.nesting = 0 := by
    have := fits.limit
    omega
  obtain ⟨closing, rfl, rfl, closes⟩ := derives.closed_of_nesting flat
  have ended : Routine.programBody limit (nestedRoutines .standard limit levels) [closing] []
      (.over [closing] 0 []) = (.parsed [], .over [closing] 0 []) := by
    unfold Routine.programBody
    exact if_pos closes
  exact ⟨_, Parse.bind_of_parsed ended _, rfl⟩

/-- **Acceptance.** The tokens are parsed to a program without a diagnostic exactly
when it is the tree of a derivation that fits the limit and the stack. -/
theorem parseProgram_accepts {tokens : List Token} (lexed : Lexed tokens) (limit : Int)
    (levels : Nat) :
    (∃ program after,
        Parse.Clean (parseProgram .standard limit levels) (.ofTokens tokens) program after) ↔
      ∃ tree, Derives (.statements .eof) tree tokens [] ∧ tree.Fits limit levels := by
  constructor
  · rintro ⟨program, after, clean⟩
    obtain ⟨tree, derives, fits, -⟩ := parseProgram_derives lexed clean
    exact ⟨tree, derives, fits⟩
  · rintro ⟨tree, derives, fits⟩
    obtain ⟨after, clean⟩ := derives.parseProgram_of_fits fits
    exact ⟨_, after, clean⟩

/-! ## Texts -/

section Texts

variable {limit : Int} {levels : Nat} {source : String}

/-- A text is parsed without a diagnostic exactly when its tokens are. -/
theorem parse_eq_iff {program : Node} :
    parse limit levels source = .ok ⟨program, []⟩ ↔
      ∃ after, Parse.Clean (parseProgram .standard limit levels) (.ofTokens (tokenize source))
        program after :=
  parse_eq_ok_iff

theorem Derives.parse_eq {tree : Derivation}
    (derives : Derives (.statements .eof) tree (tokenize source) [])
    (fits : tree.Fits limit levels) :
    parse limit levels source = .ok ⟨.program tree.nodes, []⟩ :=
  parse_eq_iff.2 (derives.parseProgram_of_fits fits)

/-- A text without a diagnostic has a derivation that fits, and the program is its
tree. -/
theorem parse_derives {program : Node} (clean : parse limit levels source = .ok ⟨program, []⟩) :
    ∃ tree, Derives (.statements .eof) tree (tokenize source) [] ∧ tree.Fits limit levels ∧
      program = .program tree.nodes := by
  obtain ⟨after, clean⟩ := parse_eq_iff.1 clean
  exact parseProgram_derives (lexed_tokenize source) clean

end Texts

end ExprLang
