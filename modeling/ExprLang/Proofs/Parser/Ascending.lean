/-
# ExprLang.Proofs.Parser.Ascending — diagnostics in the order of the text

Some diagnostics are on the line of the current token and some on that of the next
one. After one of the second kind a report on the current token could go back a line.
It never does, because a step that may report on the current token is entered only
after the parser has moved on.

So there are two kinds of step (`Parse.Dated`). One reports from the current token on:
it may stand at the start of an expression, a block or a statement. The other reports
from the next token on, and may come after anything. Either way, when the step has
ended, what it has recorded ascends to the line of the next token, and a step of the
second kind can follow (`Dated.bind`). Only a step that breaks off has not looked at
the next token yet, and what it has recorded ascends to the current one. That is where
the program reports that the stack ran out.
-/
import ExprLang.Proofs.Parser.Resume
import ExprLang.Proofs.Token.Lexed

namespace ExprLang

set_option autoImplicit false

/-! ## Lines that ascend -/

/-- The lines of the diagnostics do not descend, from one line up to another. -/
def Ascends : Int → Int → List Diagnostic → Prop
  | low, high, [] => low ≤ high
  | low, high, diagnostic :: later => low ≤ diagnostic.line ∧ Ascends diagnostic.line high later

namespace Ascends

variable {low middle high : Int} {found later : List Diagnostic}

theorem append (first : Ascends low middle found) (second : Ascends middle high later) :
    Ascends low high (found ++ later) := by
  induction found generalizing low with
  | nil =>
      cases later with
      | nil => exact Int.le_trans first second
      | cons diagnostic later => exact ⟨Int.le_trans first second.1, second.2⟩
  | cons diagnostic found ih => exact ⟨first.1, ih first.2⟩

theorem lower {lower : Int} (below : lower ≤ low) (ascends : Ascends low high found) :
    Ascends lower high found := by
  have start : Ascends lower low [] := below
  exact start.append ascends

theorem raise {higher : Int} (above : high ≤ higher) (ascends : Ascends low high found) :
    Ascends low higher found := by
  have extended : Ascends low higher (found ++ []) := ascends.append above
  rwa [List.append_nil] at extended

theorem le (ascends : Ascends low high found) : low ≤ high := by
  induction found generalizing low with
  | nil => exact ascends
  | cons diagnostic found ih => exact Int.le_trans ascends.1 (ih ascends.2)

theorem bounds (ascends : Ascends low high found) :
    ∀ diagnostic ∈ found, low ≤ diagnostic.line ∧ diagnostic.line ≤ high := by
  induction found generalizing low with
  | nil => exact List.forall_mem_nil _
  | cons diagnostic found ih =>
      refine List.forall_mem_cons.2 ⟨⟨ascends.1, ascends.2.le⟩, fun other member => ?_⟩
      obtain ⟨above, below⟩ := ih ascends.2 other member
      exact ⟨Int.le_trans ascends.1 above, below⟩

theorem pairwise (ascends : Ascends low high found) :
    found.Pairwise fun first second => first.line ≤ second.line := by
  induction found generalizing low with
  | nil => exact .nil
  | cons diagnostic found ih =>
      exact .cons (fun other member => (ascends.2.bounds other member).1) (ih ascends.2)

end Ascends

namespace Window

variable {window left : Window}

/-- The lines of the tokens do not descend. -/
def Ordered (window : Window) : Prop :=
  window.tokens.Pairwise fun first second => first.line ≤ second.line

theorem Ordered.of_suffix (ordered : window.Ordered) (onward : left.tokens <:+ window.tokens) :
    left.Ordered :=
  List.Pairwise.sublist onward.sublist ordered

theorem Ordered.curr_le_peek (ordered : window.Ordered) : window.curr.line ≤ window.peek.line := by
  obtain ⟨curr, ahead⟩ := window
  cases ahead with
  | nil => exact Int.le_refl _
  | cons next rest => exact (List.pairwise_cons.1 ordered).1 next List.mem_cons_self

theorem Ordered.advance (ordered : window.Ordered) : window.advance.Ordered :=
  ordered.of_suffix window.tokens_advance

/-- The next token is still the next one, or already behind. -/
theorem Ordered.peek_le_advance (ordered : window.Ordered) :
    window.peek.line ≤ window.advance.peek.line := by
  rw [← window.advance_curr]
  exact ordered.advance.curr_le_peek

end Window

/-- The token up to which a step that has ended there has looked: the next one, or the
current one where it broke off. -/
def Outcome.stop {α : Type} : Outcome α → Window → Token
  | .parsed _, window => window.peek
  | .failed, window => window.peek
  | .fault _, window => window.curr

theorem Outcome.stop_mem {α : Type} (outcome : Outcome α) (window : Window) :
    outcome.stop window ∈ window.tokens := by
  obtain ⟨curr, ahead⟩ := window
  cases outcome <;> cases ahead <;> simp [stop, Window.peek, Window.tokens]

/-- A parser that moves on stands where it has looked, or behind that. -/
theorem Window.Ordered.stop_le_advance {α : Type} {window : Window} (ordered : window.Ordered)
    (outcome : Outcome α) : (outcome.stop window).line ≤ window.advance.curr.line := by
  rw [window.advance_curr]
  cases outcome with
  | fault cause => exact ordered.curr_le_peek
  | _ => exact Int.le_refl _

/-! ## Steps -/

namespace Parse

variable {α β : Type} {start start' : Window → Token} {step other : Parse α}
  {window middle : Window} {depth : Nat} {found : List Diagnostic}

/-- From a window and a depth the step moves forward, and what it records ascends from
a token of the window to where the step has looked. -/
def DatedAt (start : Window → Token) (step : Parse α) (window : Window) (depth : Nat) : Prop :=
  ∃ outcome left found, Run step window depth outcome left found ∧
    left.tokens <:+ window.tokens ∧ Ascends (start window).line (outcome.stop left).line found

/-- It does so from every window whose lines do not descend. The token to start from is
the current or the next one. -/
def Dated (start : Window → Token) (step : Parse α) : Prop :=
  ∀ window depth, window.Ordered → DatedAt start step window depth

/-- A step that goes on like another one, once what it has recorded ascends to where
that one starts. -/
theorem DatedAt.after (later : DatedAt start' other middle depth)
    (onward : middle.tokens <:+ window.tokens)
    (before : Ascends (start window).line (start' middle).line found)
    (goes : ∀ diagnostics, step ⟨window, depth, diagnostics⟩ =
      other ⟨middle, depth, diagnostics ++ found⟩) : DatedAt start step window depth := by
  obtain ⟨outcome, left, found', ran, onward', ascends⟩ := later
  refine ⟨outcome, left, found ++ found', fun diagnostics => ?_, onward'.trans onward,
    before.append ascends⟩
  rw [goes, ran, List.append_assoc]

theorem DatedAt.of_eq (dated : DatedAt start other window depth)
    (same : ∀ diagnostics, step ⟨window, depth, diagnostics⟩ = other ⟨window, depth, diagnostics⟩) :
    DatedAt start step window depth :=
  dated.after (List.suffix_refl _) (Int.le_refl _) fun diagnostics => by
    rw [same, List.append_nil]

namespace Dated

/-- A step that reports from the next token on may stand where the current one may be
reported. -/
theorem weaken (dated : Dated Window.peek step) : Dated Window.curr step := by
  intro window depth ordered
  obtain ⟨outcome, left, found, ran, onward, ascends⟩ := dated window depth ordered
  exact ⟨outcome, left, found, ran, onward, ascends.lower ordered.curr_le_peek⟩

theorem pure (result : α) : Dated Window.peek (pure result : Parse α) :=
  fun window _ _ => ⟨_, window, [], .pure result, List.suffix_refl _, Int.le_refl _⟩

theorem failHere (problem : Problem) : Dated Window.curr (Parse.failHere problem : Parse α) :=
  fun window _ ordered =>
    ⟨_, window, _, .failHere problem, List.suffix_refl _, Int.le_refl _, ordered.curr_le_peek⟩

theorem bind {next : α → Parse β} (first : Dated start step)
    (second : ∀ result, Dated Window.peek (next result)) : Dated start (step >>= next) := by
  intro window depth ordered
  obtain ⟨outcome, middle, found, ran, onward, ascends⟩ := first window depth ordered
  cases outcome with
  | parsed result =>
      exact (second result middle depth (ordered.of_suffix onward)).after onward ascends
        fun diagnostics => bind_of_parsed (ran diagnostics) next
  | failed => exact ⟨_, middle, found, ran.bind_failed, onward, ascends⟩
  | fault cause => exact ⟨_, middle, found, ran.bind_fault, onward, ascends⟩

theorem current {next : Token → Parse β} (second : ∀ token, Dated start (next token)) :
    Dated start (Parse.current >>= next) :=
  fun window depth ordered => (second window.curr window depth ordered).of_eq fun _ => rfl

/-- Whatever has been reported before, a step that moves on may report on the token that
it then stands on. -/
theorem advance {next : Unit → Parse β} (second : Dated Window.curr (next ())) :
    Dated Window.peek (Parse.advance >>= next) := by
  intro window depth ordered
  have moved : Ascends window.peek.line window.advance.curr.line [] := by
    rw [window.advance_curr]
    exact Int.le_refl _
  exact (second window.advance depth ordered.advance).after window.tokens_advance moved
    fun diagnostics => by rw [List.append_nil]; rfl

theorem expect {kind : TokenKind} {next : Unit → Parse β} (second : Dated Window.curr (next ())) :
    Dated Window.peek (Parse.expect kind >>= next) := by
  intro window depth ordered
  by_cases wanted : window.peek.kind = kind
  · refine (advance second window depth ordered).of_eq fun diagnostics => ?_
    rw [bind_of_parsed (Run.expect wanted diagnostics), List.append_nil]
    rfl
  · exact ⟨_, window, _, (Run.refused wanted).bind_failed, List.suffix_refl _, Int.le_refl _,
      Int.le_refl _⟩

theorem nested (limit : Int) (inside : Dated Window.curr step) :
    Dated Window.curr (Parse.nested limit step) := by
  intro window depth ordered
  by_cases room : (depth : Int) < limit
  · obtain ⟨outcome, left, found, ran, onward, ascends⟩ := inside window (depth + 1) ordered
    exact ⟨outcome, left, found, .nested room ran, onward, ascends⟩
  · by_cases named : Decimal.Writable limit
    · exact ⟨_, window, _, .nested_full (Int.not_lt.1 room) named, List.suffix_refl _,
        Int.le_refl _, ordered.curr_le_peek⟩
    · exact ⟨_, window, [], .nested_unnamed (Int.not_lt.1 room) named, List.suffix_refl _,
        Int.le_refl _⟩

theorem terminated (inside : Dated start step) : Dated start (Parse.terminated step) := by
  intro window depth ordered
  obtain ⟨outcome, left, found, ran, onward, ascends⟩ := inside window depth ordered
  rcases outcome.breaks_or_ends with ⟨cause, rfl⟩ | ended
  · exact ⟨_, left, found, ran.terminated_fault, onward, ascends⟩
  · refine ⟨outcome, _, found, ran.terminated ended, ?_, ?_⟩
    · split
      · exact left.tokens_advance.trans onward
      · exact onward
    · split
      · have further := (ordered.of_suffix onward).peek_le_advance
        cases outcome with
        | fault cause => exact absurd rfl (ended cause)
        | _ => exact ascends.raise further
      · exact ascends

/-- A step that chooses by the kind of the next token. -/
theorem choice {kind : TokenKind} {first second : Parse α} (chosen : Dated start first)
    (otherwise : Dated start second) :
    Dated start
      (fun parser => if parser.peek.kind = kind then first parser else second parser) := by
  intro window depth ordered
  by_cases here : window.peek.kind = kind
  · exact (chosen window depth ordered).of_eq fun _ => if_pos here
  · exact (otherwise window depth ordered).of_eq fun _ => if_neg here

/-- A step that takes its turns from the tokens where it stands. -/
theorem look {steps : List Token → Parse α} (each : ∀ turns, Dated start (steps turns)) :
    Dated start (fun parser => steps parser.tokens parser) :=
  fun window depth ordered => (each window.tokens window depth ordered).of_eq fun _ => rfl

end Dated

end Parse

/-- Both routines one level deeper may report from the current token on. -/
structure DatedNested (inner : Nested) : Prop where
  expression : ∀ floor : Nat, Parse.Dated Window.curr (inner.expression (.level floor))
  block : Parse.Dated Window.curr inner.block

/-! ## The rules -/

namespace Routine

open Parse

theorem identifier_dated : Dated Window.curr identifier :=
  .current fun _ => .weaken (.pure _)

theorem boolean_dated : Dated Window.curr boolean :=
  .current fun _ => .weaken (.pure _)

/-- A number that cannot be read is reported on its own line. -/
theorem integer_dated : Dated Window.curr integer := by
  refine .current fun token => ?_
  cases Decimal.read? token.literal with
  | some value => exact .weaken (.pure _)
  | none => exact .failHere _

theorem parameter_dated : Dated Window.peek parameter :=
  .expect (.current fun _ => .weaken (.pure _))

/-- The end of a list in parentheses. -/
theorem closing_dated {α : Type} (found : List α) :
    Dated Window.peek (do expect .rightParen; return found) :=
  .expect (.weaken (.pure _))

theorem moreParameters_dated (turns : List Token) (found : List Name) :
    Dated Window.peek (moreParameters turns found) := by
  induction turns generalizing found with
  | nil => exact closing_dated found.reverse
  | cons turn turns ih =>
      refine .choice (.advance (.weaken ?_)) (closing_dated found.reverse)
      exact parameter_dated.bind fun name => ih (name :: found)

theorem parameters_dated : Dated Window.peek parameters := by
  have none : Dated Window.peek (do advance; return ([] : List Name)) :=
    .advance (.weaken (.pure _))
  have some (turns : List Token) : Dated Window.peek (do
      let name ← parameter
      moreParameters turns [name]) :=
    parameter_dated.bind fun name => moreParameters_dated turns [name]
  exact .choice none (.look some)

section Nested

variable {inner : Nested} (nested : DatedNested inner)

include nested

theorem prefixed_dated : Dated Window.peek (prefixed inner) :=
  .current fun _ => .advance ((nested.expression _).bind fun _ => .pure _)

theorem group_dated : Dated Window.peek (group inner) :=
  .advance ((nested.expression _).bind fun _ => .expect (.weaken (.pure _)))

theorem alternative_dated (line : Int) (condition consequence : Node) :
    Dated Window.peek (alternative inner line condition consequence) :=
  .choice (.advance (.weaken (.expect (nested.block.bind fun _ => .pure _)))) (.pure _)

theorem conditional_dated : Dated Window.peek (conditional inner) :=
  .current fun _ => .expect (.weaken (.advance ((nested.expression _).bind fun _ =>
    .expect (.weaken (.expect (nested.block.bind fun _ => alternative_dated nested _ _ _))))))

theorem function_dated : Dated Window.peek (function inner) :=
  .current fun _ => .expect (.weaken (parameters_dated.bind fun _ =>
    .expect (nested.block.bind fun _ => .pure _)))

theorem moreArguments_dated (turns : List Token) (found : List Node) :
    Dated Window.peek (moreArguments inner turns found) := by
  induction turns generalizing found with
  | nil => exact closing_dated found.reverse
  | cons turn turns ih =>
      refine .choice (.advance (.weaken (.advance ?_))) (closing_dated found.reverse)
      exact (nested.expression _).bind fun node => ih (node :: found)

theorem arguments_dated : Dated Window.peek (arguments inner) := by
  have none : Dated Window.peek (do advance; return ([] : List Node)) :=
    .advance (.weaken (.pure _))
  have some (turns : List Token) : Dated Window.peek (do
      advance
      let node ← inner.expression .lowest
      moreArguments inner turns [node]) :=
    .advance ((nested.expression _).bind fun node => moreArguments_dated nested turns [node])
  exact .choice none (.look some)

theorem asContinuation_dated (left : Node) {kind : TokenKind} {rule : Rule}
    (found : Grammar.standard.continuation kind = some rule) :
    Dated Window.peek (asContinuation inner left rule) := by
  rcases Grammar.continuation_standard found with ⟨-, rfl⟩ | ⟨-, rfl⟩
  · exact .current fun _ => .advance ((nested.expression _).bind fun _ => .pure _)
  · exact .current fun _ => (arguments_dated nested).bind fun _ => .pure _

theorem operand_dated (limit : Int) : Dated Window.curr (operand .standard limit inner) := by
  intro window depth ordered
  cases found : Grammar.standard.operand window.curr.kind with
  | none =>
      exact (Dated.failHere (.noOperand window.curr.kind) window depth ordered).of_eq fun _ =>
        operand_of_none found
  | some rule =>
      refine DatedAt.of_eq ?_ fun _ => operand_of_rule found
      rcases Grammar.operand_standard found with
        ⟨-, rfl⟩ | ⟨-, rfl⟩ | ⟨-, rfl⟩ | ⟨-, rfl⟩ | ⟨-, rfl⟩ | ⟨-, rfl⟩ | ⟨-, rfl⟩
      · exact identifier_dated window depth ordered
      · exact integer_dated window depth ordered
      · exact boolean_dated window depth ordered
      · exact (group_dated nested).weaken window depth ordered
      · exact (prefixed_dated nested).weaken window depth ordered
      · exact (conditional_dated nested).weaken window depth ordered
      · exact (function_dated nested).weaken window depth ordered

/-- Continuations start from a token that the operand has not reported on. -/
theorem climb_dated (floor : Nat) (turns : List Token) (left : Node) :
    Dated Window.peek (climb .standard inner (.level floor) turns left) := by
  induction turns generalizing left with
  | nil => exact .pure left
  | cons turn turns ih =>
      intro window depth ordered
      by_cases stops : window.peek.kind.Stops floor
      · exact (Dated.pure left window depth ordered).of_eq fun _ => climb_of_stops stops
      · obtain ⟨rule, found, goes⟩ := @climb_of_goes inner _ _ stops
        have taken : Dated Window.peek (do
            advance
            let next ← asContinuation inner left rule
            climb .standard inner (.level floor) turns next) :=
          .advance (.weaken ((asContinuation_dated nested left found).bind ih))
        exact (taken window depth ordered).of_eq fun _ => goes turn turns left _ rfl

/-- A statement may report on its first token, and has looked at the token after its
last one. -/
theorem statement_dated : Dated Window.curr (statement inner) := by
  have value : Dated Window.curr (terminated (inner.expression .lowest)) :=
    (nested.expression _).terminated
  have binding : Dated Window.curr (letStatement inner) :=
    .current fun _ => .weaken (.expect (.current fun _ => .weaken (.expect (.weaken
      (.advance (value.bind fun _ => .pure _))))))
  have returning : Dated Window.curr (returnStatement inner) :=
    .current fun _ => .weaken (.advance (value.bind fun _ => .pure _))
  have bare : Dated Window.curr (expressionStatement inner) :=
    .current fun _ => value.bind fun _ => .pure _
  intro window depth ordered
  by_cases isLet : window.curr.kind = .letKeyword
  · exact (binding window depth ordered).of_eq fun _ => statement_of_let isLet
  by_cases isReturn : window.curr.kind = .returnKeyword
  · exact (returning window depth ordered).of_eq fun _ => statement_of_return isReturn
  · exact (bare window depth ordered).of_eq fun _ => statement_of_other isLet isReturn

/-- A block moves on after each statement, and reports nothing more where it ends on the
brace that a failed one has stopped at. -/
theorem blockBody_dated (turns : List Token) (nodes : List Node) :
    Dated Window.curr (blockBody inner turns nodes) := by
  have ends : Dated Window.curr
      (failHere (.unexpected .rightBrace .eof) : Parse (List Node)) := .failHere _
  induction turns generalizing nodes with
  | nil => exact ends
  | cons turn turns ih =>
      intro window depth ordered
      by_cases closes : window.curr.kind = .rightBrace
      · exact ⟨_, window, [], .silent fun _ => if_pos closes, List.suffix_refl _,
          ordered.curr_le_peek⟩
      by_cases ended : window.curr.kind = .eof
      · exact (ends window depth ordered).of_eq fun _ => (if_neg closes).trans (if_pos ended)
      obtain ⟨outcome, middle, found, ran, onward, ascends⟩ :=
        statement_dated nested window depth ordered
      have turned := @blockBody_turn inner turn turns nodes _ _ _ _ _ closes ended ran
      have advanced := middle.tokens_advance.trans onward
      have ordered' := ordered.of_suffix advanced
      -- A statement that has failed may have reported on the next token. The block then
      -- stands on that token before anything else is reported.
      have next := ascends.raise ((ordered.of_suffix onward).stop_le_advance outcome)
      cases outcome with
      | parsed node =>
          exact (ih (node :: nodes) middle.advance depth ordered').after advanced next turned
      | failed =>
          by_cases stops : middle.curr.kind = .rightBrace
          · exact ⟨_, middle, found, fun diagnostics => (turned diagnostics).trans (if_pos stops),
              onward, ascends⟩
          · exact (ih nodes middle.advance depth ordered').after advanced next
              fun diagnostics => (turned diagnostics).trans (if_neg stops)
      | fault cause => exact ⟨_, middle, found, turned, onward, ascends⟩

theorem block_dated (limit : Int) : Dated Window.curr (block limit inner) := by
  refine .nested limit (.current fun _ => .weaken (.advance ?_))
  exact (Dated.look fun turns => blockBody_dated nested turns []).bind fun _ => .pure _

theorem expression_dated (limit : Int) (floor : Nat) :
    Dated Window.curr (expression .standard limit inner (.level floor)) := by
  refine .nested limit ((operand_dated nested limit).bind fun left => ?_)
  exact .look fun turns => climb_dated nested floor turns left

/-- A program moves on after each statement. A statement for which the stack is too short
is reported where it broke off. -/
theorem programBody_dated [HonestNested inner] (limit : Int) (turns : List Token)
    (nodes : List Node) : Dated Window.curr (programBody limit inner turns nodes) := by
  induction turns generalizing nodes with
  | nil => exact .weaken (.pure _)
  | cons turn turns ih =>
      intro window depth ordered
      by_cases ends : window.curr.kind = .eof
      · exact ⟨_, window, [], programBody_ends ends, List.suffix_refl _, ordered.curr_le_peek⟩
      obtain ⟨outcome, middle, found, ran, onward, ascends⟩ :=
        statement_dated nested window depth ordered
      rcases outcome.breaks_or_ends with ⟨cause, rfl⟩ | ended
      · by_cases stack : cause = .stackExhausted
        · subst stack
          by_cases named : Decimal.Writable limit
          · refine ⟨_, middle, _, programBody_exhausted ends named ran, onward, ascends.append ?_⟩
            exact ⟨Int.le_refl _, (ordered.of_suffix onward).curr_le_peek⟩
          · exact ⟨_, middle, _, programBody_unnamed ends named ran, onward, ascends⟩
        · exact ⟨_, middle, _, programBody_fault ends stack ran, onward, ascends⟩
      · have advanced := middle.tokens_advance.trans onward
        have next := ascends.raise ((ordered.of_suffix onward).stop_le_advance outcome)
        exact (ih (outcome.kept ++ nodes) middle.advance depth (ordered.of_suffix advanced)).after
          advanced next (programBody_turn ends ran ended)

theorem program_dated [HonestNested inner] (limit : Int) :
    Dated Window.curr (program limit inner) := by
  have each (turns : List Token) : Dated Window.curr (do
      let statements ← programBody limit inner turns []
      return Node.program statements) :=
    (programBody_dated nested limit turns []).bind fun _ => .pure _
  exact .look each

end Nested

end Routine

/-- Both routines report from the current token on, on every level of stack. -/
theorem nestedRoutines_dated (limit : Int) (levels : Nat) :
    DatedNested (nestedRoutines .standard limit levels) := by
  induction levels with
  | zero =>
      have broken : Parse.Dated Window.curr (Parse.breakOff .stackExhausted : Parse Node) :=
        fun window _ _ =>
          ⟨_, window, [], .silent fun _ => rfl, List.suffix_refl _, Int.le_refl _⟩
      exact ⟨fun _ => broken, broken⟩
  | succ levels ih =>
      exact ⟨Routine.expression_dated ih limit, Routine.block_dated ih limit⟩

/-! ## The lines of a text -/

/-- From a line on, the lines of the tokens do not descend. -/
theorem Token.ofSegmentsOnto_ordered (line : Int) (segments : List Segment) :
    (∀ token ∈ ofSegmentsOnto [] line segments, line ≤ token.line) ∧
      (ofSegmentsOnto [] line segments).Pairwise fun first second => first.line ≤ second.line := by
  induction segments generalizing line with
  | nil => simp [ofSegmentsOnto]
  | cons segment segments ih =>
      obtain ⟨above, pairwise⟩ := ih line
      cases segment with
      | token kind text =>
          rw [ofSegmentsOnto, ofSegmentsOnto_eq]
          exact ⟨List.forall_mem_cons.2 ⟨Int.le_refl _, above⟩, .cons above pairwise⟩
      | newline =>
          obtain ⟨above, pairwise⟩ := ih (line + 1)
          exact ⟨fun token member => by have := above token member; omega, pairwise⟩
      | blank text => exact ⟨above, pairwise⟩
      | comment text => exact ⟨above, pairwise⟩

/-- Where the lines do not descend, no token is on a later line than the `eof`, which is
the last one. -/
theorem Lexed.eof_last {tokens : List Token} (lexed : Lexed tokens)
    (ordered : tokens.Pairwise fun first second => first.line ≤ second.line) :
    ∃ eof, tokens.getLast? = some eof ∧ eof.kind = .eof ∧
      ∀ token ∈ tokens, token.line ≤ eof.line := by
  induction lexed with
  | @eof token kind => exact ⟨token, rfl, kind, by simp⟩
  | more _ _ later ih =>
      obtain ⟨above, ordered⟩ := List.pairwise_cons.1 ordered
      obtain ⟨eof, last, kind, below⟩ := ih ordered
      refine ⟨eof, ?_, kind, List.forall_mem_cons.2 ⟨above eof (List.mem_of_getLast? last), below⟩⟩
      rw [List.getLast?_cons, last]
      rfl

/-- **Diagnostics are in the order of the text.** Whatever the text, the nesting limit
and the stack: the lines of the diagnostics do not descend, in the order in which they
were recorded, and they are lines of the text, from the first one to that of the `eof`
token. -/
theorem parseProgram_diagnostics_ascend (limit : Int) (levels : Nat) (source : String) :
    ((parseProgram .standard limit levels (.ofSource source)).2.diagnostics.Pairwise
        fun first second => first.line ≤ second.line) ∧
      ∃ eof, (tokenize source).getLast? = some eof ∧ eof.kind = .eof ∧
        ∀ diagnostic ∈ (parseProgram .standard limit levels (.ofSource source)).2.diagnostics,
          1 ≤ diagnostic.line ∧ diagnostic.line ≤ eof.line := by
  have tokens := Window.tokens_ofTokens (tokenize_ne_nil source)
  obtain ⟨above, ordered⟩ := Token.ofSegmentsOnto_ordered 1 (Segment.scan source.toList)
  obtain ⟨eof, last, kind, below⟩ := (lexed_tokenize source).eof_last ordered
  obtain ⟨outcome, left, found, ran, onward, ascends⟩ :=
    Routine.program_dated (nestedRoutines_dated limit levels) limit
      (Window.ofTokens (tokenize source)) 0 (by rwa [Window.Ordered, tokens])
  have recorded : (parseProgram .standard limit levels (.ofSource source)).2.diagnostics = found :=
    congrArg (fun ended => ended.2.diagnostics) (ran [])
  have within (token : Token) (member : token ∈ (Window.ofTokens (tokenize source)).tokens) :
      1 ≤ token.line ∧ token.line ≤ eof.line := by
    rw [tokens] at member
    exact ⟨above token member, below token member⟩
  have starts := (within _ List.mem_cons_self).1
  have stops := (within _ (onward.subset (outcome.stop_mem left))).2
  rw [recorded]
  exact ⟨ascends.pairwise, eof, last, kind, ((ascends.lower starts).raise stops).bounds⟩

end ExprLang
