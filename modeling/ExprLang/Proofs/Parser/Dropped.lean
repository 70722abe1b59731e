/-
# ExprLang.Proofs.Parser.Dropped — one diagnostic for every statement that is dropped

A statement that cannot be read is dropped, by the program or by the block that it
stands in, at any nesting. To see how often that happens, the parser is watched: each
time the rule for statements comes back without a statement, a note is left among the
diagnostics (`Parse.noting`). The watched parser is the parser with that one change.
Both go the same way, because no rule looks at what has been recorded.

What the notes show is an order (`Answered`): every diagnostic is directly followed by
a note, and there is no note elsewhere. A step that fails has recorded one diagnostic
that no note answers yet, its last one; whoever called it passes the failure on and
records nothing (`Outcome.Logs`). The statement that ends so is noted, and then the
block goes on with every diagnostic answered. So there are as many diagnostics as
statements that were dropped (`parseProgram_diagnostics_drops`).
-/
import ExprLang.Proofs.Parser.Congruence
import ExprLang.Proofs.Parser.Resume

namespace ExprLang

set_option autoImplicit false

/-! ## The watched parser -/

/-- The note that a statement was dropped. -/
def Diagnostic.dropped : Diagnostic := ⟨.reported "dropped", 0⟩

/-- The step, with a note when it fails. -/
def Parse.noting {α : Type} (step : Parse α) : Parse α := fun parser =>
  match step parser with
  | (.failed, after) => (.failed, after.record (.reported "dropped") 0)
  | ended => ended

namespace Routine

open Parse

/-- The statements of a block as a step reads them. -/
def blockOf (read : Parse Node) : List Token → List Node → Parse (List Node)
  | [], _ => failHere (.unexpected .rightBrace .eof)
  | _ :: turns, found => fun parser =>
      if parser.curr.kind = .rightBrace then (.parsed found.reverse, parser)
      else if parser.curr.kind = .eof then failHere (.unexpected .rightBrace .eof) parser
      else
        match read parser with
        | (.parsed node, after) => blockOf read turns (node :: found) after.advance
        | (.failed, after) =>
            if after.curr.kind = .rightBrace then (.parsed found.reverse, after)
            else blockOf read turns found after.advance
        | (.fault cause, after) => (.fault cause, after)

/-- The statements of a program as a step reads them. -/
def programOf (limit : Int) (read : Parse Node) : List Token → List Node → Parse (List Node)
  | [], found => done found.reverse
  | _ :: turns, found => fun parser =>
      if parser.curr.kind = .eof then (.parsed found.reverse, parser)
      else
        match read parser with
        | (.parsed node, after) => programOf limit read turns (node :: found) after.advance
        | (.failed, after) => programOf limit read turns found after.advance
        | (.fault .stackExhausted, after) =>
            if Decimal.Writable limit then
              (.parsed found.reverse, after.recordHere (.tooNested limit))
            else (.fault .tooLong, after)
        | (.fault cause, after) => (.fault cause, after)

/-- A block reads its statements by the rule for them. -/
theorem blockBody_eq (inner : Nested) (turns : List Token) (found : List Node) :
    blockBody inner turns found = blockOf (statement inner) turns found := by
  induction turns generalizing found with
  | nil => rfl
  | cons turn turns ih =>
      have later : blockBody inner turns = blockOf (statement inner) turns := funext ih
      unfold blockBody blockOf
      exact later ▸ rfl

theorem programBody_eq (limit : Int) (inner : Nested) (turns : List Token) (found : List Node) :
    programBody limit inner turns found = programOf limit (statement inner) turns found := by
  induction turns generalizing found with
  | nil => rfl
  | cons turn turns ih =>
      have later : programBody limit inner turns = programOf limit (statement inner) turns :=
        funext ih
      unfold programBody programOf
      exact later ▸ rfl

/-- A block that notes the statements it drops. -/
def watchedBlock (limit : Int) (inner : Nested) : Parse Node :=
  nested limit do
    let token ← current
    advance
    let statements ← (fun parser => blockOf (noting (statement inner)) parser.tokens [] parser :
      Parse (List Node))
    return .block token.line statements

end Routine

/-- The nesting routines, where every block notes the statements it drops. -/
def watchedRoutines (limit : Int) : Nat → Nested
  | 0 => ⟨fun _ => Parse.breakOff .stackExhausted, Parse.breakOff .stackExhausted⟩
  | levels + 1 =>
      let inner := watchedRoutines limit levels
      ⟨Routine.expression .standard limit inner, Routine.watchedBlock limit inner⟩

/-- The rule for programs, where the program and every block in it note the statements
that they drop. -/
def watchProgram (limit : Int) (levels : Nat) : Parse Node := fun parser =>
  (do
    let statements ← Routine.programOf limit
      (Parse.noting (Routine.statement (watchedRoutines limit levels))) parser.tokens []
    return .program statements : Parse Node) parser

/-- How many statements a parser that is watched has dropped. -/
def Parser.drops (parser : Parser) : Nat := parser.diagnostics.count .dropped

/-! ## Diagnostics and notes -/

/-- In the log every diagnostic is directly followed by a note, and notes stand nowhere
else. -/
inductive Answered : List Diagnostic → List Diagnostic → Prop where
  | nil : Answered [] []
  | cons {diagnostic : Diagnostic} {found log : List Diagnostic} (own : diagnostic ≠ .dropped)
      (later : Answered found log) : Answered (diagnostic :: found) (diagnostic :: .dropped :: log)

namespace Answered

variable {found log later log' : List Diagnostic}

theorem append (first : Answered found log) (second : Answered later log') :
    Answered (found ++ later) (log ++ log') := by
  induction first with
  | nil => exact second
  | cons own _ ih => exact .cons own ih

theorem count (answered : Answered found log) : log.count .dropped = found.length := by
  induction answered with
  | nil => rfl
  | cons own _ ih => simp [List.count_cons_of_ne own, ih]

/-- Without the notes the log holds the diagnostics. -/
theorem filter (answered : Answered found log) : log.filter (· ≠ .dropped) = found := by
  induction answered with
  | nil => rfl
  | cons own _ ih => simpa [own] using ih

end Answered

/-- What a step has recorded beside what it records when it is watched: all of it is
answered, but for the last diagnostic of a failure. -/
def Outcome.Logs {α : Type} : Outcome α → List Diagnostic → List Diagnostic → Prop
  | .failed, found, log => ∃ earlier noted last, Answered earlier noted ∧ last ≠ .dropped ∧
      found = earlier ++ [last] ∧ log = noted ++ [last]
  | .parsed _, found, log => Answered found log
  | .fault _, found, log => Answered found log

/-- A failure that has just been recorded. -/
theorem Outcome.Logs.one {α : Type} {diagnostic : Diagnostic}
    (own : ∀ text, diagnostic.problem ≠ .reported text) :
    (.failed : Outcome α).Logs [diagnostic] [diagnostic] :=
  ⟨[], [], diagnostic, .nil, fun same => own _ (congrArg Diagnostic.problem same), rfl, rfl⟩

theorem Outcome.Logs.after {α : Type} {outcome : Outcome α} {found log later log' : List Diagnostic}
    (answered : Answered found log) (logs : outcome.Logs later log') :
    outcome.Logs (found ++ later) (log ++ log') := by
  cases outcome with
  | failed =>
      obtain ⟨earlier, noted, last, before, own, rfl, rfl⟩ := logs
      exact ⟨found ++ earlier, log ++ noted, last, answered.append before, own, by simp, by simp⟩
  | parsed result => exact answered.append logs
  | fault cause => exact answered.append logs

theorem Outcome.Logs.answered {α : Type} {outcome : Outcome α} {found log : List Diagnostic}
    (logs : outcome.Logs found log) (ended : outcome ≠ .failed) : Answered found log := by
  cases outcome with
  | failed => exact absurd rfl ended
  | parsed result => exact logs
  | fault cause => exact logs

namespace Parse

variable {α β : Type} {step watched other other' : Parse α} {window middle : Window} {depth : Nat}
  {found log : List Diagnostic}

/-- From a window and a depth both steps end the same way and in the same place, and
the second has noted what was dropped. -/
def AnswersAt (step watched : Parse α) (window : Window) (depth : Nat) : Prop :=
  ∃ outcome left found log, Run step window depth outcome left found ∧
    Run watched window depth outcome left log ∧ outcome.Logs found log

/-- They do so from everywhere. -/
def Answers {α : Type} (step watched : Parse α) : Prop :=
  ∀ window depth, AnswersAt step watched window depth

/-- From everywhere both steps end the same way and in the same place, and the second
has answered every diagnostic, also when it has failed. -/
def Settles (step watched : Parse α) : Prop :=
  ∀ window depth, ∃ outcome left found log, Run step window depth outcome left found ∧
    Run watched window depth outcome left log ∧ Answered found log

theorem AnswersAt.of_log {outcome : Outcome α} {left : Window}
    (ran : Run step window depth outcome left found)
    (ran' : Run watched window depth outcome left log) (logs : outcome.Logs found log) :
    AnswersAt step watched window depth :=
  ⟨outcome, left, found, log, ran, ran', logs⟩

/-- Steps that go on like others once everything is answered. -/
theorem AnswersAt.after (later : AnswersAt other other' middle depth)
    (answered : Answered found log)
    (goes : ∀ diagnostics, step ⟨window, depth, diagnostics⟩ =
      other ⟨middle, depth, diagnostics ++ found⟩)
    (goes' : ∀ diagnostics, watched ⟨window, depth, diagnostics⟩ =
      other' ⟨middle, depth, diagnostics ++ log⟩) : AnswersAt step watched window depth := by
  obtain ⟨outcome, left, found', log', ran, ran', logs⟩ := later
  refine ⟨outcome, left, found ++ found', log ++ log', fun diagnostics => ?_,
    fun diagnostics => ?_, .after answered logs⟩
  · rw [goes, ran, List.append_assoc]
  · rw [goes', ran', List.append_assoc]

namespace Answers

theorem failHere {problem : Problem} (own : ∀ text, problem ≠ .reported text) :
    Answers (Parse.failHere problem : Parse α) (Parse.failHere problem) :=
  fun _ _ => .of_log (.failHere problem) (.failHere problem) (.one own)

theorem expect (kind : TokenKind) : Answers (Parse.expect kind) (Parse.expect kind) := by
  intro window depth
  by_cases wanted : window.peek.kind = kind
  · exact .of_log (.expect wanted) (.expect wanted) .nil
  · exact .of_log (.refused wanted) (.refused wanted) (.one nofun)

theorem bind {next next' : α → Parse β} (first : Answers step watched)
    (second : ∀ result, Answers (next result) (next' result)) :
    Answers (step >>= next) (watched >>= next') := by
  intro window depth
  obtain ⟨outcome, middle, found, log, ran, ran', logs⟩ := first window depth
  cases outcome with
  | parsed result =>
      exact (second result middle depth).after logs
        (fun diagnostics => bind_of_parsed (ran diagnostics) next)
        (fun diagnostics => bind_of_parsed (ran' diagnostics) next')
  | failed => exact .of_log ran.bind_failed ran'.bind_failed logs
  | fault cause => exact .of_log ran.bind_fault ran'.bind_fault logs

theorem nested {limit : Int} (inside : Answers step watched) :
    Answers (Parse.nested limit step) (Parse.nested limit watched) := by
  intro window depth
  by_cases room : (depth : Int) < limit
  · obtain ⟨outcome, left, found, log, ran, ran', logs⟩ := inside window (depth + 1)
    exact .of_log (.nested room ran) (.nested room ran') logs
  · have full := Int.not_lt.1 room
    by_cases named : Decimal.Writable limit
    · exact .of_log (.nested_full full named) (.nested_full full named) (.one nofun)
    · exact .of_log (.nested_unnamed full named) (.nested_unnamed full named) .nil

theorem terminated (inside : Answers step watched) :
    Answers (Parse.terminated step) (Parse.terminated watched) := by
  intro window depth
  obtain ⟨outcome, left, found, log, ran, ran', logs⟩ := inside window depth
  rcases outcome.breaks_or_ends with ⟨cause, rfl⟩ | ended
  · exact .of_log ran.terminated_fault ran'.terminated_fault logs
  · exact .of_log (ran.terminated ended) (ran'.terminated ended) logs

end Answers

/-- A failure is answered once, by every way of putting steps together. -/
theorem answers_congruence (limit : Int) : Congruence limit limit @Answers where
  pure result window depth := .of_log (.pure result) (.pure result) .nil
  current window depth := .of_log .current .current .nil
  advance window depth := .of_log .advance .advance .nil
  expect := .expect
  failHere := .failHere
  bind := .bind
  nested := .nested
  terminated := .terminated
  anywhere each window depth := by
    obtain ⟨other, other', answers, same, same'⟩ := each window
    refine (answers window depth).after .nil (fun diagnostics => ?_) (fun diagnostics => ?_)
    · rw [same, List.append_nil]
    · rw [same', List.append_nil]

/-- Once a failure is noted, everything is answered. -/
theorem Answers.noting (answers : Answers step watched) : Settles step (noting watched) := by
  intro window depth
  obtain ⟨outcome, left, found, log, ran, ran', logs⟩ := answers window depth
  cases outcome with
  | parsed result =>
      refine ⟨_, left, found, log, ran, fun diagnostics => ?_, logs⟩
      unfold Parse.noting
      rw [ran']
  | failed =>
      obtain ⟨earlier, noted, last, before, own, rfl, rfl⟩ := logs
      refine ⟨_, left, _, noted ++ [last, .dropped], ran, fun diagnostics => ?_,
        before.append (.cons own .nil)⟩
      unfold Parse.noting
      rw [ran']
      simp [Parser.record, Diagnostic.dropped]
  | fault cause =>
      refine ⟨_, left, found, log, ran, fun diagnostics => ?_, logs⟩
      unfold Parse.noting
      rw [ran']

end Parse

/-! ## Blocks and programs -/

namespace Routine

open Parse

variable {read watched : Parse Node} {turn : Token} {turns : List Token} {nodes : List Node}
  {window middle : Window} {depth : Nat} {outcome : Outcome Node} {found : List Diagnostic}

/-- What a turn of a block does is told by how its statement was read. -/
theorem blockOf_turn (opens : window.curr.kind ≠ .rightBrace) (noEnd : window.curr.kind ≠ .eof)
    (ran : Run read window depth outcome middle found) (diagnostics : List Diagnostic) :
    blockOf read (turn :: turns) nodes ⟨window, depth, diagnostics⟩ =
      match outcome with
      | .parsed node =>
          blockOf read turns (node :: nodes) ⟨middle.advance, depth, diagnostics ++ found⟩
      | .failed =>
          if middle.curr.kind = .rightBrace then
            (.parsed nodes.reverse, ⟨middle, depth, diagnostics ++ found⟩)
          else blockOf read turns nodes ⟨middle.advance, depth, diagnostics ++ found⟩
      | .fault cause => (.fault cause, ⟨middle, depth, diagnostics ++ found⟩) := by
  refine (if_neg opens).trans ((if_neg noEnd).trans ?_)
  rw [ran]
  cases outcome <;> rfl

/-- A program goes on after a statement, read or not. -/
theorem programOf_turn {limit : Int} (noEnd : window.curr.kind ≠ .eof)
    (ran : Run read window depth outcome middle found)
    (ended : ∀ cause, outcome ≠ .fault cause) (diagnostics : List Diagnostic) :
    programOf limit read (turn :: turns) nodes ⟨window, depth, diagnostics⟩ =
      programOf limit read turns (outcome.kept ++ nodes)
        ⟨middle.advance, depth, diagnostics ++ found⟩ := by
  refine (if_neg noEnd).trans ?_
  rw [ran]
  cases outcome with
  | fault cause => exact absurd rfl (ended cause)
  | _ => rfl

/-- It breaks off with a statement that does, unless the stack has run out. -/
theorem programOf_fault {limit : Int} {cause : ParseFault} (noEnd : window.curr.kind ≠ .eof)
    (other : cause ≠ .stackExhausted) (ran : Run read window depth (.fault cause) middle found) :
    Run (programOf limit read (turn :: turns) nodes) window depth (.fault cause) middle found := by
  intro diagnostics
  refine (if_neg noEnd).trans ?_
  rw [ran]
  cases cause with
  | stackExhausted => exact absurd rfl other
  | _ => rfl

/-- A block goes on with every diagnostic answered, and fails only with one of its own. -/
theorem blockOf_answers (settles : Settles read watched) (turns : List Token) (nodes : List Node) :
    Answers (blockOf read turns nodes) (blockOf watched turns nodes) := by
  have ends : Answers (failHere (.unexpected .rightBrace .eof) : Parse (List Node))
      (failHere (.unexpected .rightBrace .eof)) := .failHere nofun
  induction turns generalizing nodes with
  | nil => exact ends
  | cons turn turns ih =>
      intro window depth
      by_cases closes : window.curr.kind = .rightBrace
      · exact .of_log (.silent fun _ => if_pos closes) (.silent fun _ => if_pos closes) .nil
      by_cases ended : window.curr.kind = .eof
      · exact (ends window depth).after .nil
          (fun _ => by rw [List.append_nil]; exact (if_neg closes).trans (if_pos ended))
          (fun _ => by rw [List.append_nil]; exact (if_neg closes).trans (if_pos ended))
      obtain ⟨outcome, middle, found, log, ran, ran', answered⟩ := settles window depth
      have turned := @blockOf_turn read turn turns nodes _ _ _ _ _ closes ended ran
      have turned' := @blockOf_turn watched turn turns nodes _ _ _ _ _ closes ended ran'
      cases outcome with
      | parsed node => exact (ih (node :: nodes) middle.advance depth).after answered turned turned'
      | failed =>
          by_cases stops : middle.curr.kind = .rightBrace
          · simp only [if_pos stops] at turned turned'
            exact .of_log turned turned' answered
          · simp only [if_neg stops] at turned turned'
            exact (ih nodes middle.advance depth).after answered turned turned'
      | fault cause => exact .of_log turned turned' answered

variable {inner inner' : Nested} (related : Related @Answers inner inner') (limit : Int)

include related

theorem block_answers : Answers (block limit inner) (watchedBlock limit inner') := by
  have congruence := answers_congruence limit
  have statements (turns : List Token) :
      Answers (blockBody inner turns []) (blockOf (noting (statement inner')) turns []) := by
    rw [blockBody_eq]
    exact blockOf_answers (congruence.statement related).noting turns []
  exact congruence.nested (congruence.bind congruence.current fun _ =>
    congruence.bind congruence.advance fun _ => congruence.bind (congruence.look statements)
      fun _ => congruence.pure _)

/-- A program goes on with every diagnostic answered, unless the stack runs out. -/
theorem programBody_answers [HonestNested inner] (turns : List Token) (nodes : List Node)
    {recorded : List Diagnostic} (stack : ¬ Exhausts inner ⟨window, depth, recorded⟩) :
    AnswersAt (programBody limit inner turns nodes)
      (programOf limit (noting (statement inner')) turns nodes) window depth := by
  rw [programBody_eq]
  induction turns generalizing nodes window recorded with
  | nil => exact .of_log (.pure nodes.reverse) (.pure nodes.reverse) .nil
  | cons turn turns ih =>
      by_cases ends : window.curr.kind = .eof
      · exact .of_log (.silent fun _ => if_pos ends) (.silent fun _ => if_pos ends) .nil
      obtain ⟨outcome, middle, found, log, ran, ran', answered⟩ :=
        ((answers_congruence limit).statement related).noting window depth
      have first : statement inner ⟨window, depth, recorded⟩ = _ := ran recorded
      rcases outcome.breaks_or_ends with ⟨cause, rfl⟩ | ended
      · have other : cause ≠ .stackExhausted := by
          rintro rfl
          exact stack (.here ends (congrArg Prod.fst first))
        exact .of_log (programOf_fault ends other ran) (programOf_fault ends other ran') answered
      have stack' : ¬ Exhausts inner ⟨middle.advance, depth, recorded ++ found⟩ := by
        intro exhausts
        refine stack (.later ends (by rwa [first]) ?_)
        rw [first]
        exact exhausts
      exact (ih (outcome.kept ++ nodes) stack').after answered (programOf_turn ends ran ended)
        (programOf_turn ends ran' ended)

end Routine

/-- On every level of stack the routines answer their failures. -/
theorem watchedRoutines_answers (limit : Int) (levels : Nat) :
    Parse.Related @Parse.Answers (nestedRoutines .standard limit levels)
      (watchedRoutines limit levels) := by
  induction levels with
  | zero =>
      have breaks : Parse.Answers (Parse.breakOff .stackExhausted : Parse Node)
          (Parse.breakOff .stackExhausted) :=
        fun _ _ => .of_log (.silent fun _ => rfl) (.silent fun _ => rfl) .nil
      exact ⟨fun _ => breaks, breaks⟩
  | succ levels ih =>
      exact ⟨(Parse.answers_congruence limit).expression ih, Routine.block_answers ih limit⟩

/-- **One diagnostic for every statement that is dropped.** Watching changes nothing: the
watched parser makes the same program of the tokens, stands in the same place and, but
for its notes, has the same diagnostics. Each of these is directly followed by the note
of a statement that was dropped, so there are as many diagnostics as dropped statements,
and none exactly if no statement was dropped. -/
theorem parseProgram_diagnostics_drops (limit : Int) (levels : Nat) (tokens : List Token)
    (stack : ¬ Exhausts limit levels tokens) :
    let parsed := parseProgram .standard limit levels (.ofTokens tokens)
    let watched := watchProgram limit levels (.ofTokens tokens)
    (watched.1 = parsed.1 ∧ watched.2.window = parsed.2.window ∧
        watched.2.diagnostics.filter (· ≠ .dropped) = parsed.2.diagnostics) ∧
      Answered parsed.2.diagnostics watched.2.diagnostics ∧
      parsed.2.diagnostics.length = watched.2.drops ∧
      (parsed.2.diagnostics = [] ↔ watched.2.drops = 0) := by
  obtain ⟨outcome, left, found, log, ran, ran', logs⟩ :=
    Routine.programBody_answers (watchedRoutines_answers limit levels) limit
      (Parser.ofTokens tokens).tokens [] stack
  have noFailure : outcome ≠ .failed := by
    rintro rfl
    exact Routine.programBody_ne_failed limit _ _ _ _ (congrArg Prod.fst (ran []))
  have answered : Answered found log := logs.answered noFailure
  have counted : log.count .dropped = found.length := answered.count
  obtain ⟨whole, ended, seen⟩ : ∃ whole,
      parseProgram .standard limit levels (.ofTokens tokens) = (whole, ⟨left, 0, found⟩) ∧
        watchProgram limit levels (.ofTokens tokens) = (whole, ⟨left, 0, log⟩) := by
    cases outcome with
    | parsed statements =>
        exact ⟨_, Parse.bind_of_parsed (ran []) _, Parse.bind_of_parsed (ran' []) _⟩
    | failed => exact absurd rfl noFailure
    | fault cause => exact ⟨_, ran.bind_fault [], ran'.bind_fault []⟩
  rw [ended, seen]
  refine ⟨⟨rfl, rfl, answered.filter⟩, answered, counted.symm, ?_⟩
  change found = [] ↔ log.count .dropped = 0
  rw [counted, List.length_eq_zero_iff]

/-- A binding dropped inside of a call that is dropped, and a block that is not closed:
three statements and three diagnostics. -/
theorem parseProgram_diagnostics_drops_nested :
    let tokens : List Token := [⟨.functionKeyword, "fn", 1⟩, ⟨.leftParen, "(", 1⟩,
      ⟨.rightParen, ")", 1⟩, ⟨.leftBrace, "\x7b", 1⟩, ⟨.letKeyword, "let", 1⟩,
      ⟨.rightBrace, "\x7d", 1⟩, ⟨.leftParen, "(", 2⟩, ⟨.int, "1", 2⟩, ⟨.plus, "+", 2⟩,
      ⟨.semicolon, ";", 2⟩, ⟨.ifKeyword, "if", 3⟩, ⟨.leftParen, "(", 3⟩, ⟨.identifier, "a", 3⟩,
      ⟨.rightParen, ")", 3⟩, ⟨.leftBrace, "\x7b", 3⟩, ⟨.eof, "", 4⟩]
    (watchProgram 100 500 (.ofTokens tokens)).2.drops = 3 ∧
      (parseProgram .standard 100 500 (.ofTokens tokens)).2.diagnostics.length = 3 := by
  intro tokens
  have dropped : (watchProgram 100 500 (.ofTokens tokens)).2.drops = 3 := by decide +kernel
  obtain ⟨-, -, counted, -⟩ := parseProgram_diagnostics_drops 100 500 tokens
    (not_exhausts (by decide) (by decide) tokens)
  exact ⟨dropped, counted.trans dropped⟩

end ExprLang
