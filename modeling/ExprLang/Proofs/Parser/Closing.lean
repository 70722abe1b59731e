/-
# ExprLang.Proofs.Parser.Closing — the brace that closes a block

A statement of a block may fail because its expression, or an operand of it,
should start where the block's closing brace stands. The brace is not passed by
that: a step that fails for want of an operand stands on the token that starts
none (`Halting`), however deep inside of expressions it was looked for. With the
standard tables this holds of every rule below statements
(`nestedRoutines_halting`).

A statement does more. It takes a semicolon after it also when it has failed, and
so it steps from the brace onto a semicolon that follows the brace. The block then
does not see its brace and goes on behind the semicolon. `block_closes` says which
happens when: the block ends at the brace if no semicolon follows it, and passes
the brace if one does.
-/
import ExprLang.Proofs.Parser.Resume

namespace ExprLang

set_option autoImplicit false

/-- There is more than one token where another one lies ahead. -/
theorem Window.more_of_suffix {window later : Window} (onward : later.tokens <:+ window.tokens)
    (other : later.curr ≠ window.curr) : 1 < window.tokens.length := by
  obtain ⟨passed, same⟩ := onward
  cases passed with
  | nil => exact absurd (List.cons.inj same).1 other
  | cons token passed =>
      rw [← same]
      simp only [tokens, List.length_append, List.length_cons]
      omega

/-- Where a statement stands after its expression has ended in a window: on the
semicolon, if one comes next. -/
def Window.pastSemicolon (window : Window) : Window :=
  if window.peek.kind = .semicolon then window.advance else window

/-- Every depth counts as short of stack, so that nothing is said about faults. -/
def AnyDepth (_ : Nat) (_ : ParseFault) : Prop := True

namespace Parse

variable {α β : Type} {moves : Window → Window} {before middle : Parser}

/-- How a step may end that started on a parser: when it fails for want of an
operand, it has found the token that starts none, and left it as `moves` says. -/
def Halted (moves : Window → Window) (before : Parser) (ended : Outcome α × Parser) : Prop :=
  ended.1 = .failed → ∀ kind line,
    ended.2.diagnostics.getLast? = some ⟨.noOperand kind, line⟩ →
    ∃ spot : Window, spot.tokens <:+ before.window.tokens ∧ spot.curr.kind = kind ∧
      spot.curr.line = line ∧ ended.2.window = moves spot

/-- Every run of the step ends in such a way. -/
class Halting (moves : Window → Window) (step : Parse α) : Prop where
  halted : ∀ parser, Halted moves parser (step parser)

theorem onward (step : Parse α) [orderly : Orderly AnyDepth step] (parser : Parser) :
    (step parser).2.window.tokens <:+ parser.window.tokens := by
  obtain ⟨window, depth, diagnostics⟩ := parser
  obtain ⟨outcome, left, found, ran, onward, -⟩ := orderly.orders window depth
  rw [ran]
  exact onward

/-- A step stands in one place after it. -/
theorem Run.left_unique {step : Parse α} {window left left' : Window} {depth : Nat}
    {outcome outcome' : Outcome α} {found found' : List Diagnostic}
    (ran : Run step window depth outcome left found)
    (ran' : Run step window depth outcome' left' found') : left = left' :=
  congrArg (·.2.window) ((ran []).symm.trans (ran' []))

/-- A run moves forward. -/
theorem Run.onward {step : Parse α} [Orderly AnyDepth step] {window left : Window} {depth : Nat}
    {outcome : Outcome α} {found : List Diagnostic}
    (ran : Run step window depth outcome left found) : left.tokens <:+ window.tokens := by
  have forward := Parse.onward step ⟨window, depth, []⟩
  rw [ran] at forward
  exact forward

namespace Halted

theorem parsed (result : α) (after : Parser) : Halted moves before (.parsed result, after) :=
  nofun

theorem fault (cause : ParseFault) (after : Parser) :
    Halted moves before ((.fault cause : Outcome α), after) :=
  nofun

theorem after {ended : Outcome α × Parser} (halted : Halted moves middle ended)
    (onward : middle.window.tokens <:+ before.window.tokens) : Halted moves before ended := by
  intro failed kind line last
  obtain ⟨spot, suffix, found⟩ := halted failed kind line last
  exact ⟨spot, suffix.trans onward, found⟩

/-- A failure with another problem is none for want of an operand. -/
theorem recorded {problem : Problem} (other : ∀ kind, problem ≠ .noOperand kind)
    (parser : Parser) (line : Int) :
    Halted moves before ((.failed : Outcome α), parser.record problem line) := by
  intro _ kind line' last
  have same : (⟨problem, line⟩ : Diagnostic) = ⟨.noOperand kind, line'⟩ := by
    simpa [Parser.record] using last
  exact absurd (congrArg Diagnostic.problem same) (other kind)

end Halted

namespace Halting

variable {step : Parse α} {next : α → Parse β}

instance pure (result : α) : Halting moves (pure result : Parse α) :=
  ⟨fun parser => .parsed result parser⟩

instance current : Halting moves Parse.current := ⟨fun parser => .parsed parser.curr parser⟩

instance advance : Halting moves Parse.advance := ⟨fun parser => .parsed () parser.advance⟩

instance expect (kind : TokenKind) : Halting moves (Parse.expect kind) where
  halted parser := by
    unfold Parse.expect
    split
    · exact .parsed _ _
    · refine .recorded ?_ _ _
      nofun

theorem failHere {problem : Problem} (other : ∀ kind, problem ≠ .noOperand kind) :
    Halting moves (Parse.failHere problem : Parse α) :=
  ⟨fun parser => .recorded other parser _⟩

instance bind [Orderly AnyDepth step] [first : Halting moves step]
    [second : ∀ result, Halting moves (next result)] : Halting moves (step >>= next) where
  halted parser := by
    have halted := first.halted parser
    have forward := onward step parser
    change Halted moves parser (andThen step next parser)
    unfold andThen
    split
    · next result after ended =>
        rw [ended] at forward
        exact ((second result).halted after).after forward
    · next after ended =>
        rw [ended] at halted
        exact fun _ => halted rfl
    · exact .fault _ _

instance overLimit (limit : Int) : Halting moves (Parse.overLimit limit : Parse α) := by
  unfold Parse.overLimit
  split
  · exact failHere nofun
  · exact ⟨fun parser => .fault _ parser⟩

instance nested (limit : Int) [halting : Halting moves step] :
    Halting moves (Parse.nested limit step) where
  halted parser := by
    have full : Halting moves (Parse.overLimit limit : Parse α) := inferInstance
    unfold Parse.nested
    split
    · exact full.halted parser
    · exact halting.halted { parser with depth := parser.depth + 1 }

/-- A statement's expression is left on the semicolon after it. -/
instance terminated [halting : Halting id step] :
    Halting Window.pastSemicolon (Parse.terminated step) where
  halted parser := by
    have halted := halting.halted parser
    unfold Parse.terminated
    split
    · exact .fault _ _
    · next outcome after _ ended =>
        rw [ended] at halted
        intro failed kind line last
        have recorded : after.diagnostics.getLast? = some ⟨.noOperand kind, line⟩ := by
          rw [← last]
          dsimp only
          split <;> rfl
        obtain ⟨spot, suffix, kinds, lines, rfl⟩ := halted failed kind line recorded
        refine ⟨after.window, suffix, kinds, lines, ?_⟩
        change (if after.window.peek.kind = .semicolon then after.advance else after).window = _
        unfold Window.pastSemicolon
        split <;> rfl

/-- A step that first looks where it stands. -/
theorem look {step : Parser → Parse α} (halting : ∀ parser, Halting moves (step parser)) :
    Halting moves (fun parser => step parser parser : Parse α) where
  halted parser := (halting parser).halted parser

/-- A step that chooses by where it stands. -/
theorem choice {condition : Parser → Prop} [∀ parser, Decidable (condition parser)]
    {first second : Parse α} (left : Halting moves first) (right : Halting moves second) :
    Halting moves
      (fun parser => if condition parser then first parser else second parser : Parse α) where
  halted parser := by
    split
    · exact left.halted parser
    · exact right.halted parser

end Halting

end Parse

/-- Both routines one level deeper halt on a token that starts no operand. -/
class HaltingNested (inner : Nested) : Prop where
  expression : ∀ floor : Nat, Parse.Halting id (inner.expression (.level floor))
  block : Parse.Halting id inner.block

/-! ## The rules -/

namespace Routine

open Parse

variable {inner : Nested}

instance identifier_halting : Halting id identifier := by
  unfold identifier
  infer_instance

instance boolean_halting : Halting id boolean := by
  unfold boolean
  infer_instance

instance integer_halting : Halting id integer := by
  unfold integer
  refine @Halting.bind _ _ _ _ _ _ _ fun token => ?_
  split
  · infer_instance
  · exact .failHere nofun

instance parameter_halting : Halting id parameter := by
  unfold parameter
  infer_instance

instance moreParameters_halting (turns : List Token) (found : List Name) :
    Halting id (moreParameters turns found) := by
  induction turns generalizing found with
  | nil =>
      unfold moreParameters
      infer_instance
  | cons turn turns ih => exact .choice inferInstance inferInstance

instance parameters_halting : Halting id parameters where
  halted parser := by
    unfold parameters
    split
    · exact .parsed _ _
    · exact Halting.bind.halted parser

variable [OrderlyNested AnyDepth inner] [halting : HaltingNested inner]

instance expression_halting (floor : Nat) : Halting id (inner.expression (.level floor)) :=
  halting.expression floor

instance lowest_halting : Halting id (inner.expression .lowest) := halting.expression _

instance block_halting : Halting id inner.block := halting.block

instance prefixed_halting : Halting id (prefixed inner) := by
  unfold prefixed
  infer_instance

instance group_halting : Halting id (group inner) := by
  unfold group
  infer_instance

instance alternative_halting (line : Int) (condition consequence : Node) :
    Halting id (alternative inner line condition consequence) :=
  .choice inferInstance (.pure _)

instance conditional_halting : Halting id (conditional inner) := by
  have later (line : Int) (condition : Node) : Halting id (do
      expect .rightParen
      expect .leftBrace
      let consequence ← inner.block
      alternative inner line condition consequence) := inferInstance
  unfold conditional
  infer_instance

instance function_halting : Halting id (function inner) := by
  unfold function
  infer_instance

instance binary_halting (left : Node) : Halting id (binary inner left) := by
  unfold binary
  infer_instance

instance moreArguments_halting (turns : List Token) (found : List Node) :
    Halting id (moreArguments inner turns found) := by
  induction turns generalizing found with
  | nil =>
      unfold moreArguments
      infer_instance
  | cons turn turns ih => exact .choice inferInstance inferInstance

instance arguments_halting : Halting id (arguments inner) where
  halted parser := by
    unfold arguments
    split
    · exact .parsed _ _
    · exact Halting.bind.halted parser

instance call_halting (callee : Node) : Halting id (call inner callee) := by
  unfold call
  infer_instance

/-- This is where the problem is recorded: the current token starts no operand. -/
instance operand_halting (limit : Int) : Halting id (operand .standard limit inner) where
  halted parser := by
    unfold operand
    split
    · intro _ kind line last
      have same : (⟨.noOperand parser.curr.kind, parser.curr.line⟩ : Diagnostic) =
          ⟨.noOperand kind, line⟩ := by
        simpa [failHere, Parser.recordHere, Parser.record] using last
      cases same
      exact ⟨parser.window, List.suffix_refl _, rfl, rfl, rfl⟩
    · next rule found =>
        rcases Grammar.operand_standard found with
          ⟨-, rfl⟩ | ⟨-, rfl⟩ | ⟨-, rfl⟩ | ⟨-, rfl⟩ | ⟨-, rfl⟩ | ⟨-, rfl⟩ | ⟨-, rfl⟩
        · exact identifier_halting.halted parser
        · exact integer_halting.halted parser
        · exact boolean_halting.halted parser
        · exact group_halting.halted parser
        · exact prefixed_halting.halted parser
        · exact conditional_halting.halted parser
        · exact function_halting.halted parser

theorem asContinuation_halting (left : Node) {kind : TokenKind} {rule : Rule}
    (found : Grammar.standard.continuation kind = some rule) :
    Halting id (asContinuation inner left rule) := by
  rcases Grammar.continuation_standard found with ⟨-, rfl⟩ | ⟨-, rfl⟩
  · exact binary_halting left
  · exact call_halting left

instance climb_halting (floor : Nat) (turns : List Token) (left : Node) :
    Halting id (climb .standard inner (.level floor) turns left) := by
  induction turns generalizing left with
  | nil => exact Halting.pure left
  | cons turn turns ih =>
      refine ⟨fun parser => ?_⟩
      rcases climb_cases floor turn turns left parser with ⟨-, ended⟩ | ⟨rule, -, found, goes⟩
      · rw [ended]
        exact .parsed _ _
      · have orderly : Orderly AnyDepth (asContinuation inner left rule) :=
          asContinuation_orderly inner left found
        have halting : Halting id (asContinuation inner left rule) :=
          asContinuation_halting left found
        rw [goes]
        exact Halting.bind.halted parser

omit halting in
/-- A block fails only at the end of input, whatever its statements do. -/
theorem blockBody_halting (turns : List Token) (nodes : List Node) :
    Halting id (blockBody inner turns nodes) := by
  have ends : Halting id (failHere (.unexpected .rightBrace .eof) : Parse (List Node)) :=
    .failHere nofun
  induction turns generalizing nodes with
  | nil => exact ends
  | cons turn turns ih =>
      refine ⟨fun parser => ?_⟩
      have forward := onward (statement inner) parser
      unfold blockBody
      split
      · exact .parsed _ _
      split
      · exact ends.halted parser
      split
      · next node after ended =>
          rw [ended] at forward
          exact ((ih (node :: nodes)).halted after.advance).after
            (after.window.tokens_advance.trans forward)
      · next after ended =>
          rw [ended] at forward
          split
          · exact .parsed _ _
          · exact ((ih nodes).halted after.advance).after
              (after.window.tokens_advance.trans forward)
      · exact .fault _ _

instance letStatement_halting : Halting Window.pastSemicolon (letStatement inner) := by
  have later (line : Int) (name : Name) : Halting Window.pastSemicolon (do
      expect .assign
      advance
      let value ← terminated (inner.expression .lowest)
      return Node.letStatement line name value) := inferInstance
  unfold letStatement
  infer_instance

instance returnStatement_halting : Halting Window.pastSemicolon (returnStatement inner) := by
  unfold returnStatement
  infer_instance

instance expressionStatement_halting :
    Halting Window.pastSemicolon (expressionStatement inner) := by
  unfold expressionStatement
  infer_instance

instance statement_halting : Halting Window.pastSemicolon (statement inner) where
  halted parser := by
    unfold statement
    split
    · exact letStatement_halting.halted parser
    · exact returnStatement_halting.halted parser
    · exact expressionStatement_halting.halted parser

end Routine

instance nestedRoutines_anyDepth (limit : Int) (levels : Nat) :
    OrderlyNested AnyDepth (nestedRoutines .standard limit levels) :=
  (nestedRoutines_orderly limit levels).mono fun _ _ _ => trivial

/-- On every level of stack the routines one level deeper halt on a token that
starts no operand. -/
instance nestedRoutines_halting (limit : Int) (levels : Nat) :
    HaltingNested (nestedRoutines .standard limit levels) := by
  induction levels with
  | zero => exact ⟨fun _ => ⟨fun parser => .fault _ parser⟩, ⟨fun parser => .fault _ parser⟩⟩
  | succ levels ih =>
      have climbing (floor : Nat) (left : Node) : Parse.Halting id
          (fun parser => Routine.climb .standard (nestedRoutines .standard limit levels)
            (.level floor) parser.tokens left parser : Parse Node) :=
        .look fun parser => Routine.climb_halting floor parser.tokens left
      have forward : Parse.Orderly AnyDepth
          (fun parser => Routine.blockBody (nestedRoutines .standard limit levels)
            parser.tokens [] parser : Parse (List Node)) :=
        .look fun turns => Routine.blockBody_orderly turns []
      have statements : Parse.Halting id
          (fun parser => Routine.blockBody (nestedRoutines .standard limit levels)
            parser.tokens [] parser : Parse (List Node)) :=
        .look fun parser => Routine.blockBody_halting parser.tokens []
      refine ⟨fun floor => @Parse.Halting.nested _ _ _ limit Parse.Halting.bind, ?_⟩
      refine @Parse.Halting.nested _ _ _ limit (@Parse.Halting.bind _ _ _ _ _ _ _ fun token => ?_)
      refine @Parse.Halting.bind _ _ _ _ _ _ _ fun _ => ?_
      exact @Parse.Halting.bind _ _ _ _ _ forward statements fun nodes => inferInstance

/-! ## The turns of a block -/

namespace Routine

open Parse

variable {inner : Nested} {limit : Int} {depth : Nat} {window left middle : Window}
  {nodes : List Node} {recorded found : List Diagnostic}

/-- A block gets from a window to another by whole statements, and goes on there. It
has kept the statements that were read and recorded what was wrong with the others. -/
inductive Passes (inner : Nested) (depth : Nat) (window : Window) :
    Window → List Node → List Diagnostic → Prop where
  | start : Passes inner depth window window [] []
  | kept {left middle : Window} {nodes : List Node} {recorded found : List Diagnostic}
      {node : Node} (before : Passes inner depth window left nodes recorded)
      (opens : left.curr.kind ≠ .rightBrace) (noEnd : left.curr.kind ≠ .eof)
      (ran : Run (statement inner) left depth (.parsed node) middle found) :
      Passes inner depth window middle.advance (nodes ++ [node]) (recorded ++ found)
  | dropped {left middle : Window} {nodes : List Node} {recorded found : List Diagnostic}
      (before : Passes inner depth window left nodes recorded)
      (opens : left.curr.kind ≠ .rightBrace) (noEnd : left.curr.kind ≠ .eof)
      (ran : Run (statement inner) left depth .failed middle found)
      (noBrace : middle.curr.kind ≠ .rightBrace) :
      Passes inner depth window middle.advance nodes (recorded ++ found)

/-- The block's loop, with a turn for every token, comes to the window with turns
enough for what is left, unless that is the last token. -/
def Comes (inner : Nested) (depth : Nat) (window left : Window) (nodes : List Node)
    (recorded : List Diagnostic) : Prop :=
  ∀ turns : List Token, window.tokens.length ≤ turns.length → 1 < left.tokens.length →
    ∃ turns' : List Token, left.tokens.length ≤ turns'.length ∧ ∀ diagnostics,
      blockBody inner turns [] ⟨window, depth, diagnostics⟩ =
        blockBody inner turns' nodes.reverse ⟨left, depth, diagnostics ++ recorded⟩

/-- A turn takes at least one token, so the turns last as long as the tokens do. -/
theorem Comes.turn {nodes' : List Node} (comes : Comes inner depth window left nodes recorded)
    (forward : middle.tokens <:+ left.tokens)
    (turned : ∀ turn turns diagnostics,
      blockBody inner (turn :: turns) nodes.reverse ⟨left, depth, diagnostics⟩ =
        blockBody inner turns nodes'.reverse ⟨middle.advance, depth, diagnostics ++ found⟩) :
    Comes inner depth window middle.advance nodes' (recorded ++ found) := by
  intro turns enough more
  have more' := Nat.lt_of_lt_of_le more (middle.tokens_advance.trans forward).length_le
  have shorter := Window.length_advance_lt forward more'
  obtain ⟨turns', enough', same⟩ := comes turns enough more'
  cases turns' with
  | nil => simp [Window.tokens] at enough'
  | cons turn turns' =>
      rw [List.length_cons] at enough'
      refine ⟨turns', by omega, fun diagnostics => ?_⟩
      rw [same, turned, List.append_assoc]

theorem Passes.comes [OrderlyNested AnyDepth inner]
    (passes : Passes inner depth window left nodes recorded) :
    Comes inner depth window left nodes recorded := by
  induction passes with
  | start =>
      intro turns enough _
      exact ⟨turns, enough, fun diagnostics => by simp⟩
  | kept _ opens noEnd ran ih =>
      refine ih.turn ran.onward fun turn turns diagnostics => ?_
      rw [blockBody_turn opens noEnd ran]
      simp
  | dropped _ opens noEnd ran noBrace ih =>
      refine ih.turn ran.onward fun turn turns diagnostics => ?_
      rw [blockBody_turn opens noEnd ran]
      exact if_neg noBrace

section Failure

variable [OrderlyNested AnyDepth inner]
  (passes : Passes inner depth window left nodes recorded)
  (opens : left.curr.kind ≠ .rightBrace) (noEnd : left.curr.kind ≠ .eof)
  (fails : Run (statement inner) left depth .failed middle found) (more : 1 < left.tokens.length)

include passes opens noEnd fails more

/-- The turn of a statement that fails. -/
theorem Passes.failed : ∃ turns, ∀ diagnostics,
    blockBody inner window.tokens [] ⟨window, depth, diagnostics⟩ =
      if middle.curr.kind = .rightBrace then
        (.parsed nodes, ⟨middle, depth, diagnostics ++ (recorded ++ found)⟩)
      else
        blockBody inner turns nodes.reverse
          ⟨middle.advance, depth, diagnostics ++ (recorded ++ found)⟩ := by
  obtain ⟨turns, enough, same⟩ := passes.comes window.tokens (Nat.le_refl _) more
  cases turns with
  | nil => simp [Window.tokens] at enough
  | cons turn turns =>
      refine ⟨turns, fun diagnostics => ?_⟩
      rw [same, blockBody_turn opens noEnd fails]
      simp

/-- A statement that fails on a closing brace ends the block. -/
theorem Passes.closes (brace : middle.curr.kind = .rightBrace) :
    Run (blockBody inner window.tokens []) window depth (.parsed nodes) middle
      (recorded ++ found) := by
  obtain ⟨turns, turned⟩ := passes.failed opens noEnd fails more
  exact fun diagnostics => (turned diagnostics).trans (if_pos brace)

/-- After one that fails elsewhere, the block ends further on. -/
theorem Passes.goesOn (noBrace : middle.curr.kind ≠ .rightBrace) :
    ∃ outcome final later, Run (blockBody inner window.tokens []) window depth outcome final later ∧
      final.tokens <:+ middle.advance.tokens := by
  obtain ⟨turns, turned⟩ := passes.failed opens noEnd fails more
  have orderly : Orderly AnyDepth (blockBody inner turns nodes.reverse) := inferInstance
  obtain ⟨outcome, final, later, ran, onward, -⟩ := orderly.orders middle.advance depth
  refine ⟨outcome, final, recorded ++ found ++ later, fun diagnostics => ?_, onward⟩
  rw [turned, if_neg noBrace, ran, List.append_assoc]

end Failure

/-- A block is left where its statements end. -/
theorem block_of_body {outcome : Outcome (List Node)} (room : (depth : Int) < limit)
    (ran : Run (blockBody inner window.advance.tokens []) window.advance (depth + 1) outcome left
      found) :
    ∃ ended, Run (block limit inner) window depth ended left found ∧
      ∀ nodes, outcome = .parsed nodes → ended = .parsed (.block window.curr.line nodes) := by
  have body : Run (fun parser => blockBody inner parser.tokens [] parser : Parse (List Node))
      window.advance (depth + 1) outcome left found := ran
  cases outcome with
  | parsed nodes =>
      have ended : Run (do
          let statements ← (fun parser => blockBody inner parser.tokens [] parser :
            Parse (List Node))
          return Node.block window.curr.line statements) window.advance (depth + 1) _ left
          (found ++ []) := body.bind (.pure _)
      rw [List.append_nil] at ended
      refine ⟨_, .nested room (.bind .current (.bind .advance ended)), ?_⟩
      rintro _ ⟨⟩
      rfl
  | failed => exact ⟨_, .nested room (.bind .current (.bind .advance body.bind_failed)), nofun⟩
  | fault cause => exact ⟨_, .nested room (.bind .current (.bind .advance body.bind_fault)), nofun⟩

/-- A statement that fails for want of an operand has found the token that starts
none, and stands on it or on the semicolon after it. -/
theorem statement_halts [OrderlyNested AnyDepth inner] [HaltingNested inner] {kind : TokenKind}
    {line : Int} (fails : Run (statement inner) left depth .failed middle
      (found ++ [⟨.noOperand kind, line⟩])) :
    ∃ spot : Window, spot.tokens <:+ left.tokens ∧ spot.curr.kind = kind ∧
      spot.curr.line = line ∧ middle = spot.pastSemicolon := by
  have halting : Halting Window.pastSemicolon (statement inner) := inferInstance
  have halted := halting.halted ⟨left, depth, []⟩
  rw [fails] at halted
  exact halted rfl kind line (by simp)

end Routine

/-- **The brace that closes a block.** A block has come to a statement that fails
because an expression should start on the closing brace. If no semicolon follows the
brace, the block ends there, with the statements it has kept, and records nothing more.
If one does, the block is left behind the brace, however it ends. -/
theorem block_closes {limit : Int} {levels depth : Nat} {window left after : Window}
    {nodes : List Node} {recorded earlier : List Diagnostic} {line : Int}
    (room : (depth : Int) < limit)
    (passes : Routine.Passes (nestedRoutines .standard limit levels) (depth + 1) window.advance
      left nodes recorded)
    (opens : left.curr.kind ≠ .rightBrace) (noEnd : left.curr.kind ≠ .eof)
    (fails : Parse.Run (Routine.statement (nestedRoutines .standard limit levels)) left (depth + 1)
      .failed after (earlier ++ [⟨.noOperand .rightBrace, line⟩])) :
    ∃ brace : Window, brace.tokens <:+ left.tokens ∧ brace.curr.kind = .rightBrace ∧
      brace.curr.line = line ∧ after = brace.pastSemicolon ∧
      (brace.peek.kind ≠ .semicolon →
        Parse.Run (nestedRoutines .standard limit (levels + 1)).block window depth
          (.parsed (.block window.curr.line nodes)) brace
          (recorded ++ (earlier ++ [⟨.noOperand .rightBrace, line⟩]))) ∧
      (brace.peek.kind = .semicolon → ∀ outcome final found,
        Parse.Run (nestedRoutines .standard limit (levels + 1)).block window depth outcome final
          found → final.tokens.length < brace.tokens.length) := by
  obtain ⟨brace, onward, closes, onLine, rfl⟩ := Routine.statement_halts fails
  -- The brace lies ahead of the statement's first token, so turns are left for it.
  have more := Window.more_of_suffix onward fun same => opens (same ▸ closes)
  refine ⟨brace, onward, closes, onLine, rfl, fun alone => ?_, fun semicolon => ?_⟩
  · have stays : brace.pastSemicolon = brace := if_neg alone
    rw [stays] at fails
    obtain ⟨ended, ran, parsed⟩ :=
      Routine.block_of_body room (passes.closes opens noEnd fails more closes)
    rw [parsed nodes rfl] at ran
    exact ran
  · intro outcome final found ran
    have steps : brace.pastSemicolon = brace.advance := if_pos semicolon
    have stands : brace.advance.curr.kind = .semicolon := by rw [brace.advance_curr, semicolon]
    have noBrace : brace.advance.curr.kind ≠ .rightBrace := by
      rw [stands]
      nofun
    rw [steps] at fails
    obtain ⟨_, final', later, body, behind⟩ := passes.goesOn opens noEnd fails more noBrace
    obtain ⟨ended, ran', -⟩ := Routine.block_of_body room body
    obtain rfl : final = final' := ran.left_unique ran'
    have shorter := Window.length_advance_lt (List.suffix_refl brace.tokens)
      (Window.more_of_suffix brace.tokens_advance fun same => noBrace (same ▸ closes))
    have further := (behind.trans brace.advance.tokens_advance).length_le
    omega

/-- A binding and an unfinished product in a function that is called: the block ends
at its brace, and the call can go on from there. -/
theorem block_closes_product :
    let behind : List Token := [⟨.rightBrace, "\x7d", 1⟩, ⟨.leftParen, "(", 1⟩,
      ⟨.rightParen, ")", 1⟩, ⟨.eof, "", 1⟩]
    let product : List Token := ⟨.identifier, "a", 1⟩ :: ⟨.product, "*", 1⟩ :: behind
    let window : Window := .ofTokens (⟨.leftBrace, "\x7b", 1⟩ :: ⟨.letKeyword, "let", 1⟩ ::
      ⟨.identifier, "b", 1⟩ :: ⟨.assign, "=", 1⟩ :: ⟨.identifier, "c", 1⟩ ::
      ⟨.semicolon, ";", 1⟩ :: product)
    Parse.Run (nestedRoutines .standard 3 3).block window 0
      (.parsed (.block 1 [.letStatement 1 ⟨"b", 1⟩ (.identifier ⟨"c", 1⟩)])) (.ofTokens behind)
      [⟨.noOperand .rightBrace, 1⟩] := by
  intro behind product window
  have kept : Parse.Run (Routine.statement (nestedRoutines .standard 3 2)) window.advance 1
      (.parsed (.letStatement 1 ⟨"b", 1⟩ (.identifier ⟨"c", 1⟩)))
      (.ofTokens (⟨.semicolon, ";", 1⟩ :: product)) [] := .silent fun _ => rfl
  have passes : Routine.Passes (nestedRoutines .standard 3 2) 1 window.advance (.ofTokens product)
      [.letStatement 1 ⟨"b", 1⟩ (.identifier ⟨"c", 1⟩)] [] :=
    .kept .start (by decide) (by decide) kept
  have fails : Parse.Run (Routine.statement (nestedRoutines .standard 3 2)) (.ofTokens product) 1
      .failed (.ofTokens behind) ([] ++ [⟨.noOperand .rightBrace, 1⟩]) := fun _ => rfl
  have room : ((0 : Nat) : Int) < 3 := by decide
  obtain ⟨brace, -, -, -, stands, ends, -⟩ :=
    block_closes room passes (by decide) (by decide) fails
  have alone : brace.peek.kind ≠ .semicolon := by
    intro semicolon
    rw [Window.pastSemicolon, if_pos semicolon] at stands
    have kinds := congrArg (·.curr.kind) stands
    rw [brace.advance_curr, semicolon] at kinds
    cases kinds
  rw [Window.pastSemicolon, if_neg alone] at stands
  rw [stands]
  exact ends alone

/-- A sum without its right operand, and a semicolon after the brace: the brace does
not close the block, which is then never closed. -/
theorem brace_before_semicolon_passed :
    ¬ ∀ (limit : Int) (levels depth : Nat) (window left after : Window) (nodes : List Node)
      (recorded earlier : List Diagnostic) (line : Int), (depth : Int) < limit →
      Routine.Passes (nestedRoutines .standard limit levels) (depth + 1) window.advance left nodes
        recorded →
      left.curr.kind ≠ .rightBrace → left.curr.kind ≠ .eof →
      Parse.Run (Routine.statement (nestedRoutines .standard limit levels)) left (depth + 1)
        .failed after (earlier ++ [⟨.noOperand .rightBrace, line⟩]) →
      ∃ brace : Window, brace.curr.kind = .rightBrace ∧ brace.curr.line = line ∧
        Parse.Run (nestedRoutines .standard limit (levels + 1)).block window depth
          (.parsed (.block window.curr.line nodes)) brace
          (recorded ++ (earlier ++ [⟨.noOperand .rightBrace, line⟩])) := by
  intro claimed
  let sum : List Token := [⟨.identifier, "a", 1⟩, ⟨.plus, "+", 1⟩, ⟨.rightBrace, "\x7d", 1⟩,
    ⟨.semicolon, ";", 1⟩, ⟨.identifier, "b", 1⟩, ⟨.eof, "", 1⟩]
  have fails : Parse.Run (Routine.statement (nestedRoutines .standard 3 2)) (.ofTokens sum) 1
      .failed (.ofTokens (sum.drop 3)) ([] ++ [⟨.noOperand .rightBrace, 1⟩]) := fun _ => rfl
  obtain ⟨brace, -, -, ran⟩ := claimed 3 2 0 (.ofTokens (⟨.leftBrace, "\x7b", 1⟩ :: sum))
    (.ofTokens sum) _ [] [] _ _ (by decide) .start (by decide) (by decide) fails
  cases congrArg Prod.fst (ran [])

end ExprLang
