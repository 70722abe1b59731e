/-
# ExprLang.Proofs.Parser.Ending — parsing ends with the tokens, whatever the limit

A rule takes a token before it goes deeper. So the expressions and blocks inside of one
have fewer tokens left than it has, until only the end of input is left; there an
expression finds no operand and a block finds no statement, and neither goes deeper. The
nesting limit has no part in this: with a level of stack for each token, what is below
does not matter (`routines_within`), and the stack never runs out.

Then every loop moves forward. A statement may fail where it started, but the program and
the block that it stands in go on behind it, and only at the end of input there is
nothing behind. A block that meets the end of input ends there with a failure, and so
does every block around it.
-/
import ExprLang.Proofs.Parser.Loops

namespace ExprLang

set_option autoImplicit false

/-! ## Windows with so many tokens -/

namespace Window

variable {window : Window} {count : Nat}

/-- The input ends within so many tokens. -/
def Within (count : Nat) (window : Window) : Prop :=
  window.Closed ∧ window.tokens.length ≤ count

instance within_onward (count : Nat) : Onward (Within count) :=
  ⟨fun inside onward => ⟨inside.1.of_suffix onward, Nat.le_trans onward.length_le inside.2⟩⟩

theorem Within.some (inside : window.Within count) : 0 < count :=
  Nat.lt_of_lt_of_le (Nat.succ_pos _) inside.2

/-- A token that is taken is one less, as long as there are two. -/
theorem stage_within (some : 0 < count) : Stage (Within (count + 1)) (Within count) where
  taken {window} inside := by
    refine ⟨inside.1.of_suffix window.tokens_advance, ?_⟩
    have shorter := inside.2
    have advanced := window.length_advance
    simp only [tokens, List.length_cons] at shorter ⊢
    omega
  within inside := ⟨inside.1, Nat.le_succ_of_le inside.2⟩

/-- Before a token that does not end the input, there are two. -/
theorem Closed.more_of_peek (closed : window.Closed) (noEnd : window.peek.kind ≠ .eof) :
    1 < window.tokens.length := by
  obtain ⟨curr, ahead⟩ := window
  cases ahead with
  | nil => exact closed.more noEnd
  | cons next rest => simp [tokens]

/-- A single token is the end of input. -/
theorem Within.ends (inside : window.Within 1) :
    window.curr.kind = .eof ∧ window.peek.kind = .eof := by
  have single : ¬ 1 < window.tokens.length := Nat.not_lt.2 inside.2
  exact ⟨Decidable.byContradiction fun noEnd => single (inside.1.more noEnd),
    Decidable.byContradiction fun noEnd => single (inside.1.more_of_peek noEnd)⟩

end Window

open Window Parse

/-! ## Nesting -/

namespace Grammar

variable {inner inner' : Nested}

/-- The standard tables have agreeing handlers over routines that agree beyond a token. -/
theorem agree_standard {here beyond : Window → Prop} [Onward here] [Onward beyond]
    (stage : Stage here beyond) (limit : Int) (nested : AgreeNested beyond inner inner') :
    AgreeHandlers here beyond (standard.handlers limit) (standard.handlers limit) inner inner' where
  operand window _ := by
    dsimp only [handlers]
    cases found : standard.operand window.curr.kind with
    | none => exact .none
    | some rule => exact .some (nested.asOperand_standard stage limit found)
  continuation window _ _ := by
    dsimp only [handlers]
    cases standard.continuation window.peek.kind with
    | none => exact .none
    | some rule => exact .some fun left => nested.asContinuation left rule

/-- At the end of input they lead nowhere. -/
theorem agree_end (limit : Int) (inner inner' : Nested) :
    AgreeHandlers (Within 1) (Within 1) (standard.handlers limit) (standard.handlers limit)
      inner inner' where
  operand window inside := by
    rw [inside.ends.1]
    exact .none
  continuation window inside ranked := by
    rw [inside.ends.2] at ranked
    exact absurd ranked (Nat.lt_irrefl _)

/-- **An expression or a block goes deeper only on fewer tokens.** On the end of input
alone it does not go deeper. -/
theorem above_within (limit : Int) (count : Nat)
    (nested : 0 < count → AgreeNested (Within count) inner inner') :
    AgreeNested (Within (count + 1)) ((standard.handlers limit).above limit inner)
      ((standard.handlers limit).above limit inner') := by
  rcases Nat.eq_zero_or_pos count with rfl | some
  · have alike := agree_end limit inner inner'
    have reads : AgreeStatements (Within 1) inner inner' :=
      fun _ inside => absurd inside.1.ends.1 inside.2
    exact ⟨fun _ standing => alike.expressionBy (.same _) limit standing,
      reads.block limit (.same _)⟩
  · have stage := stage_within some
    have alike := agree_standard stage limit (nested some)
    exact ⟨fun _ standing => alike.expressionBy stage limit standing,
      (nested some).statements.block limit stage⟩

/-- With a level for each token it does not matter what is below. -/
theorem routines_within (limit : Int) (bottom bottom' : Nested) {count levels levels' : Nat}
    (some : 0 < count) (enough : count ≤ levels) (enough' : count ≤ levels') :
    AgreeNested (Within count) ((standard.handlers limit).routines limit bottom levels)
      ((standard.handlers limit).routines limit bottom' levels') := by
  induction count generalizing levels levels' with
  | zero => exact absurd some (Nat.lt_irrefl 0)
  | succ count ih =>
      cases levels with
      | zero => omega
      | succ levels =>
          cases levels' with
          | zero => omega
          | succ levels' =>
              exact above_within limit count fun some =>
                ih some (Nat.le_of_succ_le_succ enough) (Nat.le_of_succ_le_succ enough')

end Grammar

/-! ## The stack does not run out -/

section

variable {limit : Int} {levels : Nat} {window : Window}

/-- With a level for each token, a statement may only break off as it does on any other
number of levels that is as large. -/
theorem Routine.short_within {count levels' : Nat} {depth : Nat} {cause : ParseFault}
    {left : Window} {found : List Diagnostic} (inside : window.Within count)
    (enough : count ≤ levels) (enough' : count ≤ levels')
    (ran : Run (statement (nestedRoutines .standard limit levels)) window depth (.fault cause) left
      found) : Short limit levels' depth cause := by
  have orderly : Orderly (Short limit levels')
      (statement (nestedRoutines .standard limit levels')) := inferInstance
  obtain ⟨outcome, left', found', ran', -, short⟩ := orderly.orders window depth
  have agree : AgreeNested (Within count) (nestedRoutines .standard limit levels)
      (nestedRoutines .standard limit levels') := by
    rw [← Grammar.routines_handlers, ← Grammar.routines_handlers]
    exact Grammar.routines_within limit _ _ inside.some enough enough'
  have same := (agree.statement ⟨window, depth, []⟩ inside).1
  rw [ran, ran'] at same
  exact short cause (congrArg Prod.fst same)

/-- A statement moves forward. It does not break off, but by a limit that it passes and
that cannot be written. -/
theorem Routine.statement_within (inside : window.Within levels) (depth : Nat) :
    Orders (fun depth cause => Unnamed limit (depth + window.tokens.length) ∧ cause = .tooLong)
      (statement (nestedRoutines .standard limit levels)) window depth := by
  have orderly : Orderly (Short limit levels) (statement (nestedRoutines .standard limit levels)) :=
    inferInstance
  obtain ⟨outcome, left, found, ran, onward, -⟩ := orderly.orders window depth
  refine ⟨outcome, left, found, ran, onward, ?_⟩
  rintro cause rfl
  have least : window.Within window.tokens.length := ⟨inside.1, Nat.le_refl _⟩
  -- A limit that lets a parser pass a level for each token does not let it pass this many.
  have more : Short limit (max levels (limit.toNat + 1)) depth cause :=
    short_within inside (Nat.le_refl _) (Nat.le_max_left _ _) ran
  cases short_within least inside.2 (Nat.le_refl _) ran with
  | unnamed passed => exact ⟨passed, rfl⟩
  | noStack none => exact absurd none (Nat.succ_ne_zero _)
  | stack passes =>
      cases more with
      | noStack none => omega
      | stack passes => omega

/-- The statements of a program end at the end of input. -/
theorem Routine.programBody_within (turns : List Token) (nodes : List Node) (depth : Nat)
    (diagnostics : List Diagnostic) (inside : window.Within levels)
    (enough : window.tokens.length ≤ turns.length) :
    ∃ outcome left, programBody limit (nestedRoutines .standard limit levels) turns nodes
        ⟨window, depth, diagnostics⟩ = (outcome, left) ∧
      ((∃ kept, outcome = .parsed kept) ∧ left.curr.kind = .eof ∨
        Unnamed limit (depth + window.tokens.length) ∧ outcome = .fault .tooLong) := by
  induction turns generalizing nodes window diagnostics with
  | nil => simp [Window.tokens] at enough
  | cons turn turns ih =>
      by_cases ends : window.curr.kind = .eof
      · exact ⟨_, _, programBody_ends ends diagnostics, .inl ⟨⟨_, rfl⟩, ends⟩⟩
      obtain ⟨outcome, middle, found, ran, onward, unbroken⟩ :=
        @statement_within limit levels window inside depth
      rcases outcome.breaks_or_ends with ⟨cause, rfl⟩ | ended
      · obtain ⟨passed, rfl⟩ := unbroken cause rfl
        have other : ParseFault.tooLong ≠ .stackExhausted := by decide
        exact ⟨_, _, programBody_fault ends other ran diagnostics, .inr ⟨passed, rfl⟩⟩
      obtain ⟨later, shorter⟩ := advance_laterThan onward (inside.1.more ends)
      rw [programBody_turn ends ran ended]
      rw [List.length_cons] at enough
      obtain ⟨final, left, parsed, stops⟩ :=
        ih (outcome.kept ++ nodes) (diagnostics ++ found) (Onward.kept inside later) (by omega)
      exact ⟨final, left, parsed, stops.imp_right fun broken =>
        ⟨broken.1.mono (by omega), broken.2⟩⟩

end

/-! ## The loops move forward -/

namespace Loop

open Routine

variable {limit : Int} {levels : Nat} {parser : Parser}

theorem program_moves (inside : parser.window.Within levels) :
    (program limit (nestedRoutines .standard limit levels)).Moves limit parser := by
  intro found enters
  obtain ⟨window, depth, diagnostics⟩ := parser
  have noEnd : window.curr.kind ≠ .eof := of_decide_eq_true enters
  obtain ⟨outcome, middle, recorded, ran, onward, unbroken⟩ :=
    @statement_within limit levels window inside depth
  have later := advance_laterThan onward (inside.1.more noEnd)
  dsimp only [program]
  rw [ran]
  cases outcome with
  | parsed node => exact .inl later
  | failed => exact .inl later
  | fault cause =>
      obtain ⟨passed, rfl⟩ := unbroken cause rfl
      exact .inr (.inr ⟨passed, rfl⟩)

/-- A statement that stopped on the closing brace did not start there. -/
theorem block_moves (inside : parser.window.Within levels) :
    (block (nestedRoutines .standard limit levels)).Moves limit parser := by
  intro found enters
  obtain ⟨window, depth, diagnostics⟩ := parser
  have opens : window.curr.kind ≠ .rightBrace := of_decide_eq_true enters
  dsimp only [block]
  split
  · next ends => exact .inr (.inl ⟨ends, _, rfl⟩)
  next noEnd =>
  obtain ⟨outcome, middle, recorded, ran, onward, unbroken⟩ :=
    @statement_within limit levels window inside depth
  have later := advance_laterThan onward (inside.1.more noEnd)
  rw [ran]
  cases outcome with
  | parsed node => exact .inl later
  | failed =>
      dsimp only
      split
      · next closes =>
          refine .inl ⟨onward, Nat.lt_of_le_of_ne onward.length_le fun same => opens ?_⟩
          have stays : middle.tokens = window.tokens := onward.eq_of_length same
          rw [← (List.cons.inj stays).1]
          exact closes
      · exact .inl later
  | fault cause =>
      obtain ⟨passed, rfl⟩ := unbroken cause rfl
      exact .inr (.inr ⟨passed, rfl⟩)

/-- Behind a token that is taken a loop only has to stay in order. -/
theorem moves_of_taken {σ α β : Type} {short : Nat → ParseFault → Prop} {body : Parse α} (grow : α → σ)
    (orderly : Orderly short body) (more : 1 < parser.window.tokens.length) :
    (Pass.ofBody grow (body parser.advance) : Pass σ β × Parser).2.window.LaterThan
      parser.window := by
  obtain ⟨window, depth, diagnostics⟩ := parser
  obtain ⟨taken, shorter⟩ := advance_laterThan (List.suffix_refl window.tokens) more
  obtain ⟨outcome, left, found, ran, onward, -⟩ := orderly.orders window.advance depth
  have ended : body (⟨window, depth, diagnostics⟩ : Parser).advance = _ := ran diagnostics
  rw [ended]
  have later : left.LaterThan window :=
    ⟨onward.trans taken, Nat.lt_of_le_of_lt onward.length_le shorter⟩
  cases outcome <;> exact later

theorem commas_moves {γ : Type} {short : Nat → ParseFault → Prop} {item : Parse γ}
    (orderly : Orderly short item) (closed : parser.window.Closed) :
    (commas item).Moves limit parser := by
  intro found enters
  have comma : parser.window.peek.kind = .comma := of_decide_eq_true enters
  exact .inl (moves_of_taken _ orderly (closed.more_of_peek (by rw [comma]; nofun)))

theorem parameters_moves (closed : parser.window.Closed) : parameters.Moves limit parser :=
  commas_moves (@parameter_orderly fun _ _ => False) closed

theorem arguments_moves (closed : parser.window.Closed) :
    (arguments (nestedRoutines .standard limit levels)).Moves limit parser := by
  have orderly : Orderly (Short limit levels) (do
      advance
      (nestedRoutines .standard limit levels).expression .lowest) := inferInstance
  exact commas_moves orderly closed

theorem operators_moves (floor : Nat) (closed : parser.window.Closed) :
    (operators (nestedRoutines .standard limit levels) floor).Moves limit parser := by
  intro left enters
  have goes := enters_operators_iff.1 enters
  have noEnd : parser.window.peek.kind ≠ .eof := fun ends =>
    goes (.inr (.inr (congrArg Grammar.standard.continuation ends)))
  dsimp only [operators]
  split
  · next none => exact absurd (.inr (.inr none)) goes
  · next rule found =>
      have orderly : Orderly (Short limit levels)
          (asContinuation (nestedRoutines .standard limit levels) left rule) :=
        asContinuation_orderly _ left found
      exact .inl (moves_of_taken id orderly (closed.more_of_peek noEnd))

/-- The rule goes round in the loop; from this parser a pass moves forward or ends it at
the end of input, and a turn for each token is as good as any number of them. -/
structure Governs {σ β : Type} (limit : Int) (loop : Loop σ β) (rule : List Token → σ → Parse β)
    (parser : Parser) : Prop where
  runs : ∃ spent, rule = loop.run spent
  moves : loop.Moves limit parser
  enough : ∀ turns state, parser.window.tokens.length ≤ turns.length →
    rule turns state parser = rule parser.window.tokens state parser

theorem governs {σ β : Type} {limit : Int} {loop : Loop σ β} {rule : List Token → σ → Parse β}
    {spent : σ → Parse β} (runs : ∀ turns state, rule turns state = loop.run spent turns state)
    {domain : Window → Prop} [Onward domain]
    (moves : ∀ parser, domain parser.window → loop.Moves limit parser) {parser : Parser}
    (inside : domain parser.window) : loop.Governs limit rule parser where
  runs := ⟨spent, funext fun turns => funext fun state => runs turns state⟩
  moves := moves parser inside
  enough turns state enough := by
    rw [runs, runs]
    exact run_enough moves turns _ state inside enough (Nat.le_refl _)

/-- Each loop of the rules governs its rule. -/
structure GovernAll (limit : Int) (inner : Nested) (parser : Parser) : Prop where
  program : (Loop.program limit inner).Governs limit (programBody limit inner) parser
  block : (Loop.block inner).Governs limit (blockBody inner) parser
  parameters : Loop.parameters.Governs limit moreParameters parser
  arguments : (Loop.arguments inner).Governs limit (moreArguments inner) parser
  operators : ∀ floor : Nat,
    (Loop.operators inner floor).Governs limit (climb .standard inner (.level floor)) parser

theorem governAll (limit : Int) (inside : parser.window.Within levels) :
    GovernAll limit (nestedRoutines .standard limit levels) parser where
  program := governs (programBody_run limit _) (fun _ => program_moves) inside
  block := governs (blockBody_run _) (fun _ => block_moves) inside
  parameters := governs moreParameters_run (fun _ inside => parameters_moves inside.1) inside
  arguments := governs (moreArguments_run _) (fun _ inside => arguments_moves inside.1) inside
  operators floor := governs (climb_run _ floor)
    (fun _ inside => operators_moves floor inside.1) inside

end Loop

/-! ## Parsing ends -/

/-- Parsing the tokens ends, and the nesting limit is not needed for it. -/
structure ParseEnds (limit : Int) (tokens : List Token) : Prop where
  /-- There is a program, and the parser then stands on an end of input; unless the limit
  is one that cannot be written and that is passed on as many levels as there are tokens. -/
  stops : ∀ levels, tokens.length ≤ levels → ∃ outcome parser,
    parseProgram .standard limit levels (.ofTokens tokens) = (outcome, parser) ∧
      ((∃ statements, outcome = .parsed (.program statements)) ∧ parser.curr.kind = .eof ∨
        Unnamed limit tokens.length ∧ outcome = .fault .tooLong)
  /-- Expressions and blocks are no more levels deep than there are tokens: below that
  many, any routines may be put in. -/
  nesting : ∀ levels bottom, tokens.length ≤ levels →
    Routine.program limit
        ((Grammar.standard.handlers limit).routines limit bottom tokens.length)
        (.ofTokens tokens) =
      parseProgram .standard limit levels (.ofTokens tokens)
  /-- What goes deeper has fewer tokens left. -/
  descends : ∀ count inner inner', (0 < count → AgreeNested (Within count) inner inner') →
    AgreeNested (Within (count + 1)) ((Grammar.standard.handlers limit).above limit inner)
      ((Grammar.standard.handlers limit).above limit inner')
  /-- Each pass through a loop moves forward or ends the loop at the end of input, on every
  level: as what goes deeper has fewer tokens left, there remain levels for all of them. -/
  loops : ∀ levels parser, parser.window.tokens <:+ tokens →
    parser.window.tokens.length ≤ levels →
      Loop.GovernAll limit (nestedRoutines .standard limit levels) parser

/-- **Parsing always ends.** Whatever the nesting limit, tokens that are closed by an end
of input are parsed to a program, and the parser then stands on an end of input. Every
pass through a loop moves forward or ends its loop at the end of input, and expressions
and blocks are nested no deeper than there are tokens. All that breaks this off is a limit
that has to be reported and cannot be written. -/
theorem parseProgram_ends (limit : Int) {tokens : List Token}
    (closed : ∃ last, tokens.getLast? = some last ∧ last.kind = .eof) :
    ParseEnds limit tokens := by
  have some : tokens ≠ [] := by
    rintro rfl
    obtain ⟨last, lasts, -⟩ := closed
    cases lasts
  have same : (Window.ofTokens tokens).tokens = tokens := tokens_ofTokens some
  have whole : (Window.ofTokens tokens).Closed := by rwa [Window.Closed, same]
  have count : (Window.ofTokens tokens).tokens.length = tokens.length := by rw [same]
  refine ⟨fun levels enough => ?_, fun levels bottom enough => ?_,
    fun count _ _ => Grammar.above_within limit count, fun levels parser onward enough => ?_⟩
  · have inside : (Window.ofTokens tokens).Within levels := ⟨whole, count ▸ enough⟩
    obtain ⟨outcome, left, body, stops⟩ := @Routine.programBody_within limit levels _
      (Window.ofTokens tokens).tokens [] 0 [] inside (Nat.le_refl _)
    have parsed := Routine.program_eq limit (nestedRoutines .standard limit levels)
      (.ofTokens tokens)
    change Routine.programBody _ _ (Parser.ofTokens tokens).tokens [] (.ofTokens tokens) = _ at body
    rw [body] at parsed
    refine ⟨outcome.map .program, left, parsed, ?_⟩
    rcases stops with ⟨⟨kept, rfl⟩, ends⟩ | ⟨passed, rfl⟩
    · exact .inl ⟨⟨kept, rfl⟩, ends⟩
    · exact .inr ⟨passed.mono (by omega), rfl⟩
  · have inside : (Window.ofTokens tokens).Within tokens.length := ⟨whole, Nat.le_of_eq count⟩
    have agree := Grammar.routines_within limit .exhausted bottom inside.some enough (Nat.le_refl _)
    rw [Grammar.routines_handlers] at agree
    exact (agree.statements.program limit (.ofTokens tokens) inside).1
  · exact Loop.governAll limit ⟨whole.of_suffix (same.symm ▸ onward), enough⟩

/-- Two blocks that are not closed, under a limit that no parser reaches. -/
theorem parseProgram_ends_unclosed :
    let tokens : List Token := [⟨.functionKeyword, "fn", 1⟩, ⟨.leftParen, "(", 1⟩,
      ⟨.rightParen, ")", 1⟩, ⟨.leftBrace, "\x7b", 1⟩, ⟨.ifKeyword, "if", 2⟩,
      ⟨.leftParen, "(", 2⟩, ⟨.identifier, "a", 2⟩, ⟨.rightParen, ")", 2⟩,
      ⟨.leftBrace, "\x7b", 2⟩, ⟨.letKeyword, "let", 3⟩, ⟨.eof, "", 3⟩]
    (∃ last, tokens.getLast? = some last ∧ last.kind = .eof) ∧ ParseEnds 1000000000 tokens := by
  intro tokens
  have closed : ∃ last, tokens.getLast? = some last ∧ last.kind = .eof :=
    ⟨⟨.eof, "", 3⟩, rfl, rfl⟩
  exact ⟨closed, parseProgram_ends 1000000000 closed⟩

end ExprLang
