/-
# ExprLang.Proofs.Parser.Resume — parsing resumes after a semicolon

Statements are contained before their semicolon, and a program starts the next
one right after it, outside of every nesting. So what stands before a semicolon
and what comes after it are parsed as if they were two texts
(`parseProgram_resumes`), and a failure in the one is no concern of the other.
-/
import ExprLang.Proofs.Parser.Contained

namespace ExprLang

set_option autoImplicit false

/-- What a program keeps of a statement. -/
def Outcome.kept : Outcome Node → List Node
  | .parsed node => [node]
  | .failed | .fault _ => []

/-- A result, or the fault in its place. -/
def Outcome.ofExcept {α : Type} : Except ParseFault α → Outcome α
  | .ok result => .parsed result
  | .error cause => .fault cause

theorem Outcome.reverse_kept (outcome : Outcome Node) : outcome.kept.reverse = outcome.kept := by
  cases outcome <;> rfl

namespace Window

variable {window middle : Window}

/-- The last token of the window is an end of input. -/
def Closed (window : Window) : Prop :=
  ∃ last, window.tokens.getLast? = some last ∧ last.kind = .eof

theorem Closed.of_suffix (closed : window.Closed) (onward : middle.tokens <:+ window.tokens) :
    middle.Closed := by
  obtain ⟨last, lasts, eof⟩ := closed
  obtain ⟨passed, same⟩ := onward
  refine ⟨last, ?_, eof⟩
  have some : middle.tokens ≠ [] := List.cons_ne_nil _ _
  rw [← same, List.getLast?_append, List.getLast?_eq_some_getLast some] at lasts
  rwa [List.getLast?_eq_some_getLast some]

/-- Something follows on a token that does not end the input. -/
theorem Closed.more (closed : window.Closed) (noEnd : window.curr.kind ≠ .eof) :
    1 < window.tokens.length := by
  obtain ⟨curr, ahead⟩ := window
  obtain ⟨last, lasts, eof⟩ := closed
  cases ahead with
  | nil =>
      cases lasts
      exact absurd eof noEnd
  | cons next rest => simp [tokens]

theorem length_advance_lt (onward : middle.tokens <:+ window.tokens)
    (more : 1 < window.tokens.length) :
    middle.advance.tokens.length < window.tokens.length := by
  have shorter := onward.length_le
  have advanced := middle.length_advance
  simp only [tokens, List.length_cons] at shorter more ⊢
  omega

end Window

namespace Routine

open Parse

variable {inner : Nested} {limit : Int} {turn : Token} {turns : List Token} {nodes : List Node}
  {window middle : Window} {depth : Nat} {outcome : Outcome Node} {found : List Diagnostic}

/-- A program ends with the input. -/
theorem programBody_ends (ends : window.curr.kind = .eof) :
    Run (programBody limit inner turns nodes) window depth (.parsed nodes.reverse) window [] := by
  cases turns with
  | nil => exact .pure _
  | cons turn turns => exact .silent fun _ => if_pos ends

/-- A program goes on after a statement that did not break off. -/
theorem programBody_turn (noEnd : window.curr.kind ≠ .eof)
    (ran : Run (statement inner) window depth outcome middle found)
    (ended : ∀ cause, outcome ≠ .fault cause) (diagnostics : List Diagnostic) :
    programBody limit inner (turn :: turns) nodes ⟨window, depth, diagnostics⟩ =
      programBody limit inner turns (outcome.kept ++ nodes)
        ⟨middle.advance, depth, diagnostics ++ found⟩ := by
  refine (if_neg noEnd).trans ?_
  rw [ran]
  cases outcome with
  | fault cause => exact absurd rfl (ended cause)
  | _ => rfl

/-- It ends with a statement for which the stack is too short. -/
theorem programBody_exhausted (noEnd : window.curr.kind ≠ .eof) (named : Decimal.Writable limit)
    (ran : Run (statement inner) window depth (.fault .stackExhausted) middle found) :
    Run (programBody limit inner (turn :: turns) nodes) window depth (.parsed nodes.reverse) middle
      (found ++ [⟨.tooNested limit, middle.curr.line⟩]) := by
  intro diagnostics
  refine (if_neg noEnd).trans ?_
  rw [ran, ← List.append_assoc]
  exact if_pos named

/-- It breaks off there if the limit cannot be written. -/
theorem programBody_unnamed (noEnd : window.curr.kind ≠ .eof) (long : ¬ Decimal.Writable limit)
    (ran : Run (statement inner) window depth (.fault .stackExhausted) middle found) :
    Run (programBody limit inner (turn :: turns) nodes) window depth (.fault .tooLong) middle
      found := by
  intro diagnostics
  refine (if_neg noEnd).trans ?_
  rw [ran]
  exact if_neg long

/-- Any other fault of a statement is one of the program. -/
theorem programBody_fault {cause : ParseFault} (noEnd : window.curr.kind ≠ .eof)
    (other : cause ≠ .stackExhausted)
    (ran : Run (statement inner) window depth (.fault cause) middle found) :
    Run (programBody limit inner (turn :: turns) nodes) window depth (.fault cause) middle
      found := by
  intro diagnostics
  refine (if_neg noEnd).trans ?_
  rw [ran]
  cases cause with
  | stackExhausted => exact absurd rfl other
  | _ => rfl

/-- A statement that breaks off ends the program in some way, which does not depend on
what was read before. -/
theorem programBody_broken (inner : Nested) (limit : Int) {cause : ParseFault}
    (noEnd : window.curr.kind ≠ .eof)
    (ran : Run (statement inner) window depth (.fault cause) middle found) :
    ∃ (ended : Except ParseFault (List Node)) (left : List Diagnostic), ∀ turn turns nodes,
      Run (programBody limit inner (turn :: turns) nodes) window depth
        (.ofExcept (ended.map (nodes.reverse ++ ·))) middle left := by
  by_cases stack : cause = .stackExhausted
  · subst stack
    by_cases named : Decimal.Writable limit
    · refine ⟨.ok [], found ++ [⟨.tooNested limit, middle.curr.line⟩], fun turn turns nodes => ?_⟩
      rw [Except.map, List.append_nil]
      exact programBody_exhausted noEnd named ran
    · exact ⟨.error .tooLong, found, fun _ _ _ => programBody_unnamed noEnd named ran⟩
  · exact ⟨.error cause, found, fun _ _ _ => programBody_fault noEnd stack ran⟩

/-- Some statement of the program breaks off because the stack runs out. -/
inductive Exhausts (inner : Nested) : Parser → Prop where
  | here {parser : Parser} (noEnd : parser.curr.kind ≠ .eof)
      (breaks : (statement inner parser).1 = .fault .stackExhausted) : Exhausts inner parser
  | later {parser : Parser} (noEnd : parser.curr.kind ≠ .eof)
      (ended : ∀ cause, (statement inner parser).1 ≠ .fault cause)
      (next : Exhausts inner (statement inner parser).2.advance) : Exhausts inner parser

/-- Tokens closed by an end of input are all parsed, with turns enough, and what
was read and recorded before is not looked at. -/
theorem programBody_closed (short : Nat → ParseFault → Prop) (inner : Nested)
    [OrderlyNested short inner] (limit : Int) (depth : Nat) {window : Window}
    (closed : window.Closed) :
    ∃ (ended : Except ParseFault (List Node)) (left : Window) (found : List Diagnostic),
      ∀ turns nodes, window.tokens.length ≤ turns.length →
      Run (programBody limit inner turns nodes) window depth
        (.ofExcept (ended.map (nodes.reverse ++ ·))) left found := by
  induction length : window.tokens.length using Nat.strongRecOn generalizing window with
  | ind length ih =>
      subst length
      have turns_ne_nil : ¬ window.tokens.length ≤ ([] : List Token).length := by
        simp [Window.tokens]
      by_cases ends : window.curr.kind = .eof
      · refine ⟨.ok [], window, [], fun turns nodes _ => ?_⟩
        rw [Except.map, List.append_nil]
        exact programBody_ends ends
      have orderly : Orderly short (statement inner) := inferInstance
      obtain ⟨outcome, middle, found, ran, onward, -⟩ := orderly.orders window depth
      rcases outcome.breaks_or_ends with ⟨cause, rfl⟩ | ended
      · obtain ⟨ended, left, broken⟩ := programBody_broken inner limit ends ran
        refine ⟨ended, middle, left, fun turns nodes enough => ?_⟩
        cases turns with
        | nil => exact absurd enough turns_ne_nil
        | cons turn turns => exact broken turn turns nodes
      · have shorter := Window.length_advance_lt onward (closed.more ends)
        have closed' := closed.of_suffix (middle.tokens_advance.trans onward)
        obtain ⟨final, left, later, rest⟩ := ih _ shorter closed' rfl
        refine ⟨final.map (outcome.kept ++ ·), left, found ++ later, fun turns nodes enough => ?_⟩
        cases turns with
        | nil => exact absurd enough turns_ne_nil
        | cons turn turns =>
            intro diagnostics
            have enough' : middle.advance.tokens.length ≤ turns.length := by
              rw [List.length_cons] at enough
              omega
            rw [programBody_turn ends ran ended, rest turns _ enough']
            cases final <;> simp [Except.map, Outcome.reverse_kept]

section Before

variable {semicolon token : Token} {tokens left : List Token}

/-- What the part before a semicolon comes to, whatever follows. It is parsed to these
statements and diagnostics, and the parser then stands on what follows, at the depth it
started from, with turns enough for it; or it breaks off by this fault. -/
def Before (inner : Nested) (limit : Int) (semicolon : Token) (depth : Nat)
    (tokens : List Token) : Except ParseFault (List Node × List Diagnostic) → Prop
  | .ok (kept, found) => ∀ rest, Opens rest → ∀ turns nodes,
      tokens.length + rest.length < turns.length →
      ∃ turns', rest.length ≤ turns'.length ∧ ∀ diagnostics,
        programBody limit inner turns nodes
            ⟨.ofTokens (tokens ++ semicolon :: rest), depth, diagnostics⟩ =
          programBody limit inner turns' (kept.reverse ++ nodes)
            ⟨.ofTokens rest, depth, diagnostics ++ found⟩
  | .error cause => ∀ rest, Opens rest → ∀ turns nodes,
      tokens.length + rest.length < turns.length → ∀ diagnostics,
        (programBody limit inner turns nodes
          ⟨.ofTokens (tokens ++ semicolon :: rest), depth, diagnostics⟩).1 = .fault cause

/-- Whatever follows, the first statement runs so, up to the tokens that are left before
the semicolon. -/
def RunsFirst (inner : Nested) (semicolon : Token) (depth : Nat) (tokens left : List Token)
    (outcome : Outcome Node) (found : List Diagnostic) : Prop :=
  ∀ rest, Opens rest → (Window.ofTokens (tokens ++ semicolon :: rest)).curr.kind ≠ .eof ∧
    Run (statement inner) (.ofTokens (tokens ++ semicolon :: rest)) depth outcome
      (.ofTokens (left ++ semicolon :: rest)) found

/-- The first statement breaks off. -/
theorem Before.broken {cause : ParseFault} (other : cause ≠ .stackExhausted)
    (first : RunsFirst inner semicolon depth tokens left (.fault cause) found) :
    Before inner limit semicolon depth tokens (.error cause) := by
  intro rest opens turns nodes enough diagnostics
  obtain ⟨noEnd, ran⟩ := first rest opens
  cases turns with
  | nil => simp at enough
  | cons turn turns => rw [programBody_fault noEnd other ran]

/-- The first statement is the only one. -/
theorem Before.last (ended : ∀ cause, outcome ≠ .fault cause)
    (first : RunsFirst inner semicolon depth tokens [] outcome found) :
    Before inner limit semicolon depth tokens (.ok (outcome.kept, found)) := by
  intro rest opens turns nodes enough
  obtain ⟨noEnd, ran⟩ := first rest opens
  cases turns with
  | nil => simp at enough
  | cons turn turns =>
      refine ⟨turns, by rw [List.length_cons] at enough; omega, fun diagnostics => ?_⟩
      rw [programBody_turn noEnd ran ended, Outcome.reverse_kept]
      obtain ⟨token, after, rfl, -⟩ := opens
      rfl

/-- More statements come after the first one. -/
theorem Before.more (ended : ∀ cause, outcome ≠ .fault cause)
    (first : RunsFirst inner semicolon depth tokens (token :: left) outcome found)
    (shorter : left.length < tokens.length)
    {result : Except ParseFault (List Node × List Diagnostic)}
    (later : Before inner limit semicolon depth left result) :
    Before inner limit semicolon depth tokens
      (result.map fun parsed => (outcome.kept ++ parsed.1, found ++ parsed.2)) := by
  have turned (rest : List Token) (opens : Opens rest) (turn : Token) (turns : List Token)
      (nodes : List Node) (diagnostics : List Diagnostic) :
      programBody limit inner (turn :: turns) nodes
          ⟨.ofTokens (tokens ++ semicolon :: rest), depth, diagnostics⟩ =
        programBody limit inner turns (outcome.kept ++ nodes)
          ⟨.ofTokens (left ++ semicolon :: rest), depth, diagnostics ++ found⟩ := by
    obtain ⟨noEnd, ran⟩ := first rest opens
    rw [programBody_turn noEnd ran ended, Window.advance_over]
  rcases result with cause | ⟨kept, found'⟩
  · intro rest opens turns nodes enough diagnostics
    cases turns with
    | nil => simp at enough
    | cons turn turns =>
        rw [List.length_cons] at enough
        rw [turned rest opens, later rest opens _ _ (by omega)]
  · intro rest opens turns nodes enough
    cases turns with
    | nil => simp at enough
    | cons turn turns =>
        rw [List.length_cons] at enough
        obtain ⟨turns', enough', same⟩ := later rest opens turns (outcome.kept ++ nodes) (by omega)
        refine ⟨turns', enough', fun diagnostics => ?_⟩
        rw [turned rest opens, same]
        simp [Outcome.reverse_kept]

/-- **The part before a semicolon.** It comes to one thing, whatever follows. -/
theorem programBody_before [HonestNested inner] (closes : semicolon.kind = .semicolon)
    (nested : ContainedNested semicolon inner) (limit : Int) (depth : Nat) (flat : Flat tokens)
    (noEnd : ∀ token ∈ tokens, token.kind ≠ .eof) {follows : List Token} (opens : Opens follows)
    {recorded : List Diagnostic}
    (stack : ¬ Exhausts inner ⟨.ofTokens (tokens ++ semicolon :: follows), depth, recorded⟩) :
    ∃ result, Before inner limit semicolon depth tokens result := by
  induction length : tokens.length using Nat.strongRecOn generalizing tokens recorded with
  | ind length ih =>
      subst length
      obtain ⟨outcome, left, found, onward, -, ran⟩ :=
        statement_contained closes nested flat depth
      have first : RunsFirst inner semicolon depth tokens left outcome found := by
        refine fun rest opens => ⟨?_, ran rest opens⟩
        cases tokens with
        | nil => exact fun eof => by cases closes.symm.trans eof
        | cons token tokens => exact noEnd token List.mem_cons_self
      obtain ⟨noEnd', runs⟩ := first follows opens
      have here := runs recorded
      rcases outcome.breaks_or_ends with ⟨cause, rfl⟩ | ended
      · have other : cause ≠ .stackExhausted := by
          rintro rfl
          exact stack (.here noEnd' (congrArg Prod.fst here))
        exact ⟨_, .broken other first⟩
      cases left with
      | nil => exact ⟨_, .last ended first⟩
      | cons token left =>
          have shorter := onward.length_le
          rw [List.length_cons] at shorter
          have onward' := (List.suffix_cons token left).trans onward
          have stack' : ¬ Exhausts inner
              ⟨.ofTokens (left ++ semicolon :: follows), depth, recorded ++ found⟩ := by
            intro exhausts
            refine stack (.later noEnd' (by rwa [here]) ?_)
            rw [here]
            change Exhausts inner ⟨(Window.ofTokens _).advance, depth, _⟩
            rwa [Window.advance_over]
          obtain ⟨result, later⟩ := ih left.length shorter (flat.of_suffix onward')
            (fun token member => noEnd token (onward'.subset member)) stack' rfl
          exact ⟨_, .more ended first shorter later⟩

end Before

end Routine

/-- What parsing the tokens comes to: statements and diagnostics, with no depth left over,
or the fault that broke it off. -/
def ParsesTo (limit : Int) (levels : Nat) (tokens : List Token) :
    Except ParseFault (List Node × List Diagnostic) → Prop
  | .ok (statements, diagnostics) =>
      ∃ left, parseProgram .standard limit levels (.ofTokens tokens) =
        (.parsed (.program statements), ⟨left, 0, diagnostics⟩)
  | .error cause => (parseProgram .standard limit levels (.ofTokens tokens)).1 = .fault cause

/-- What two parts come to, one parsed after the other. -/
def followed (first second : Except ParseFault (List Node × List Diagnostic)) :
    Except ParseFault (List Node × List Diagnostic) := do
  let (statements, diagnostics) ← first
  let (statements', diagnostics') ← second
  return (statements ++ statements', diagnostics ++ diagnostics')

/-- Parsing the tokens, the stack runs out in some statement. -/
def Exhausts (limit : Int) (levels : Nat) (tokens : List Token) : Prop :=
  Routine.Exhausts (nestedRoutines .standard limit levels) (.ofTokens tokens)

section ParsesTo

variable {limit : Int} {levels : Nat} {tokens : List Token}

theorem parsesTo_of_body {first : List Node} {problems problems' : List Diagnostic}
    {ended : Except ParseFault (List Node)} {left : Window} (some : tokens ≠ [])
    (body : Routine.programBody limit (nestedRoutines .standard limit levels) tokens []
      (.ofTokens tokens) = (.ofExcept (ended.map (first ++ ·)), ⟨left, 0, problems ++ problems'⟩)) :
    ParsesTo limit levels tokens (followed (.ok (first, problems)) (ended.map (·, problems'))) := by
  obtain ⟨token, rest, rfl⟩ := List.exists_cons_of_ne_nil some
  have parsed := Routine.program_eq limit (nestedRoutines .standard limit levels)
    (.ofTokens (token :: rest))
  rw [show (Parser.ofTokens (token :: rest)).tokens = token :: rest from rfl, body] at parsed
  cases ended with
  | ok second => exact ⟨left, parsed⟩
  | error cause => exact congrArg Prod.fst parsed

theorem parsesTo_of_fault {cause : ParseFault} (some : tokens ≠ [])
    (body : (Routine.programBody limit (nestedRoutines .standard limit levels) tokens []
      (.ofTokens tokens)).1 = .fault cause) : ParsesTo limit levels tokens (.error cause) := by
  obtain ⟨token, rest, rfl⟩ := List.exists_cons_of_ne_nil some
  change (Routine.program limit _ _).1 = _
  rw [Routine.program_eq]
  exact congrArg (Outcome.map Node.program) body

/-- A part before a semicolon and what follows are parsed one after the other. -/
theorem parsesTo_of_before {before rest : List Token} {semicolon : Token}
    {part : Except ParseFault (List Node × List Diagnostic)}
    {ended : Except ParseFault (List Node)} {left : Window} {problems : List Diagnostic}
    (first : Routine.Before (nestedRoutines .standard limit levels) limit semicolon 0 before part)
    (opens : Parse.Opens rest)
    (second : ∀ turns nodes, rest.length ≤ turns.length →
      Parse.Run (Routine.programBody limit (nestedRoutines .standard limit levels) turns nodes)
        (.ofTokens rest) 0 (.ofExcept (ended.map (nodes.reverse ++ ·))) left problems) :
    ParsesTo limit levels (before ++ semicolon :: rest)
      (followed part (ended.map (·, problems))) := by
  rcases part with cause | ⟨kept, found⟩
  · exact parsesTo_of_fault (by simp) (first rest opens _ [] (by simp) [])
  · obtain ⟨turns, enough, same⟩ := first rest opens (before ++ semicolon :: rest) [] (by simp)
    have body := (same []).trans (second turns _ enough _)
    rw [List.append_nil, List.reverse_reverse] at body
    exact parsesTo_of_body (by simp) body

theorem followed_nil (part : Except ParseFault (List Node × List Diagnostic)) :
    followed part (.ok ([], [])) = part := by
  rcases part with cause | ⟨kept, found⟩
  · rfl
  · change Except.ok (kept ++ [], found ++ []) = _
    rw [List.append_nil, List.append_nil]

/-- Parsing comes to one thing. -/
theorem ParsesTo.unique {result other : Except ParseFault (List Node × List Diagnostic)}
    (parses : ParsesTo limit levels tokens result) (parses' : ParsesTo limit levels tokens other) :
    result = other := by
  unfold ParsesTo at parses parses'
  rcases result with cause | ⟨statements, diagnostics⟩
  · rcases other with cause' | ⟨statements', diagnostics'⟩
    · cases parses.symm.trans parses'
      rfl
    · obtain ⟨left, ended⟩ := parses'
      rw [ended] at parses
      cases parses
  · obtain ⟨left, ended⟩ := parses
    rw [ended] at parses'
    rcases other with cause | ⟨statements', diagnostics'⟩
    · cases parses'
    · obtain ⟨left', same⟩ := parses'
      cases same
      rfl

/-- A limit that can be written breaks nothing off. -/
theorem ParsesTo.ok_of_writable {result : Except ParseFault (List Node × List Diagnostic)}
    (parses : ParsesTo limit levels tokens result) (named : Decimal.Writable limit) :
    ∃ statements diagnostics, result = .ok (statements, diagnostics) := by
  obtain ⟨statements, after, parsed⟩ := parseProgram_parsed named levels (.ofTokens tokens)
  cases result with
  | ok found => exact ⟨found.1, found.2, rfl⟩
  | error cause =>
      unfold ParsesTo at parses
      rw [parsed] at parses
      cases parses

end ParsesTo

/-- The stack does not run out where the limit is met first. -/
theorem not_exhausts {limit : Int} {levels : Nat} (some : 0 < levels) (within : limit < levels)
    (tokens : List Token) : ¬ Exhausts limit levels tokens := by
  have orderly : Parse.Orderly (Short limit levels)
    (Routine.statement (nestedRoutines .standard limit levels)) := inferInstance
  have short (parser : Parser) (outside : parser.depth = 0)
      (exhausts : Routine.Exhausts (nestedRoutines .standard limit levels) parser) :
      Short limit levels 0 .stackExhausted := by
    induction exhausts with
    | @here parser _ breaks =>
        obtain ⟨window, _, diagnostics⟩ := parser
        cases outside
        obtain ⟨outcome, left, found, ran, -, room⟩ := orderly.orders window 0
        rw [ran] at breaks
        exact room _ breaks
    | @later parser _ _ _ ih =>
        obtain ⟨window, _, diagnostics⟩ := parser
        cases outside
        obtain ⟨outcome, left, found, ran, -, -⟩ := orderly.orders window 0
        rw [ran] at ih
        exact ih rfl
  intro exhausts
  cases short _ rfl exhausts with
  | noStack none => omega
  | stack passes => omega

/-- **Parsing resumes after a semicolon.** Whatever stands before the semicolon,
as long as it opens no block and does not end the input, and whatever follows,
which may be anything but another semicolon: the program has the statements of
the part before, then those of the part after, each as parsed by itself, and so
with the diagnostics. Only under a limit that cannot be written can a part break
off, and then the whole breaks off with the first that does. -/
theorem parseProgram_resumes (limit : Int) (levels : Nat) {before after : List Token}
    {semicolon closing : Token} (ends : semicolon.kind = .semicolon) (closes : closing.kind = .eof)
    (bounded : ∀ token ∈ before, token.kind ≠ .leftBrace ∧ token.kind ≠ .eof)
    (fresh : ∀ token, after.head? = some token → token.kind ≠ .semicolon)
    (closed : ∃ last, after.getLast? = some last ∧ last.kind = .eof)
    (stack : ¬ Exhausts limit levels (before ++ semicolon :: after)) :
    (∃ first second, ParsesTo limit levels (before ++ [semicolon, closing]) first ∧
      ParsesTo limit levels after second ∧
      ParsesTo limit levels (before ++ semicolon :: after) (followed first second)) ∧
    (Decimal.Writable limit → ∀ tokens result, ParsesTo limit levels tokens result →
      ∃ statements diagnostics, result = .ok (statements, diagnostics)) := by
  refine ⟨?_, fun named tokens result parses => parses.ok_of_writable named⟩
  obtain ⟨token, rest, rfl⟩ : ∃ token rest, after = token :: rest := by
    cases after with
    | nil =>
        obtain ⟨last, lasts, -⟩ := closed
        cases lasts
    | cons token rest => exact ⟨token, rest, rfl⟩
  have opens : Parse.Opens (token :: rest) := ⟨token, rest, rfl, fresh token rfl⟩
  have opens' : Parse.Opens [closing] := ⟨closing, [], rfl, by rw [closes]; nofun⟩
  have closed' : (Window.ofTokens (token :: rest)).Closed := closed
  have closing' : (Window.ofTokens [closing]).curr.kind = .eof := closes
  obtain ⟨ended, left, problems, parsed⟩ := Routine.programBody_closed (Short limit levels)
    (nestedRoutines .standard limit levels) limit 0 closed'
  have alone : ParsesTo limit levels (token :: rest) (ended.map (·, problems)) := by
    have nonempty : token :: rest ≠ [] := List.cons_ne_nil _ _
    have parses := parsesTo_of_body nonempty (parsed (token :: rest) [] (Nat.le_refl _) [])
    cases ended <;> exact parses
  obtain ⟨part, first⟩ :=
    Routine.programBody_before ends (nestedRoutines_contained ends limit levels) limit 0
      (fun token member => (bounded token member).1) (fun token member => (bounded token member).2)
      opens stack
  refine ⟨part, ended.map (·, problems), ?_, alone, parsesTo_of_before first opens parsed⟩
  have none (turns : List Token) (nodes : List Node) (_ : [closing].length ≤ turns.length) :
      Parse.Run (Routine.programBody limit (nestedRoutines .standard limit levels) turns nodes)
        (.ofTokens [closing]) 0 (.ofExcept ((Except.ok []).map (nodes.reverse ++ ·)))
        (.ofTokens [closing]) [] := by
    rw [Except.map, List.append_nil]
    exact Routine.programBody_ends closing'
  have parses := parsesTo_of_before first opens' none
  rwa [Except.map, followed_nil] at parses

/-- A binding with an open parenthesis. -/
def unclosed : List Token :=
  [⟨.letKeyword, "let", 1⟩, ⟨.identifier, "x", 1⟩, ⟨.assign, "=", 1⟩, ⟨.leftParen, "(", 1⟩,
    ⟨.int, "5", 1⟩]

/-- A function with an empty block, on the next line. -/
def emptyFunction : List Token :=
  [⟨.functionKeyword, "fn", 2⟩, ⟨.leftParen, "(", 2⟩, ⟨.rightParen, ")", 2⟩,
    ⟨.leftBrace, "\x7b", 2⟩, ⟨.rightBrace, "\x7d", 2⟩, ⟨.eof, "", 2⟩]

/-- The binding is dropped with one diagnostic, and the function after it is read. -/
theorem parseProgram_resumes_unclosed :
    let problem : Diagnostic := ⟨.unexpected .rightParen .semicolon, 1⟩
    let literal : Node := .expressionStatement 2 (.function 2 [] (.block 2 []))
    ParsesTo 100 500 (unclosed ++ [⟨.semicolon, ";", 1⟩, ⟨.eof, "", 1⟩]) (.ok ([], [problem])) ∧
      ParsesTo 100 500 emptyFunction (.ok ([literal], [])) ∧
      ParsesTo 100 500 (unclosed ++ ⟨.semicolon, ";", 1⟩ :: emptyFunction)
        (.ok ([literal], [problem])) ∧
      problem.message = "expected next token to be RPAREN, got SEMICOLON instead" := by
  intro problem literal
  have before : ParsesTo 100 500 (unclosed ++ [⟨.semicolon, ";", 1⟩, ⟨.eof, "", 1⟩])
      (.ok ([], [problem])) := ⟨.ofTokens [⟨.eof, "", 1⟩], by rfl⟩
  have after : ParsesTo 100 500 emptyFunction (.ok ([literal], [])) :=
    ⟨.ofTokens [⟨.eof, "", 2⟩], by rfl⟩
  have bounded : ∀ token ∈ unclosed, token.kind ≠ .leftBrace ∧ token.kind ≠ .eof := by decide
  have fresh : ∀ token, emptyFunction.head? = some token → token.kind ≠ .semicolon := by
    rintro _ ⟨⟩
    decide
  obtain ⟨⟨first, second, before', after', whole⟩, -⟩ :=
    parseProgram_resumes 100 500 (rfl : (⟨.semicolon, ";", 1⟩ : Token).kind = .semicolon)
      (rfl : (⟨.eof, "", 1⟩ : Token).kind = .eof) bounded fresh ⟨⟨.eof, "", 2⟩, rfl, rfl⟩
      (not_exhausts (by decide) (by decide) _)
  rw [before'.unique before, after'.unique after] at whole
  exact ⟨before, after, whole, rfl⟩

end ExprLang
