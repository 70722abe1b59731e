/-
# ExprLang.Proofs.Parser.Orderly — what a step does to the parser besides

A step moves forward in the tokens, counts its depth back and adds diagnostics to
those that were there, which it never looks at. So a run of a step is told by
where it starts, how it ends, where it stands then and what it has recorded
(`Parse.Run`). `Orderly` says that every run of a step is of this kind, and when
a step may break off: its parameter tells by what fault at which depth. With the
standard tables every rule is orderly (`nestedRoutines_orderly`). The stack is too
short only where the nesting limit lets a parser go deeper than there are levels,
and otherwise only a limit that cannot be written breaks a step off (`Short`).
-/
import ExprLang.Proofs.Parser.Honest

namespace ExprLang

set_option autoImplicit false

theorem Outcome.breaks_or_ends {α : Type} (outcome : Outcome α) :
    (∃ cause, outcome = .fault cause) ∨ ∀ cause, outcome ≠ .fault cause := by
  by_cases breaks : ∃ cause, outcome = .fault cause
  · exact .inl breaks
  · exact .inr fun cause same => breaks ⟨cause, same⟩

namespace Window

/-- The tokens from the current one on. -/
def tokens (window : Window) : List Token := window.curr :: window.ahead

theorem tokens_ofTokens {tokens : List Token} (some : tokens ≠ []) :
    (ofTokens tokens).tokens = tokens := by
  cases tokens with
  | nil => exact absurd rfl some
  | cons token rest => rfl

theorem tokens_advance (window : Window) : window.advance.tokens <:+ window.tokens := by
  obtain ⟨curr, ahead⟩ := window
  cases ahead with
  | nil => exact List.suffix_refl _
  | cons token rest => exact List.suffix_cons curr _

end Window

namespace Parse

variable {α β : Type} {step : Parse α} {next : α → Parse β} {window middle left : Window}
  {depth : Nat} {outcome : Outcome α} {found later : List Diagnostic}

/-- From a window and a depth, and whatever was recorded before, the step ends so,
stands there and has recorded this. -/
def Run (step : Parse α) (window : Window) (depth : Nat) (outcome : Outcome α) (left : Window)
    (found : List Diagnostic) : Prop :=
  ∀ diagnostics, step ⟨window, depth, diagnostics⟩ =
    (outcome, ⟨left, depth, diagnostics ++ found⟩)

namespace Run

/-- A step that records nothing. -/
theorem silent (ended : ∀ diagnostics, step ⟨window, depth, diagnostics⟩ =
    (outcome, ⟨left, depth, diagnostics⟩)) : Run step window depth outcome left [] :=
  fun diagnostics => (ended diagnostics).trans (by rw [List.append_nil])

theorem pure (result : α) : Run (pure result) window depth (.parsed result) window [] :=
  silent fun _ => rfl

theorem current : Run Parse.current window depth (.parsed window.curr) window [] :=
  silent fun _ => rfl

theorem advance : Run Parse.advance window depth (.parsed ()) window.advance [] :=
  silent fun _ => rfl

theorem failHere (problem : Problem) : Run (Parse.failHere problem : Parse α) window depth .failed
    window [⟨problem, window.curr.line⟩] :=
  fun _ => rfl

theorem expect {kind : TokenKind} (wanted : window.peek.kind = kind) :
    Run (Parse.expect kind) window depth (.parsed ()) window.advance [] :=
  silent fun _ => if_pos wanted

theorem refused {kind : TokenKind} (other : window.peek.kind ≠ kind) :
    Run (Parse.expect kind) window depth .failed window
      [⟨.unexpected kind window.peek.kind, window.peek.line⟩] :=
  fun _ => if_neg other

theorem bind {final : Outcome β} {result : α}
    (first : Run step window depth (.parsed result) middle found)
    (second : Run (next result) middle depth final left later) :
    Run (step >>= next) window depth final left (found ++ later) := by
  intro diagnostics
  rw [bind_of_parsed (first diagnostics), second, List.append_assoc]

theorem bind_failed (first : Run step window depth .failed left found) :
    Run (step >>= next) window depth .failed left found := by
  intro diagnostics
  change andThen step next _ = _
  unfold andThen
  rw [first]

theorem bind_fault {cause : ParseFault} (first : Run step window depth (.fault cause) left found) :
    Run (step >>= next) window depth (.fault cause) left found := by
  intro diagnostics
  change andThen step next _ = _
  unfold andThen
  rw [first]

theorem nested {limit : Int} (room : (depth : Int) < limit)
    (inside : Run step window (depth + 1) outcome left found) :
    Run (Parse.nested limit step) window depth outcome left found := by
  intro diagnostics
  have ended : step { (⟨window, depth, diagnostics⟩ : Parser) with depth := depth + 1 } = _ :=
    inside diagnostics
  exact nested_of_lt room ended

theorem of_full {limit : Int} (full : limit ≤ depth)
    (ran : Run (Parse.overLimit limit : Parse α) window depth outcome left found) :
    Run (Parse.nested limit step) window depth outcome left found := by
  intro diagnostics
  have closed : (⟨window, depth, diagnostics⟩ : Parser).atLimit limit = true := decide_eq_true full
  unfold Parse.nested
  rw [if_pos closed]
  exact ran diagnostics

theorem nested_full {limit : Int} (full : limit ≤ depth) (named : Decimal.Writable limit) :
    Run (Parse.nested limit step) window depth .failed window
      [⟨.tooNested limit, window.curr.line⟩] := by
  refine of_full full ?_
  rw [Parse.overLimit, if_pos named]
  exact failHere _

/-- A limit that cannot be written breaks off where another one is reported. -/
theorem nested_unnamed {limit : Int} (full : limit ≤ depth) (long : ¬ Decimal.Writable limit) :
    Run (Parse.nested limit step) window depth (.fault .tooLong) window [] := by
  refine of_full full ?_
  rw [Parse.overLimit, if_neg long]
  exact silent fun _ => rfl

/-- A semicolon is taken after a step that did not break off. -/
theorem terminated (ran : Run step window depth outcome left found)
    (ended : ∀ cause, outcome ≠ .fault cause) :
    Run (Parse.terminated step) window depth outcome
      (if left.peek.kind = .semicolon then left.advance else left) found := by
  intro diagnostics
  unfold Parse.terminated
  rw [ran]
  cases outcome with
  | fault cause => exact absurd rfl (ended cause)
  | _ =>
      change (_, if left.peek.kind = .semicolon then _ else _) = _
      split <;> rfl

theorem terminated_fault {cause : ParseFault}
    (ran : Run step window depth (.fault cause) left found) :
    Run (Parse.terminated step) window depth (.fault cause) left found := by
  intro diagnostics
  unfold Parse.terminated
  rw [ran]

end Run

/-- A run of the step is told by where it starts; it moves forward, and it breaks
off only by a fault that is to be expected at its depth. -/
def Orders (short : Nat → ParseFault → Prop) (step : Parse α) (window : Window) (depth : Nat) :
    Prop :=
  ∃ outcome left found, Run step window depth outcome left found ∧ left.tokens <:+ window.tokens ∧
    ∀ cause, outcome = .fault cause → short depth cause

/-- The step is orderly wherever it starts. -/
class Orderly (short : Nat → ParseFault → Prop) (step : Parse α) : Prop where
  orders : ∀ window depth, Orders short step window depth

variable {short : Nat → ParseFault → Prop}

namespace Orders

theorem silent (ran : Run step window depth outcome left found)
    (onward : left.tokens <:+ window.tokens) (ended : ∀ cause, outcome ≠ .fault cause) :
    Orders short step window depth :=
  ⟨outcome, left, found, ran, onward, fun cause same => absurd same (ended cause)⟩

theorem brokenOff {cause : ParseFault} (ran : Run step window depth (.fault cause) left found)
    (onward : left.tokens <:+ window.tokens) (room : short depth cause) :
    Orders short step window depth := by
  refine ⟨.fault cause, left, found, ran, onward, ?_⟩
  rintro _ ⟨⟩
  exact room

/-- A step that records something and goes on like an orderly one is orderly. -/
theorem after {other : Parse α} (orders : Orders short other middle depth)
    (onward : middle.tokens <:+ window.tokens)
    (same : ∀ diagnostics, step ⟨window, depth, diagnostics⟩ =
      other ⟨middle, depth, diagnostics ++ found⟩) : Orders short step window depth := by
  obtain ⟨outcome, left, later, ran, onward', room⟩ := orders
  refine ⟨outcome, left, found ++ later, fun diagnostics => ?_, onward'.trans onward, room⟩
  rw [same, ran, List.append_assoc]

theorem of_eq {other : Parse α} (orders : Orders short other window depth)
    (same : ∀ diagnostics, step ⟨window, depth, diagnostics⟩ = other ⟨window, depth, diagnostics⟩) :
    Orders short step window depth :=
  orders.after (List.suffix_refl _) fun diagnostics => by rw [same, List.append_nil]

theorem bind (first : Orders short step window depth)
    (second : ∀ result middle, middle.tokens <:+ window.tokens →
      Orders short (next result) middle depth) :
    Orders short (step >>= next) window depth := by
  obtain ⟨outcome, middle, found, ran, onward, room⟩ := first
  cases outcome with
  | parsed result =>
      obtain ⟨final, left, later, ran', onward', room'⟩ := second result middle onward
      exact ⟨final, left, found ++ later, ran.bind ran', onward'.trans onward, room'⟩
  | failed => exact .silent ran.bind_failed onward nofun
  | fault cause => exact .brokenOff ran.bind_fault onward (room cause rfl)

end Orders

namespace Orderly

theorem mono {wider : Nat → ParseFault → Prop} (orderly : Orderly short step)
    (wide : ∀ depth cause, short depth cause → wider depth cause) : Orderly wider step where
  orders window depth := by
    obtain ⟨outcome, left, found, ran, onward, room⟩ := orderly.orders window depth
    exact ⟨outcome, left, found, ran, onward, fun cause same => wide depth cause (room cause same)⟩

instance pure (result : α) : Orderly short (pure result : Parse α) :=
  ⟨fun _ _ => .silent (.pure result) (List.suffix_refl _) nofun⟩

instance current : Orderly short Parse.current :=
  ⟨fun _ _ => .silent .current (List.suffix_refl _) nofun⟩

instance advance : Orderly short Parse.advance :=
  ⟨fun window _ => .silent .advance window.tokens_advance nofun⟩

instance failHere (problem : Problem) : Orderly short (Parse.failHere problem : Parse α) :=
  ⟨fun _ _ => .silent (.failHere problem) (List.suffix_refl _) nofun⟩

instance expect (kind : TokenKind) : Orderly short (Parse.expect kind) where
  orders window depth := by
    by_cases wanted : window.peek.kind = kind
    · exact .silent (.expect wanted) window.tokens_advance nofun
    · exact .silent (.refused wanted) (List.suffix_refl _) nofun

instance bind [first : Orderly short step] [second : ∀ result, Orderly short (next result)] :
    Orderly short (step >>= next) :=
  ⟨fun window depth => (first.orders window depth).bind fun result middle _ =>
    (second result).orders middle depth⟩

instance terminated [orderly : Orderly short step] : Orderly short (Parse.terminated step) where
  orders window depth := by
    obtain ⟨outcome, left, found, ran, onward, room⟩ := orderly.orders window depth
    cases outcome with
    | fault cause => exact ⟨_, left, found, ran.terminated_fault, onward, room⟩
    | _ =>
        refine .silent (ran.terminated nofun) ?_ nofun
        split
        · exact left.tokens_advance.trans onward
        · exact onward

/-- A nested step breaks off where the step inside of it does, and where its limit is
passed and cannot be written. -/
theorem nested {deeper : Nat → ParseFault → Prop} (limit : Int) (orderly : Orderly deeper step)
    (room : ∀ (depth : Nat) (cause : ParseFault), (depth : Int) < limit →
      deeper (depth + 1) cause → short depth cause)
    (unnamed : ¬ Decimal.Writable limit → ∀ depth : Nat, limit ≤ depth → short depth .tooLong) :
    Orderly short (Parse.nested limit step) where
  orders window depth := by
    by_cases below : (depth : Int) < limit
    · obtain ⟨outcome, left, found, ran, onward, inside⟩ := orderly.orders window (depth + 1)
      exact ⟨outcome, left, found, .nested below ran, onward, fun cause same =>
        room depth cause below (inside cause same)⟩
    · by_cases named : Decimal.Writable limit
      · exact .silent (.nested_full (Int.not_lt.1 below) named) (List.suffix_refl _) nofun
      · exact .brokenOff (.nested_unnamed (Int.not_lt.1 below) named) (List.suffix_refl _)
          (unnamed named depth (Int.not_lt.1 below))

/-- A step that takes its turns from the tokens where it stands. -/
theorem look {steps : List Token → Parse α} (orderly : ∀ turns, Orderly short (steps turns)) :
    Orderly short (fun parser => steps parser.tokens parser : Parse α) :=
  ⟨fun window depth => (orderly window.tokens).orders window depth⟩

/-- A step that chooses by the next token. -/
theorem choice {kind : TokenKind} {first second : Parse α} (chosen : Orderly short first)
    (otherwise : Orderly short second) :
    Orderly short (fun parser => if parser.peek.kind = kind then first parser else second parser :
      Parse α) where
  orders window depth := by
    by_cases here : window.peek.kind = kind
    · exact (chosen.orders window depth).of_eq fun _ => if_pos here
    · exact (otherwise.orders window depth).of_eq fun _ => if_neg here

end Orderly

end Parse

/-- Both routines one level deeper are orderly. -/
class OrderlyNested (short : Nat → ParseFault → Prop) (inner : Nested) : Prop where
  expression : ∀ floor : Nat, Parse.Orderly short (inner.expression (.level floor))
  block : Parse.Orderly short inner.block

theorem OrderlyNested.mono {short wider : Nat → ParseFault → Prop} {inner : Nested}
    (nested : OrderlyNested short inner)
    (wide : ∀ depth cause, short depth cause → wider depth cause) :
    OrderlyNested wider inner :=
  ⟨fun floor => (nested.expression floor).mono wide, nested.block.mono wide⟩

/-! ## The rules -/

/-- The tokens before which an expression with a floor is complete. -/
def TokenKind.Stops (floor : Nat) (kind : TokenKind) : Prop :=
  kind = .semicolon ∨ kind.precedence ≤ floor ∨ Grammar.standard.continuation kind = none

namespace Routine

open Parse

variable {inner : Nested} {short : Nat → ParseFault → Prop}

instance identifier_orderly : Orderly short identifier := by
  unfold identifier
  infer_instance

instance boolean_orderly : Orderly short boolean := by
  unfold boolean
  infer_instance

instance integer_orderly : Orderly short integer := by
  unfold integer
  refine @Orderly.bind _ _ _ _ _ _ fun token => ?_
  split <;> infer_instance

instance parameter_orderly : Orderly short parameter := by
  unfold parameter
  infer_instance

instance moreParameters_orderly (turns : List Token) (found : List Name) :
    Orderly short (moreParameters turns found) := by
  induction turns generalizing found with
  | nil =>
      unfold moreParameters
      infer_instance
  | cons turn turns ih => exact .choice inferInstance inferInstance

instance parameters_orderly : Orderly short parameters := by
  have none : Orderly short (do advance; return ([] : List Name)) := inferInstance
  have some (turns : List Token) : Orderly short (do
      let name ← parameter
      moreParameters turns [name]) := inferInstance
  exact .choice none (.look some)

variable [nested : OrderlyNested short inner]

instance expression_orderly (floor : Nat) : Orderly short (inner.expression (.level floor)) :=
  nested.expression floor

instance lowest_orderly : Orderly short (inner.expression .lowest) := nested.expression _

instance block_orderly : Orderly short inner.block := nested.block

instance prefixed_orderly : Orderly short (prefixed inner) := by
  unfold prefixed
  infer_instance

instance group_orderly : Orderly short (group inner) := by
  unfold group
  infer_instance

instance alternative_orderly (line : Int) (condition consequence : Node) :
    Orderly short (alternative inner line condition consequence) :=
  .choice inferInstance (.pure _)

instance conditional_orderly : Orderly short (conditional inner) := by
  have later (line : Int) (condition : Node) : Orderly short (do
      expect .rightParen
      expect .leftBrace
      let consequence ← inner.block
      alternative inner line condition consequence) := inferInstance
  unfold conditional
  infer_instance

instance function_orderly : Orderly short (function inner) := by
  unfold function
  infer_instance

instance binary_orderly (left : Node) : Orderly short (binary inner left) := by
  unfold binary
  infer_instance

instance moreArguments_orderly (turns : List Token) (found : List Node) :
    Orderly short (moreArguments inner turns found) := by
  induction turns generalizing found with
  | nil =>
      unfold moreArguments
      infer_instance
  | cons turn turns ih => exact .choice inferInstance inferInstance

instance arguments_orderly : Orderly short (arguments inner) := by
  have none : Orderly short (do advance; return ([] : List Node)) := inferInstance
  have some (turns : List Token) : Orderly short (do
      advance
      let node ← inner.expression .lowest
      moreArguments inner turns [node]) := inferInstance
  exact .choice none (.look some)

instance call_orderly (callee : Node) : Orderly short (call inner callee) := by
  unfold call
  infer_instance

instance letStatement_orderly : Orderly short (letStatement inner) := by
  unfold letStatement
  infer_instance

instance returnStatement_orderly : Orderly short (returnStatement inner) := by
  unfold returnStatement
  infer_instance

instance expressionStatement_orderly : Orderly short (expressionStatement inner) := by
  unfold expressionStatement
  infer_instance

instance statement_orderly : Orderly short (statement inner) where
  orders window depth := by
    by_cases isLet : window.curr.kind = .letKeyword
    · exact (letStatement_orderly.orders window depth).of_eq fun _ => statement_of_let isLet
    by_cases isReturn : window.curr.kind = .returnKeyword
    · exact (returnStatement_orderly.orders window depth).of_eq fun _ =>
        statement_of_return isReturn
    · exact (expressionStatement_orderly.orders window depth).of_eq fun _ =>
        statement_of_other isLet isReturn

omit nested in
/-- What a turn of a block does is told by how its statement ended. -/
theorem blockBody_turn {turn : Token} {turns : List Token} {nodes : List Node}
    {window middle : Window} {depth : Nat} {outcome : Outcome Node} {found : List Diagnostic}
    (opens : window.curr.kind ≠ .rightBrace) (noEnd : window.curr.kind ≠ .eof) :
    Run (statement inner) window depth outcome middle found → ∀ diagnostics,
    blockBody inner (turn :: turns) nodes ⟨window, depth, diagnostics⟩ =
      match outcome with
      | .parsed node =>
          blockBody inner turns (node :: nodes) ⟨middle.advance, depth, diagnostics ++ found⟩
      | .failed =>
          if middle.curr.kind = .rightBrace then
            (.parsed nodes.reverse, ⟨middle, depth, diagnostics ++ found⟩)
          else blockBody inner turns nodes ⟨middle.advance, depth, diagnostics ++ found⟩
      | .fault cause => (.fault cause, ⟨middle, depth, diagnostics ++ found⟩) := by
  intro ran diagnostics
  refine (if_neg opens).trans ((if_neg noEnd).trans ?_)
  rw [ran]
  cases outcome <;> rfl

instance blockBody_orderly (turns : List Token) (nodes : List Node) :
    Orderly short (blockBody inner turns nodes) := by
  induction turns generalizing nodes with
  | nil => exact Orderly.failHere _
  | cons turn turns ih =>
      refine ⟨fun window depth => ?_⟩
      by_cases closes : window.curr.kind = .rightBrace
      · exact .silent (.silent fun _ => if_pos closes) (List.suffix_refl _) nofun
      by_cases ends : window.curr.kind = .eof
      · have failed : Orderly short
            (failHere (.unexpected .rightBrace .eof) : Parse (List Node)) := inferInstance
        exact (failed.orders window depth).of_eq fun _ => (if_neg closes).trans (if_pos ends)
      have first : Orderly short (statement inner) := inferInstance
      obtain ⟨outcome, middle, found, ran, onward, room⟩ := first.orders window depth
      have advanced := middle.tokens_advance.trans onward
      -- What the turn does is told by how its statement ended.
      have turned := @blockBody_turn inner turn turns nodes _ _ _ _ _ closes ends ran
      cases outcome with
      | parsed node =>
          exact ((ih (node :: nodes)).orders middle.advance depth).after advanced turned
      | failed =>
          by_cases stops : middle.curr.kind = .rightBrace
          · have ended : Run (blockBody inner (turn :: turns) nodes) window depth
                (.parsed nodes.reverse) middle found :=
              fun diagnostics => (turned diagnostics).trans (if_pos stops)
            exact .silent ended onward nofun
          · exact ((ih nodes).orders middle.advance depth).after advanced fun diagnostics =>
              (turned diagnostics).trans (if_neg stops)
      | fault cause =>
          exact .brokenOff turned onward (room cause rfl)

instance operand_orderly (limit : Int) : Orderly short (operand .standard limit inner) where
  orders window depth := by
    cases found : Grammar.standard.operand window.curr.kind with
    | none =>
        have failed : Orderly short
            (failHere (.noOperand window.curr.kind) : Parse Node) := inferInstance
        exact (failed.orders window depth).of_eq fun _ => operand_of_none found
    | some rule =>
        refine Orders.of_eq ?_ fun _ => operand_of_rule found
        rcases Grammar.operand_standard found with
          ⟨-, rfl⟩ | ⟨-, rfl⟩ | ⟨-, rfl⟩ | ⟨-, rfl⟩ | ⟨-, rfl⟩ | ⟨-, rfl⟩ | ⟨-, rfl⟩
        · exact identifier_orderly.orders window depth
        · exact integer_orderly.orders window depth
        · exact boolean_orderly.orders window depth
        · exact group_orderly.orders window depth
        · exact prefixed_orderly.orders window depth
        · exact conditional_orderly.orders window depth
        · exact function_orderly.orders window depth

theorem asContinuation_orderly (inner : Nested) [OrderlyNested short inner] (left : Node)
    {kind : TokenKind} {rule : Rule} (found : Grammar.standard.continuation kind = some rule) :
    Orderly short (asContinuation inner left rule) := by
  rcases Grammar.continuation_standard found with ⟨-, rfl⟩ | ⟨-, rfl⟩
  · exact binary_orderly left
  · exact call_orderly left

omit nested in
/-- An expression is complete before a token that stops it. -/
theorem climb_of_stops {floor : Nat} {turn : Token} {turns : List Token} {left : Node}
    {parser : Parser} (stops : parser.peek.kind.Stops floor) :
    climb .standard inner (.level floor) (turn :: turns) left parser = (.parsed left, parser) := by
  rcases @climb_cases inner floor turn turns left parser with
    ⟨-, ended⟩ | ⟨rule, tight, found, -⟩
  · exact ended
  · rcases stops with semicolon | loose | none
    · rw [semicolon] at found
      cases found
    · exact absurd tight (Nat.not_lt.2 loose)
    · rw [none] at found
      cases found

omit nested in
/-- Before any other token it goes on by a rule of the token. -/
theorem climb_of_goes {floor : Nat} {kind : TokenKind} (goes : ¬ kind.Stops floor) :
    ∃ rule, Grammar.standard.continuation kind = some rule ∧
      ∀ turn turns left parser, parser.peek.kind = kind →
      climb .standard inner (.level floor) (turn :: turns) left parser =
        (do
          advance
          let next ← asContinuation inner left rule
          climb .standard inner (.level floor) turns next : Parse Node) parser := by
  cases found : Grammar.standard.continuation kind with
  | none => exact absurd (.inr (.inr found)) goes
  | some rule =>
      refine ⟨rule, rfl, fun turn turns left parser here => ?_⟩
      rcases @climb_cases inner floor turn turns left parser with
        ⟨stops, -⟩ | ⟨other, -, found', goes'⟩
      · rw [here] at stops
        exact absurd stops goes
      · rw [here, found] at found'
        cases found'
        exact goes'

instance climb_orderly (floor : Nat) (turns : List Token) (left : Node) :
    Orderly short (climb .standard inner (.level floor) turns left) := by
  induction turns generalizing left with
  | nil => exact Orderly.pure left
  | cons turn turns ih =>
      refine ⟨fun window depth => ?_⟩
      by_cases stops : window.peek.kind.Stops floor
      · exact .silent (.silent fun _ => climb_of_stops stops) (List.suffix_refl _) nofun
      · obtain ⟨rule, found, goes⟩ := climb_of_goes stops
        have continues : Orderly short (asContinuation inner left rule) :=
          asContinuation_orderly inner left found
        refine Orders.of_eq ?_ fun _ => goes turn turns left _ rfl
        exact Orderly.bind.orders window depth

end Routine

/-- A parser that goes down to this depth passes the limit, and the limit cannot be
written. -/
def Unnamed (limit : Int) (depth : Nat) : Prop := ¬ Decimal.Writable limit ∧ limit < depth

theorem Unnamed.mono {limit : Int} {depth depth' : Nat} (unnamed : Unnamed limit depth)
    (deeper : depth ≤ depth') : Unnamed limit depth' :=
  ⟨unnamed.1, by have := unnamed.2; omega⟩

/-- What may break a step off at a depth. So many levels of stack are too few: there are
none, or the limit lets a parser pass them all. Or the limit is passed on one of them and
cannot be written. -/
inductive Short (limit : Int) (levels depth : Nat) : ParseFault → Prop where
  | noStack (none : levels = 0) : Short limit levels depth .stackExhausted
  | stack (passes : ((depth + levels : Nat) : Int) ≤ limit) :
      Short limit levels depth .stackExhausted
  | unnamed (passed : Unnamed limit (depth + levels)) : Short limit levels depth .tooLong

/-- On every level of stack the routines one level deeper are orderly. -/
instance nestedRoutines_orderly (limit : Int) (levels : Nat) :
    OrderlyNested (Short limit levels) (nestedRoutines .standard limit levels) := by
  induction levels with
  | zero =>
      have breaks : Parse.Orderly (Short limit 0)
          (Parse.breakOff .stackExhausted : Parse Node) :=
        ⟨fun window depth => .brokenOff (.silent fun _ => rfl) (List.suffix_refl _)
          (.noStack rfl)⟩
      exact ⟨fun _ => breaks, breaks⟩
  | succ levels ih =>
      have room (depth : Nat) (cause : ParseFault) (below : (depth : Int) < limit)
          (short : Short limit levels (depth + 1) cause) :
          Short limit (levels + 1) depth cause := by
        cases short with
        | noStack none => exact .stack (by omega)
        | stack passes => exact .stack (by omega)
        | unnamed passed => exact .unnamed (passed.mono (by omega))
      have unnamed (long : ¬ Decimal.Writable limit) (depth : Nat) (full : limit ≤ depth) :
          Short limit (levels + 1) depth .tooLong :=
        .unnamed ⟨long, by omega⟩
      have climbing (floor : Nat) (left : Node) : Parse.Orderly (Short limit levels)
          (fun parser => Routine.climb .standard (nestedRoutines .standard limit levels)
            (.level floor) parser.tokens left parser : Parse Node) :=
        .look fun turns => Routine.climb_orderly floor turns left
      have statements : Parse.Orderly (Short limit levels)
          (fun parser => Routine.blockBody (nestedRoutines .standard limit levels)
            parser.tokens [] parser : Parse (List Node)) :=
        .look fun turns => Routine.blockBody_orderly turns []
      refine ⟨fun floor => .nested limit Parse.Orderly.bind room unnamed,
        .nested limit ?_ room unnamed⟩
      refine @Parse.Orderly.bind _ _ _ _ _ _ fun token => ?_
      refine @Parse.Orderly.bind _ _ _ _ _ _ fun _ => ?_
      exact @Parse.Orderly.bind _ _ _ _ _ statements fun nodes => inferInstance

/-- The statements of a program are read, unless a limit is passed that cannot be written:
that the stack runs out is recorded. -/
theorem Routine.programBody_outcome (limit : Int) (levels : Nat) (inner : Nested)
    [OrderlyNested (Short limit levels) inner] (turns : List Token) (found : List Node)
    (parser : Parser) :
    (∃ statements, (programBody limit inner turns found parser).1 = .parsed statements) ∨
      ¬ Decimal.Writable limit ∧ (programBody limit inner turns found parser).1 = .fault .tooLong := by
  induction turns generalizing found parser with
  | nil => exact .inl ⟨_, rfl⟩
  | cons turn turns ih =>
      have orderly : Parse.Orderly (Short limit levels) (statement inner) := inferInstance
      obtain ⟨outcome, left, problems, ran, -, room⟩ :=
        orderly.orders parser.window parser.depth
      have ended : statement inner parser = _ := ran parser.diagnostics
      unfold programBody
      rw [ended]
      split
      · exact .inl ⟨_, rfl⟩
      cases outcome with
      | parsed node => exact ih _ _
      | failed => exact ih _ _
      | fault cause =>
          cases room cause rfl with
          | noStack | stack =>
              by_cases named : Decimal.Writable limit
              · exact .inl ⟨_, congrArg Prod.fst (if_pos named)⟩
              · exact .inr ⟨named, congrArg Prod.fst (if_neg named)⟩
          | unnamed passed => exact .inr ⟨passed.1, rfl⟩

theorem parseProgram_outcome (limit : Int) (levels : Nat) (parser : Parser) :
    (∃ statements after,
        parseProgram .standard limit levels parser = (.parsed (.program statements), after)) ∨
      ¬ Decimal.Writable limit ∧ (parseProgram .standard limit levels parser).1 = .fault .tooLong := by
  rw [parseProgram, Routine.program_eq]
  rcases Routine.programBody_outcome limit levels (nestedRoutines .standard limit levels)
    parser.tokens [] parser with ⟨statements, parsed⟩ | ⟨long, broken⟩
  · exact .inl ⟨statements, _, Prod.ext (by rw [parsed, Outcome.map]) rfl⟩
  · exact .inr ⟨long, by rw [broken, Outcome.map]⟩

/-- Under a limit that can be written there is always a program. -/
theorem parseProgram_parsed {limit : Int} (named : Decimal.Writable limit) (levels : Nat)
    (parser : Parser) :
    ∃ statements after,
      parseProgram .standard limit levels parser = (.parsed (.program statements), after) :=
  (parseProgram_outcome limit levels parser).resolve_right fun broken => broken.1 named

/-- Under such a limit a parse without a diagnostic is a clean one. -/
theorem parseProgram_quiet_iff {limit : Int} (named : Decimal.Writable limit) (levels : Nat)
    (tokens : List Token) :
    (parseProgram .standard limit levels (.ofTokens tokens)).2.diagnostics = [] ↔
      ∃ program after, Parse.Clean (parseProgram .standard limit levels) (.ofTokens tokens)
        program after := by
  obtain ⟨statements, after, parsed⟩ := parseProgram_parsed named levels (.ofTokens tokens)
  rw [parsed]
  constructor
  · intro quiet
    exact ⟨_, after, parsed, quiet⟩
  · rintro ⟨program, after', ended, quiet⟩
    cases parsed.symm.trans ended
    exact quiet

/-! ## Texts -/

/-- All that breaks the parse of a text off is a limit that cannot be written. -/
theorem parse_eq_error {limit : Int} {levels : Nat} {source : String} {fault : ParseFault}
    (ended : parse limit levels source = .error fault) :
    fault = .tooLong ∧ ¬ Decimal.Writable limit := by
  unfold parse parseTokens at ended
  split at ended
  · cases ended
  · cases ended
  · next cause after broken =>
      cases ended
      rcases parseProgram_outcome limit levels (.ofTokens (tokenize source)) with
        ⟨statements, after, parsed⟩ | ⟨long, unnamed⟩
      · rw [broken] at parsed
        cases parsed
      · rw [broken] at unnamed
        cases unnamed
        exact ⟨rfl, long⟩

/-- Whatever a text is parsed to is a program. -/
theorem parse_program {limit : Int} {levels : Nat} {source : String} {parsed : Parsed}
    (ended : parse limit levels source = .ok parsed) :
    ∃ statements, parsed.program = .program statements := by
  obtain ⟨after, reached, -⟩ := parse_eq_ok_iff.1 ended
  rcases parseProgram_outcome limit levels (.ofSource source) with
    ⟨statements, after, same⟩ | ⟨-, broken⟩
  · rw [reached] at same
    exact ⟨statements, Outcome.parsed.inj (Prod.mk.inj same).1⟩
  · rw [reached] at broken
    cases broken

theorem parse_of_writable {limit : Int} (named : Decimal.Writable limit) (levels : Nat)
    (source : String) : ∃ parsed, parse limit levels source = .ok parsed := by
  cases ended : parse limit levels source with
  | ok parsed => exact ⟨parsed, rfl⟩
  | error fault => exact absurd named (parse_eq_error ended).2

/-- Whether a text is accepted can be told without a look at the tree. -/
theorem parse_clean_iff {limit : Int} {levels : Nat} {source : String} :
    (∃ program, parse limit levels source = .ok ⟨program, []⟩) ↔
      (parse limit levels source).toOption.map Parsed.diagnostics = some [] := by
  constructor
  · rintro ⟨program, ended⟩
    rw [ended]
    rfl
  · intro clean
    rcases ended : parse limit levels source with fault | ⟨program, diagnostics⟩
    · rw [ended] at clean
      cases clean
    · rw [ended] at clean
      obtain rfl : diagnostics = [] := Option.some.inj clean
      exact ⟨program, rfl⟩

/-- Under the default limit the parse of a text is never broken off. -/
theorem parse_default (levels : Nat) (source : String) :
    parse defaultNesting levels source = .ok (parseDefault levels source) := by
  have named : Decimal.Writable defaultNesting := by decide +kernel
  obtain ⟨parsed, ended⟩ := parse_of_writable named levels source
  rw [parseDefault, ended]

end ExprLang
