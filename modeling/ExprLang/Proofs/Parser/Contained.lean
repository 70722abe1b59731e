/-
# ExprLang.Proofs.Parser.Contained — statements end at their semicolon

A statement may fail anywhere: before the semicolon that ends it, on it, or with
the semicolon several tokens ahead. Still no statement steps over a semicolon,
unless it opens a block.

On tokens without an opening brace, followed by a semicolon, a contained step
goes the same way whatever comes after the semicolon, and it ends no later than
on the semicolon. An expression that is complete ends before it. Loops take their
turns from the tokens, and so also from those after the semicolon; hence what is
contained is a family of steps, one for each rest.
-/
import ExprLang.Proofs.Parser.Orderly

namespace ExprLang

set_option autoImplicit false

namespace Window

variable (semicolon token : Token) (tokens rest : List Token)

theorem peek_over : (Window.ofTokens (token :: tokens ++ semicolon :: rest)).peek =
    tokens.headD semicolon := by
  cases tokens <;> rfl

theorem advance_over : (Window.ofTokens (token :: tokens ++ semicolon :: rest)).advance =
    .ofTokens (tokens ++ semicolon :: rest) := by
  cases tokens <;> rfl

end Window

namespace Parse

variable {α β : Type}

/-- What may follow the semicolon: something, but no other semicolon. -/
def Opens (rest : List Token) : Prop := ∃ token after, rest = token :: after ∧
  token.kind ≠ .semicolon

/-- Before the semicolon the steps go the same way, whatever comes after it, and
do not pass it. Where they have a result they stop as said. -/
def Contained (semicolon : Token) (tokens : List Token) (ends : List Token → Prop)
    (steps : List Token → Parse α) : Prop :=
  ∀ depth, ∃ outcome left found, left <:+ tokens ∧
    ((∃ result, outcome = .parsed result) → ends left) ∧
    ∀ rest, Opens rest → Run (steps rest) (.ofTokens (tokens ++ semicolon :: rest)) depth outcome
      (.ofTokens (left ++ semicolon :: rest)) found

namespace Contained

variable {semicolon token : Token} {tokens : List Token} {ends wider : List Token → Prop}
  {steps : List Token → Parse α} {nexts : List Token → α → Parse β}

theorem mono (contained : Contained semicolon tokens ends steps)
    (wide : ∀ left, ends left → wider left) : Contained semicolon tokens wider steps := by
  intro depth
  obtain ⟨outcome, left, found, onward, inside, ran⟩ := contained depth
  exact ⟨outcome, left, found, onward, fun parsed => wide left (inside parsed), ran⟩

theorem of_eq {others : List Token → Parse α} (contained : Contained semicolon tokens ends others)
    (same : ∀ rest, Opens rest → ∀ depth diagnostics,
      steps rest ⟨.ofTokens (tokens ++ semicolon :: rest), depth, diagnostics⟩ =
        others rest ⟨.ofTokens (tokens ++ semicolon :: rest), depth, diagnostics⟩) :
    Contained semicolon tokens ends steps := by
  intro depth
  obtain ⟨outcome, left, found, onward, inside, ran⟩ := contained depth
  exact ⟨outcome, left, found, onward, inside, fun rest opens diagnostics =>
    (same rest opens depth diagnostics).trans (ran rest opens diagnostics)⟩

theorem pure (result : α) (here : ends tokens) :
    Contained semicolon tokens ends fun _ => pure result :=
  fun _ => ⟨.parsed result, tokens, [], List.suffix_refl _, fun _ => here, fun _ _ => .pure result⟩

theorem failHere (problem : Problem) :
    Contained semicolon tokens ends fun _ => (Parse.failHere problem : Parse α) := by
  intro depth
  refine ⟨.failed, tokens, [⟨problem, (tokens.headD semicolon).line⟩], List.suffix_refl _, nofun,
    fun rest _ => ?_⟩
  cases tokens <;> exact .failHere problem

theorem bind {middle : List Token → Prop} (first : Contained semicolon tokens middle steps)
    (second : ∀ result left, left <:+ tokens → middle left →
      Contained semicolon left ends fun rest => nexts rest result) :
    Contained semicolon tokens ends fun rest => steps rest >>= nexts rest := by
  intro depth
  obtain ⟨outcome, left, found, onward, inside, ran⟩ := first depth
  cases outcome with
  | parsed result =>
      obtain ⟨final, left', later, onward', inside', ran'⟩ :=
        second result left onward (inside ⟨result, rfl⟩) depth
      exact ⟨final, left', found ++ later, onward'.trans onward, inside',
        fun rest opens => (ran rest opens).bind (ran' rest opens)⟩
  | failed =>
      exact ⟨.failed, left, found, onward, nofun, fun rest opens => (ran rest opens).bind_failed⟩
  | fault cause =>
      exact ⟨.fault cause, left, found, onward, nofun,
        fun rest opens => (ran rest opens).bind_fault⟩

/-- A step with a result that ends before the semicolon stands on some token. -/
theorem bind_inside (first : Contained semicolon tokens (· ≠ []) steps)
    (second : ∀ result current left, current :: left <:+ tokens →
      Contained semicolon (current :: left) ends fun rest => nexts rest result) :
    Contained semicolon tokens ends fun rest => steps rest >>= nexts rest := by
  refine first.bind fun result left onward some => ?_
  obtain ⟨current, left, rfl⟩ := List.exists_cons_of_ne_nil some
  exact second result current left onward

theorem current {nexts : List Token → Token → Parse β}
    (second : Contained semicolon tokens ends fun rest => nexts rest (tokens.headD semicolon)) :
    Contained semicolon tokens ends fun rest => Parse.current >>= nexts rest := by
  refine second.of_eq fun rest _ depth diagnostics => ?_
  cases tokens <;> rfl

/-- What is contained from the next token on is contained from the current one,
if all that happens to it is to move on. -/
theorem moves {others : List Token → Parse α} (contained : Contained semicolon tokens ends others)
    (same : ∀ rest depth diagnostics,
      steps rest ⟨.ofTokens (token :: tokens ++ semicolon :: rest), depth, diagnostics⟩ =
        others rest ⟨.ofTokens (tokens ++ semicolon :: rest), depth, diagnostics⟩) :
    Contained semicolon (token :: tokens) ends steps := by
  intro depth
  obtain ⟨outcome, left, found, onward, inside, ran⟩ := contained depth
  exact ⟨outcome, left, found, onward.trans (List.suffix_cons _ _), inside,
    fun rest opens diagnostics => (same rest depth diagnostics).trans (ran rest opens diagnostics)⟩

theorem advance {nexts : List Token → Unit → Parse β}
    (second : Contained semicolon tokens ends fun rest => nexts rest ()) :
    Contained semicolon (token :: tokens) ends fun rest => Parse.advance >>= nexts rest := by
  refine second.moves fun rest depth diagnostics => ?_
  cases tokens <;> rfl

theorem nested (limit : Int) (contained : Contained semicolon tokens ends steps) :
    Contained semicolon tokens ends fun rest => Parse.nested limit (steps rest) := by
  intro depth
  by_cases room : (depth : Int) < limit
  · obtain ⟨outcome, left, found, onward, inside, ran⟩ := contained (depth + 1)
    exact ⟨outcome, left, found, onward, inside, fun rest opens => .nested room (ran rest opens)⟩
  by_cases named : Decimal.Writable limit
  · refine ⟨.failed, tokens, [⟨.tooNested limit, (tokens.headD semicolon).line⟩],
      List.suffix_refl _, nofun, fun rest _ => ?_⟩
    cases tokens <;> exact .nested_full (Int.not_lt.1 room) named
  · exact ⟨.fault .tooLong, tokens, [], List.suffix_refl _, nofun,
      fun rest _ => .nested_unnamed (Int.not_lt.1 room) named⟩

/-- Steps that take their turns from the tokens where they stand. -/
theorem look (step : List Token → Parse α)
    (contained : Contained semicolon tokens ends fun rest => step (tokens ++ semicolon :: rest)) :
    Contained semicolon tokens ends fun _ => (fun parser => step parser.tokens parser) := by
  refine contained.of_eq fun rest _ depth diagnostics => ?_
  cases tokens <;> rfl

/-- A semicolon is taken before or at the one that contains the steps. -/
theorem terminated (contained : Contained semicolon tokens ends steps) :
    Contained semicolon tokens (fun _ => True) fun rest => Parse.terminated (steps rest) := by
  intro depth
  obtain ⟨outcome, left, found, onward, -, ran⟩ := contained depth
  by_cases breaks : ∃ cause, outcome = .fault cause
  · obtain ⟨cause, rfl⟩ := breaks
    exact ⟨.fault cause, left, found, onward, fun _ => trivial,
      fun rest opens => (ran rest opens).terminated_fault⟩
  have ended : ∀ cause, outcome ≠ .fault cause := fun cause same => breaks ⟨cause, same⟩
  cases left with
  | nil =>
      refine ⟨outcome, [], found, onward, fun _ => trivial, fun rest opens => ?_⟩
      have taken := (ran rest opens).terminated ended
      obtain ⟨token, after, rfl, noSemicolon⟩ := opens
      exact (if_neg noSemicolon ▸ taken :)
  | cons token later =>
      by_cases here : (later.headD semicolon).kind = .semicolon
      · refine ⟨outcome, later, found, (List.suffix_cons _ _).trans onward, fun _ => trivial,
          fun rest opens => ?_⟩
        have taken := (ran rest opens).terminated ended
        rwa [Window.peek_over, if_pos here, Window.advance_over] at taken
      · refine ⟨outcome, token :: later, found, onward, fun _ => trivial, fun rest opens => ?_⟩
        have taken := (ran rest opens).terminated ended
        rwa [Window.peek_over, if_neg here] at taken

section Semicolon

variable (closes : semicolon.kind = .semicolon)

include closes

/-- A kind that is wanted is found among the tokens or not at all. -/
theorem expect {kind : TokenKind} {nexts : List Token → Unit → Parse β} (other : kind ≠ .semicolon)
    (second : ∀ next later, next :: later <:+ tokens → next.kind = kind →
      Contained semicolon (next :: later) ends fun rest => nexts rest ()) :
    Contained semicolon (token :: tokens) ends fun rest => Parse.expect kind >>= nexts rest := by
  by_cases wanted : (tokens.headD semicolon).kind = kind
  · cases tokens with
    | nil => exact absurd (wanted.symm.trans closes) other
    | cons next later =>
        refine (second next later (List.suffix_refl _) wanted).moves fun _ _ _ => ?_
        exact bind_of_parsed (if_pos wanted) _
  · intro depth
    refine ⟨.failed, token :: tokens, [⟨.unexpected kind (tokens.headD semicolon).kind,
      (tokens.headD semicolon).line⟩], List.suffix_refl _, nofun, fun rest _ => ?_⟩
    rw [← Window.peek_over semicolon token tokens rest] at wanted ⊢
    exact (Run.refused wanted).bind_failed

/-- So is a kind that decides what is done. -/
theorem choice {others : List Token → Parse α} (kind : TokenKind) (other : kind ≠ .semicolon)
    (chosen : ∀ next later, tokens = next :: later →
      Contained semicolon (token :: next :: later) ends steps)
    (otherwise : Contained semicolon (token :: tokens) ends others) :
    Contained semicolon (token :: tokens) ends fun rest => (fun parser =>
      if parser.peek.kind = kind then steps rest parser else others rest parser) := by
  by_cases wanted : (tokens.headD semicolon).kind = kind
  · cases tokens with
    | nil => exact absurd (wanted.symm.trans closes) other
    | cons next later =>
        exact (chosen next later rfl).of_eq fun _ _ _ _ => if_pos wanted
  · refine otherwise.of_eq fun rest _ depth diagnostics => ?_
    cases tokens <;> exact if_neg wanted

end Semicolon

end Contained

end Parse

/-! ## The rules -/

/-- Tokens with no opening brace among them. -/
def Flat (tokens : List Token) : Prop := ∀ token ∈ tokens, token.kind ≠ .leftBrace

namespace Flat

variable {token : Token} {tokens left : List Token}

theorem of_suffix (flat : Flat tokens) (onward : left <:+ tokens) : Flat left :=
  fun token member => flat token (onward.subset member)

theorem tail (flat : Flat (token :: tokens)) : Flat tokens := flat.of_suffix (List.suffix_cons _ _)

end Flat

/-- Expressions one level deeper are contained, and those with a result end
before the semicolon. -/
def ContainedNested (semicolon : Token) (inner : Nested) : Prop :=
  ∀ (tokens : List Token) (floor : Nat), Flat tokens →
    Parse.Contained semicolon tokens (· ≠ []) fun _ => inner.expression (.level floor)

namespace Routine

open Parse

variable {semicolon token : Token} {tokens : List Token} {inner : Nested}

section Semicolon

variable (closes : semicolon.kind = .semicolon)

include closes

/-- There is no block without an opening brace. -/
theorem noBlock_contained {α : Type} {ends : List Token → Prop}
    {nexts : List Token → Unit → Parse α} (flat : Flat tokens) :
    Contained semicolon (token :: tokens) ends fun rest => expect .leftBrace >>= nexts rest :=
  .expect closes nofun fun next _ onward brace =>
    absurd brace (flat next (onward.subset List.mem_cons_self))

theorem closing_contained {α : Type} (result : α) :
    Contained semicolon (token :: tokens) (· ≠ []) fun _ => (do
      expect .rightParen
      return result) :=
  .expect closes nofun fun _ _ _ _ => .pure _ nofun

/-- A list that may be empty, up to its closing parenthesis. -/
theorem listed_contained {β : Type} (first : List Token → Parse (List β))
    (some : Contained semicolon (token :: tokens) (· ≠ []) fun rest =>
      first (token :: tokens ++ semicolon :: rest)) :
    Contained semicolon (token :: tokens) (· ≠ []) fun _ => (fun parser =>
      if parser.peek.kind = .rightParen then (.parsed [], parser.advance)
      else first parser.tokens parser) := by
  have none (next : Token) (later : List Token) (_ : tokens = next :: later) :
      Contained semicolon (token :: next :: later) (· ≠ []) fun _ => (do
        advance
        return ([] : List β)) :=
    .advance (.pure _ nofun)
  exact .choice closes .rightParen nofun none (.look first some)

/-- Further entries of a list after a comma each. A loop with one turn for each
token left has turns enough, so it is the same loop whatever comes after the
semicolon. -/
theorem listing_contained {β : Type} {loop : List Token → List β → Parse (List β)}
    (entry : (β → Parse (List β)) → Parse (List β))
    (turned : ∀ turn turns found, loop (turn :: turns) found = fun parser =>
      if parser.peek.kind = .comma then entry (fun item => loop turns (item :: found)) parser
      else (do
        expect .rightParen
        return found.reverse : Parse (List β)) parser)
    (entries : ∀ (token next : Token) (later : List Token)
      (nexts : List Token → β → Parse (List β)), Flat later →
      (∀ item current left, current :: left <:+ later →
        Contained semicolon (current :: left) (· ≠ []) fun rest => nexts rest item) →
      Contained semicolon (token :: next :: later) (· ≠ []) fun rest => entry (nexts rest))
    (turns : List Token → List Token) (found : List β) (flat : Flat tokens)
    (long : ∀ rest, tokens.length < (turns rest).length) :
    Contained semicolon (token :: tokens) (· ≠ []) fun rest => loop (turns rest) found := by
  induction length : tokens.length using Nat.strongRecOn generalizing tokens token turns found with
  | ind length ih =>
      have going (next : Token) (later : List Token) (same : tokens = next :: later) :
          Contained semicolon (token :: next :: later) (· ≠ []) fun rest =>
            entry fun item => loop (turns rest).tail (item :: found) := by
        subst same
        refine entries token next later (fun rest item => loop (turns rest).tail (item :: found))
          flat.tail fun item current left onward => ?_
        have shorter := onward.length_le
        simp only [List.length_cons] at shorter length
        refine ih left.length (by omega) _ _ (flat.tail.of_suffix onward).tail (fun rest => ?_) rfl
        have := long rest
        simp only [List.length_tail, List.length_cons] at this ⊢
        omega
      have closing : Contained semicolon (token :: tokens) (· ≠ []) fun _ => (do
          expect .rightParen
          return found.reverse) := closing_contained closes _
      refine (Contained.choice closes .comma nofun going closing).of_eq fun rest _ _ _ => ?_
      have := long rest
      cases turn : turns rest with
      | nil => simp [turn] at this
      | cons first more => rw [turned, List.tail_cons]

theorem parameter_contained {nexts : List Token → Name → Parse (List Name)}
    (second : ∀ name current left, current :: left <:+ tokens →
      Contained semicolon (current :: left) (· ≠ []) fun rest => nexts rest name) :
    Contained semicolon (token :: tokens) (· ≠ []) fun rest => parameter >>= nexts rest := by
  have named : Contained semicolon (token :: tokens) (fun left => left ≠ [] ∧ left <:+ tokens)
      fun _ => parameter :=
    .expect closes nofun fun next later onward _ => .current (.pure _ ⟨nofun, onward⟩)
  refine named.bind fun name left _ inside => ?_
  obtain ⟨current, left, rfl⟩ := List.exists_cons_of_ne_nil inside.1
  exact second name current left inside.2

theorem parameters_contained (flat : Flat tokens) :
    Contained semicolon (token :: tokens) (· ≠ []) fun _ => parameters := by
  refine listed_contained closes (fun turns => do
    let name ← parameter
    moreParameters turns [name]) ?_
  refine parameter_contained closes fun name current left onward => ?_
  refine listing_contained closes (fun next => do advance; let name ← parameter; next name)
    (fun _ _ _ => rfl) (fun _ _ _ _ _ each => ?_) _ [name] (flat.of_suffix onward).tail
    fun rest => ?_
  · exact .advance (parameter_contained closes each)
  · have shorter := onward.length_le
    simp only [List.length_cons, List.length_append] at shorter ⊢
    omega

variable (nested : ContainedNested semicolon inner)

include nested

theorem arguments_contained (flat : Flat tokens) :
    Contained semicolon (token :: tokens) (· ≠ []) fun _ => arguments inner := by
  refine listed_contained closes (fun turns => do
    advance
    let node ← inner.expression .lowest
    moreArguments inner turns [node]) ?_
  refine .advance ((nested tokens _ flat).bind_inside fun node current left onward => ?_)
  refine listing_contained closes
    (fun next => do advance; advance; let node ← inner.expression .lowest; next node)
    (fun _ _ _ => rfl) (fun _ _ later _ flat' each => ?_) _ [node] (flat.of_suffix onward).tail
    fun rest => ?_
  · exact .advance (.advance ((nested later _ flat').bind_inside each))
  · have shorter := onward.length_le
    simp only [List.length_cons, List.length_append] at shorter ⊢
    omega

/-- The rules for operands are contained; those with a block in them fail. -/
theorem asOperand_contained (limit : Int) (flat : Flat tokens) {kind : TokenKind} {rule : Rule}
    (found : Grammar.standard.operand kind = some rule) :
    Contained semicolon (token :: tokens) (· ≠ []) fun _ => asOperand limit inner rule := by
  rcases Grammar.operand_standard found with
    ⟨-, rfl⟩ | ⟨-, rfl⟩ | ⟨-, rfl⟩ | ⟨-, rfl⟩ | ⟨-, rfl⟩ | ⟨-, rfl⟩ | ⟨-, rfl⟩
  · exact .current (.pure _ nofun)
  · refine .current ?_
    cases read : Decimal.read? token.literal with
    | none =>
        simp only [List.headD_cons, read]
        exact .failHere _
    | some value =>
        simp only [List.headD_cons, read]
        exact .pure _ nofun
  · exact .current (.pure _ nofun)
  · refine .advance ((nested tokens _ flat).bind_inside fun node current left _ => ?_)
    exact closing_contained closes node
  · refine .current (.advance ((nested tokens _ flat).bind fun node left _ some => ?_))
    exact .pure _ some
  · refine .current (.expect closes nofun fun next later onward _ => ?_)
    have flat' := (flat.of_suffix onward).tail
    refine .advance ((nested later _ flat').bind_inside fun node current left onward' => ?_)
    refine .expect closes nofun fun next' later' onward'' _ => ?_
    exact noBlock_contained closes ((flat'.of_suffix onward').tail.of_suffix onward'').tail
  · refine .current (.expect closes nofun fun next later onward _ => ?_)
    have flat' := flat.of_suffix onward
    refine (parameters_contained closes flat'.tail).bind_inside fun names current left onward' => ?_
    exact noBlock_contained closes (flat'.of_suffix onward').tail

theorem operand_contained (limit : Int) (flat : Flat tokens) :
    Contained semicolon tokens (· ≠ []) fun _ => operand .standard limit inner := by
  cases found : Grammar.standard.operand (tokens.headD semicolon).kind with
  | none =>
      refine (Contained.failHere (.noOperand (tokens.headD semicolon).kind)).of_eq
        fun rest _ depth diagnostics => ?_
      cases tokens <;> exact operand_of_none found
  | some rule =>
      cases tokens with
      | nil =>
          rw [List.headD_nil, closes] at found
          cases found
      | cons token tokens =>
          exact (asOperand_contained closes nested limit flat.tail found).of_eq
            fun _ _ _ _ => operand_of_rule found

theorem asContinuation_contained (left : Node) (flat : Flat tokens) {kind : TokenKind} {rule : Rule}
    (found : Grammar.standard.continuation kind = some rule) :
    Contained semicolon (token :: tokens) (· ≠ []) fun _ => asContinuation inner left rule := by
  rcases Grammar.continuation_standard found with ⟨-, rfl⟩ | ⟨-, rfl⟩
  · refine .current (.advance ((nested tokens _ flat).bind fun right left _ some => ?_))
    exact .pure _ some
  · refine .current ((arguments_contained closes nested flat).bind fun given left _ some => ?_)
    exact .pure _ some

theorem climb_contained (floor : Nat) (turns : List Token → List Token) (left : Node)
    (flat : Flat tokens) (long : ∀ rest, tokens.length < (turns rest).length) :
    Contained semicolon (token :: tokens) (· ≠ []) fun rest =>
      climb .standard inner (.level floor) (turns rest) left := by
  induction length : tokens.length using Nat.strongRecOn generalizing tokens token turns left with
  | ind length ih =>
      have turned (rest : List Token) :
          turns rest = (turns rest).headD semicolon :: (turns rest).tail := by
        have := long rest
        cases turn : turns rest with
        | nil => simp [turn] at this
        | cons first more => rfl
      have peeks (rest : List Token) (depth : Nat) (diagnostics : List Diagnostic) :
          (⟨.ofTokens (token :: tokens ++ semicolon :: rest), depth, diagnostics⟩ : Parser).peek =
            tokens.headD semicolon := Window.peek_over semicolon token tokens rest
      by_cases stops : (tokens.headD semicolon).kind.Stops floor
      · refine (Contained.pure left nofun).of_eq fun rest _ depth diagnostics => ?_
        rw [turned, climb_of_stops (by rwa [peeks])]
        rfl
      · obtain ⟨rule, found, goes⟩ := @climb_of_goes inner _ _ stops
        suffices going : Contained semicolon (token :: tokens) (· ≠ []) fun rest => (do
            advance
            let next ← asContinuation inner left rule
            climb .standard inner (.level floor) (turns rest).tail next : Parse Node) by
          refine going.of_eq fun rest _ depth diagnostics => ?_
          rw [turned, goes _ _ _ _ (by rw [peeks])]
          rfl
        cases tokens with
        | nil => exact absurd (.inl closes) stops
        | cons next later =>
            have continued : Contained semicolon (next :: later) (· ≠ []) fun _ =>
                asContinuation inner left rule :=
              asContinuation_contained closes nested left flat.tail found
            refine .advance (continued.bind_inside fun node current left onward => ?_)
            have shorter := onward.length_le
            simp only [List.length_cons] at shorter length
            refine ih left.length (by omega) _ _ (flat.of_suffix onward).tail (fun rest => ?_) rfl
            have := long rest
            simp only [List.length_tail, List.length_cons] at this ⊢
            omega

theorem letStatement_contained (flat : Flat tokens) :
    Contained semicolon (token :: tokens) (fun _ => True) fun _ => letStatement inner := by
  refine .current (.expect closes nofun fun next later onward _ => .current ?_)
  refine .expect closes nofun fun next' later' onward' _ => .advance ?_
  have flat' := ((flat.of_suffix onward).tail.of_suffix onward').tail
  exact (nested later' _ flat').terminated.bind fun _ _ _ _ => .pure _ trivial

omit closes in
theorem returnStatement_contained (flat : Flat tokens) :
    Contained semicolon (token :: tokens) (fun _ => True) fun _ => returnStatement inner :=
  .current (.advance ((nested tokens _ flat).terminated.bind fun _ _ _ _ => .pure _ trivial))

omit closes in
theorem expressionStatement_contained (flat : Flat tokens) :
    Contained semicolon tokens (fun _ => True) fun _ => expressionStatement inner :=
  .current ((nested tokens _ flat).terminated.bind fun _ _ _ _ => .pure _ trivial)

/-- A statement that starts before the semicolon, or on it, does not pass it. -/
theorem statement_contained (flat : Flat tokens) :
    Contained semicolon tokens (fun _ => True) fun _ => statement inner := by
  by_cases isLet : (tokens.headD semicolon).kind = .letKeyword
  · cases tokens with
    | nil =>
        rw [List.headD_nil, closes] at isLet
        cases isLet
    | cons token tokens =>
        exact (letStatement_contained closes nested flat.tail).of_eq
          fun _ _ _ _ => statement_of_let isLet
  by_cases isReturn : (tokens.headD semicolon).kind = .returnKeyword
  · cases tokens with
    | nil =>
        rw [List.headD_nil, closes] at isReturn
        cases isReturn
    | cons token tokens =>
        exact (returnStatement_contained nested flat.tail).of_eq
          fun _ _ _ _ => statement_of_return isReturn
  · refine (expressionStatement_contained nested flat).of_eq fun rest _ _ _ => ?_
    cases tokens <;> exact statement_of_other isLet isReturn

end Semicolon

end Routine

/-- On every level of stack expressions are contained. -/
theorem nestedRoutines_contained {semicolon : Token} (closes : semicolon.kind = .semicolon)
    (limit : Int) (levels : Nat) :
    ContainedNested semicolon (nestedRoutines .standard limit levels) := by
  induction levels with
  | zero =>
      intro tokens floor _ depth
      exact ⟨.fault .stackExhausted, tokens, [], List.suffix_refl _, nofun,
        fun _ _ => .silent fun _ => rfl⟩
  | succ levels ih =>
      intro tokens floor flat
      refine .nested limit ?_
      refine (Routine.operand_contained closes ih limit flat).bind_inside
        fun left current later onward => ?_
      refine .look (fun turns => Routine.climb .standard _ (.level floor) turns left) ?_
      refine Routine.climb_contained closes ih floor _ left (flat.of_suffix onward).tail
        fun rest => ?_
      simp only [List.length_cons, List.length_append]
      omega

end ExprLang
