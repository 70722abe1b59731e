/-
# ExprLang.Proofs.Parser.Hidden — changes to a table that no token leads to

A handler is looked up by the kind of a token: for the start of an expression by the
current one, for what follows an expression by the next one. The next one is looked at
twice, and first of all for its rank. The floor of an expression is never below the
lowest rank, whichever rule asks for the expression, so a kind that is not an operator
never gets to its continuation, also if it has one.

So a change is hidden from a text if no token of the text is of its kind, or if it puts
a continuation on a kind that is not an operator. What the handlers of hidden changes
would do does not matter, because they are never called.
-/
import ExprLang.Proofs.Parser.Agreement

namespace ExprLang

set_option autoImplicit false

/-- A change to one of the tables: a handler is put in for a kind, or what is there is
taken out. -/
inductive Change where
  | operand (kind : TokenKind) (handler : Option (Nested → Parse Node))
  | continuation (kind : TokenKind) (handler : Option (Nested → Node → Parse Node))

namespace Handlers

/-- The tables after a change. -/
def change (handlers : Handlers) : Change → Handlers
  | .operand kind handler =>
      { handlers with
        operand := fun other => if other = kind then handler else handlers.operand other }
  | .continuation kind handler =>
      { handlers with
        continuation := fun other =>
          if other = kind then handler else handlers.continuation other }

/-- The tables after these changes, one after the other. -/
def changes (handlers : Handlers) (made : List Change) : Handlers :=
  made.foldl change handlers

end Handlers

/-- No token leads to the entry that is changed. -/
def Change.Hidden (tokens : List Token) : Change → Prop
  | .operand kind _ => ∀ token ∈ tokens, token.kind ≠ kind
  | .continuation kind _ =>
      kind.precedence = Precedence.lowest ∨ ∀ token ∈ tokens, token.kind ≠ kind

namespace Handlers

variable {tokens : List Token} {token : Token} {made : List Change}

theorem operand_changes (handlers : Handlers) (hidden : ∀ change ∈ made, change.Hidden tokens)
    (member : token ∈ tokens) :
    (handlers.changes made).operand token.kind = handlers.operand token.kind := by
  induction made generalizing handlers with
  | nil => rfl
  | cons first made ih =>
      obtain ⟨here, later⟩ := List.forall_mem_cons.1 hidden
      refine (ih (handlers.change first) later).trans ?_
      cases first with
      | operand kind handler => exact if_neg (here token member)
      | continuation kind handler => rfl

theorem continuation_changes (handlers : Handlers)
    (hidden : ∀ change ∈ made, change.Hidden tokens) (member : token ∈ tokens)
    (ranked : Precedence.lowest < token.kind.precedence) :
    (handlers.changes made).continuation token.kind = handlers.continuation token.kind := by
  induction made generalizing handlers with
  | nil => rfl
  | cons first made ih =>
      obtain ⟨here, later⟩ := List.forall_mem_cons.1 hidden
      refine (ih (handlers.change first) later).trans ?_
      cases first with
      | operand kind handler => rfl
      | continuation kind handler =>
          have other : token.kind ≠ kind := by
            rcases here with lowest | absent
            · rintro rfl
              exact absurd ranked (by omega)
            · exact absent token member
          exact if_neg other

end Handlers

/-! ## Windows that show only these tokens -/

/-- The window shows no token but these. -/
def Window.Shows (tokens : List Token) (window : Window) : Prop := window.tokens ⊆ tokens

instance Window.shows_onward (tokens : List Token) : Onward (Window.Shows tokens) :=
  ⟨fun shows onward _ member => shows (onward.subset member)⟩

theorem Window.peek_mem (window : Window) : window.peek ∈ window.tokens := by
  obtain ⟨curr, ahead⟩ := window
  cases ahead with
  | nil => exact List.mem_cons_self
  | cons next rest => exact List.mem_cons_of_mem _ List.mem_cons_self

namespace Grammar

/-- A rule that is set or cleared in a grammar is a change to its handlers. -/
theorem handlers_setOperand (grammar : Grammar) (limit : Int) (kind : TokenKind)
    (rule : Option Rule) :
    (grammar.setOperand kind rule).handlers limit = (grammar.handlers limit).change
      (.operand kind (rule.map fun rule inner => Routine.asOperand limit inner rule)) := by
  rw [handlers, Handlers.change]
  congr 1
  funext other
  dsimp only [setOperand]
  split <;> rfl

theorem handlers_setContinuation (grammar : Grammar) (limit : Int) (kind : TokenKind)
    (rule : Option Rule) :
    (grammar.setContinuation kind rule).handlers limit = (grammar.handlers limit).change
      (.continuation kind
        (rule.map fun rule inner left => Routine.asContinuation inner left rule)) := by
  rw [handlers, Handlers.change]
  congr 1
  funext other
  dsimp only [setContinuation]
  split <;> rfl

variable {tokens : List Token} {made : List Change}

/-- On such windows both tables lead to the same rule of the grammar. -/
theorem agree_changes (grammar : Grammar) (limit : Int)
    (hidden : ∀ change ∈ made, change.Hidden tokens) {inner inner' : Nested}
    (nested : AgreeNested (Window.Shows tokens) inner inner') :
    AgreeHandlers (Window.Shows tokens) (Window.Shows tokens) (grammar.handlers limit)
      ((grammar.handlers limit).changes made) inner inner' where
  operand window shows := by
    have member : window.curr ∈ tokens := shows List.mem_cons_self
    rw [Handlers.operand_changes _ hidden member]
    dsimp only [handlers]
    cases grammar.operand window.curr.kind with
    | none => exact .none
    | some rule => exact .some (nested.asOperand limit rule)
  continuation window shows ranked := by
    have member : window.peek ∈ tokens := shows window.peek_mem
    rw [Handlers.continuation_changes _ hidden member ranked]
    dsimp only [handlers]
    cases grammar.continuation window.peek.kind with
    | none => exact .none
    | some rule => exact .some fun left => nested.asContinuation left rule

/-- On every level of stack the routines agree. -/
theorem routines_changes (grammar : Grammar) (limit : Int)
    (hidden : ∀ change ∈ made, change.Hidden tokens) (levels : Nat) :
    AgreeNested (Window.Shows tokens) ((grammar.handlers limit).routines limit .exhausted levels)
      (((grammar.handlers limit).changes made).routines limit .exhausted levels) := by
  induction levels with
  | zero => exact ⟨fun _ _ => .breakOff _, .breakOff _⟩
  | succ levels ih =>
      have alike := grammar.agree_changes limit hidden ih
      exact ⟨fun floor standing => alike.expressionBy (.same _) limit standing,
        ih.statements.block limit (.same _)⟩

end Grammar

/-- **A change to a table is seen only where a token leads to it.** Whatever rules a
grammar has, and whatever handlers are then put in or taken out: if each change is for a
kind that no token of the text has, or is to the continuations and for a kind that is
not an operator, then the text is parsed as if there had been no change, to the same
program with the same diagnostics, under every nesting limit. -/
theorem parseProgram_changes (grammar : Grammar) (limit : Int) (levels : Nat) (source : String)
    (made : List Change) (hidden : ∀ change ∈ made, change.Hidden (tokenize source)) :
    ((grammar.handlers limit).changes made).parseProgram limit levels (.ofSource source) =
      parseProgram grammar limit levels (.ofSource source) := by
  have shows : (Window.ofTokens (tokenize source)).Shows (tokenize source) := by
    rw [Window.Shows, Window.tokens_ofTokens (tokenize_ne_nil source)]
    exact List.Subset.refl _
  have nested := grammar.routines_changes limit hidden levels
  rw [← grammar.parseProgram_handlers]
  exact (nested.statements.program limit (.ofSource source) shows).1

/-- A comma is given a continuation, a keyword that does not occur an operand, and an
operator that does not occur loses its continuation; and so with rules of the grammar. -/
theorem parseProgram_changes_comma :
    let literal : Parse Node := Parse.done (.boolean 7 true)
    let made : List Change := [.continuation .comma (some fun _ _ => literal),
      .operand .returnKeyword (some fun _ => literal), .continuation .plus none]
    (∀ change ∈ made, change.Hidden (tokenize "f(1, 2), 3")) ∧
      ((Grammar.standard.handlers 100).changes made).parseProgram 100 500
          (.ofSource "f(1, 2), 3") =
        parseProgram .standard 100 500 (.ofSource "f(1, 2), 3") ∧
      parseProgram ((Grammar.standard.setContinuation .comma (some .call)).setOperand
          .returnKeyword (some .statement)) 100 500 (.ofSource "f(1, 2), 3") =
        parseProgram .standard 100 500 (.ofSource "f(1, 2), 3") := by
  intro literal made
  have keyword : ∀ token ∈ tokenize "f(1, 2), 3", token.kind ≠ .returnKeyword := by
    decide +kernel
  have operator : ∀ token ∈ tokenize "f(1, 2), 3", token.kind ≠ .plus := by decide +kernel
  have hidden : ∀ change ∈ made, change.Hidden (tokenize "f(1, 2), 3") := by
    simp only [made, List.forall_mem_cons]
    exact ⟨.inl rfl, keyword, .inr operator, nofun⟩
  refine ⟨hidden, parseProgram_changes .standard 100 500 _ made hidden, ?_⟩
  rw [← Grammar.parseProgram_handlers, Grammar.handlers_setOperand,
    Grammar.handlers_setContinuation]
  refine parseProgram_changes .standard 100 500 _ [.continuation _ _, .operand _ _] ?_
  simp only [List.forall_mem_cons]
  exact ⟨.inl rfl, keyword, nofun⟩

/-- Where a token leads to the change, it is seen. -/
example :
    let literal : Parse Node := Parse.done (.boolean 7 true)
    let changed := (Grammar.standard.handlers 100).change (.operand .comma (some fun _ => literal))
    (changed.parseProgram 100 500 (.ofSource "f(1, 2), 3")).2.diagnostics = [] ∧
      (parseProgram .standard 100 500 (.ofSource "f(1, 2), 3")).2.diagnostics =
        [⟨.noOperand .comma, 1⟩] := by
  decide +kernel

end ExprLang
