/-
# ExprLang.Proofs.Parser.Lines — parsing does not look at lines

Every token has a line, and so has every node and diagnostic made from one, but no
decision of the parser depends on them. So it makes no difference whether the lines
are taken out before the parser runs or out of what it leaves: parsing commutes with
`erase`, which sets every line to zero in tokens, trees and diagnostics.

`Parse.Erases` says this of a step, from every parser. It is kept by each way that
steps are combined and holds of every rule, whatever rule tables the parser is given
(`nestedRoutines_erases`).
-/
import ExprLang.Node.Alike
import ExprLang.Parser.Routine

namespace ExprLang

set_option autoImplicit false

/-- The token with its line set to zero. -/
def Token.erase (token : Token) : Token := { token with line := 0 }

def Diagnostic.erase (diagnostic : Diagnostic) : Diagnostic := { diagnostic with line := 0 }

def Window.erase (window : Window) : Window := ⟨window.curr.erase, window.ahead.map Token.erase⟩

/-- The parser with the lines of its tokens and diagnostics set to zero. -/
def Parser.erase (parser : Parser) : Parser :=
  ⟨parser.window.erase, parser.depth, parser.diagnostics.map Diagnostic.erase⟩

/-- An expression in the place of a level loses its lines. -/
def Floor.erase : Floor → Floor
  | .level precedence => .level precedence
  | .operand node => .operand node.erase

def Parsed.erase (parsed : Parsed) : Parsed :=
  ⟨parsed.program.erase, parsed.diagnostics.map Diagnostic.erase⟩

theorem Node.typeName_erase (node : Node) : node.erase.typeName = node.typeName := by
  cases node <;> rfl

theorem Floor.below_erase (floor : Floor) : floor.erase.below = floor.below := by
  cases floor with
  | level precedence => rfl
  | operand node =>
      funext precedence
      simp only [erase, below, node.typeName_erase]

theorem Window.peek_erase (window : Window) : window.erase.peek = window.peek.erase := by
  obtain ⟨curr, ahead⟩ := window
  cases ahead <;> rfl

theorem Window.advance_erase (window : Window) : window.erase.advance = window.advance.erase := by
  obtain ⟨curr, ahead⟩ := window
  cases ahead <;> rfl

namespace Parser

theorem peek_erase (parser : Parser) : parser.erase.peek = parser.peek.erase :=
  parser.window.peek_erase

theorem curr_kind_erase (parser : Parser) : parser.erase.curr.kind = parser.curr.kind := rfl

theorem peek_kind_erase (parser : Parser) : parser.erase.peek.kind = parser.peek.kind := by
  rw [peek_erase]
  rfl

theorem advance_erase (parser : Parser) : parser.erase.advance = parser.advance.erase := by
  unfold advance
  exact congrArg (Parser.mk · _ _) parser.window.advance_erase

theorem record_erase (parser : Parser) (problem : Problem) (line : Int) :
    (parser.record problem line).erase = parser.erase.record problem 0 := by
  simp [record, erase, Diagnostic.erase]

end Parser

namespace Parse

variable {α β : Type}

/-- Without lines the first step does what the second does: it ends the same way, its
result is the other one's without lines, and so is the parser that it leaves. -/
def Erases (change : α → α) (step other : Parse α) : Prop :=
  ∀ parser : Parser, other parser.erase = ((step parser).1.map change, (step parser).2.erase)

namespace Erases

variable {change : α → α} {step other : Parse α}

theorem pure {result erased : α} (same : change result = erased) :
    Erases change (pure result : Parse α) (pure erased) :=
  fun _ => congrArg (fun result => (Outcome.parsed result, _)) same.symm

theorem bind {change' : β → β} {next next' : α → Parse β} (first : Erases change step other)
    (second : ∀ result, Erases change' (next result) (next' (change result))) :
    Erases change' (step >>= next) (other >>= next') := by
  intro parser
  have here := first parser
  change andThen other next' parser.erase =
    ((andThen step next parser).1.map change', (andThen step next parser).2.erase)
  unfold andThen
  rw [here]
  obtain ⟨outcome, after⟩ := step parser
  cases outcome with
  | parsed result => exact second result after
  | failed => rfl
  | fault cause => rfl

theorem current : Erases Token.erase Parse.current Parse.current := fun _ => rfl

theorem advance : Erases id Parse.advance Parse.advance :=
  fun parser => congrArg (Outcome.parsed (), ·) parser.advance_erase

theorem breakOff (cause : ParseFault) :
    Erases change (Parse.breakOff cause) (Parse.breakOff cause) :=
  fun _ => rfl

theorem failHere (problem : Problem) :
    Erases change (Parse.failHere problem) (Parse.failHere problem) :=
  fun parser => congrArg (Outcome.failed, ·) (parser.record_erase problem _).symm

theorem expect (kind : TokenKind) : Erases id (Parse.expect kind) (Parse.expect kind) := by
  intro parser
  unfold Parse.expect
  rw [parser.peek_kind_erase, parser.peek_erase, parser.advance_erase]
  split
  · rfl
  · exact congrArg (Outcome.failed, ·) (parser.record_erase _ _).symm

theorem overLimit (limit : Int) :
    Erases change (Parse.overLimit limit : Parse α) (Parse.overLimit limit) := by
  unfold Parse.overLimit
  split
  · exact failHere _
  · exact breakOff _

theorem nested (limit : Int) (inside : Erases change step other) :
    Erases change (Parse.nested limit step) (Parse.nested limit other) := by
  intro parser
  unfold Parse.nested
  have here : parser.erase.atLimit limit = parser.atLimit limit := rfl
  rw [here]
  split
  · exact overLimit limit parser
  · have deeper := inside { parser with depth := parser.depth + 1 }
    change other { parser.erase with depth := parser.erase.depth + 1 } = _ at deeper
    rw [deeper]
    rfl

theorem terminated (inside : Erases change step other) :
    Erases change (Parse.terminated step) (Parse.terminated other) := by
  intro parser
  have here := inside parser
  unfold Parse.terminated
  rw [here]
  obtain ⟨outcome, after⟩ := step parser
  have taken : (if after.erase.peek.kind = .semicolon then after.erase.advance else after.erase) =
      (if after.peek.kind = .semicolon then after.advance else after).erase := by
    rw [after.peek_kind_erase, after.advance_erase]
    split <;> rfl
  cases outcome with
  | parsed result => exact congrArg (Outcome.parsed (change result), ·) taken
  | failed => exact congrArg (Outcome.failed, ·) taken
  | fault cause => rfl

/-- A step that takes its turns from the tokens where it stands. -/
theorem look (steps others : List Token → Parse α)
    (each : ∀ turns, Erases change (steps turns) (others (turns.map Token.erase))) :
    Erases change (fun parser => steps parser.tokens parser)
      (fun parser => others parser.tokens parser) :=
  fun parser => each parser.tokens parser

/-- A step that chooses by the kind of the next token. -/
theorem choice {kind : TokenKind} {first first' second second' : Parse α}
    (chosen : Erases change first first') (otherwise : Erases change second second') :
    Erases change (fun parser => if parser.peek.kind = kind then first parser else second parser)
      (fun parser => if parser.peek.kind = kind then first' parser else second' parser) := by
  intro parser
  dsimp only
  rw [parser.peek_kind_erase]
  split
  · exact chosen parser
  · exact otherwise parser

end Erases

end Parse

/-- Both routines one level deeper do the same without lines. -/
structure ErasesNested (inner : Nested) : Prop where
  expression : ∀ floor : Floor,
    Parse.Erases Node.erase (inner.expression floor) (inner.expression floor.erase)
  block : Parse.Erases Node.erase inner.block inner.block

/-! ## The rules -/

namespace Routine

open Parse

theorem identifier_erases : Erases Node.erase identifier identifier :=
  .bind .current fun _ => .pure rfl

theorem integer_erases : Erases Node.erase integer integer := by
  refine .bind .current fun token => ?_
  dsimp only [Token.erase]
  cases Decimal.read? token.literal with
  | some value => exact .pure rfl
  | none => exact .failHere _

theorem boolean_erases : Erases Node.erase boolean boolean :=
  .bind .current fun _ => .pure rfl

theorem parameter_erases : Erases Node.eraseName parameter parameter :=
  .bind (.expect _) fun _ => .bind .current fun _ => .pure rfl

/-- A list up to its closing parenthesis whose entries come after a comma each. -/
theorem listing_erases {β : Type} {change : β → β} {loop : List Token → List β → Parse (List β)}
    (entry : (β → Parse (List β)) → Parse (List β))
    (ends : ∀ found, loop [] found = do expect .rightParen; return found.reverse)
    (turned : ∀ turn turns found, loop (turn :: turns) found = fun parser =>
      if parser.peek.kind = .comma then entry (fun item => loop turns (item :: found)) parser
      else (do expect .rightParen; return found.reverse : Parse (List β)) parser)
    (entries : ∀ next next' : β → Parse (List β),
      (∀ item, Erases (List.map change) (next item) (next' (change item))) →
      Erases (List.map change) (entry next) (entry next'))
    (turns : List Token) (found : List β) :
    Erases (List.map change) (loop turns found)
      (loop (turns.map Token.erase) (found.map change)) := by
  have closing (found : List β) :
      Erases (List.map change) (do expect .rightParen; return found.reverse)
        (do expect .rightParen; return (found.map change).reverse) :=
    .bind (.expect _) fun _ => .pure List.map_reverse
  induction turns generalizing found with
  | nil =>
      rw [List.map_nil, ends, ends]
      exact closing found
  | cons turn turns ih =>
      rw [List.map_cons, turned, turned]
      exact .choice (entries _ _ fun item => ih (item :: found)) (closing found)

theorem parameters_erases : Erases (List.map Node.eraseName) parameters parameters := by
  have none : Erases (List.map Node.eraseName)
      (do advance; return []) (do advance; return []) :=
    .bind .advance fun _ => .pure rfl
  let reading (turns : List Token) : Parse (List Name) := do
    let name ← parameter
    moreParameters turns [name]
  refine .choice none (.look reading reading fun turns => .bind parameter_erases fun name => ?_)
  refine listing_erases (fun next => do advance; let name ← parameter; next name) (fun _ => rfl)
    (fun _ _ _ => rfl) (fun next next' each => ?_) turns [name]
  exact .bind .advance fun _ => .bind parameter_erases each

section Nested

variable {inner : Nested} (nested : ErasesNested inner)

include nested

theorem arguments_erases : Erases (List.map Node.erase) (arguments inner) (arguments inner) := by
  have none : Erases (List.map Node.erase) (do advance; return []) (do advance; return []) :=
    .bind .advance fun _ => .pure rfl
  let reading (turns : List Token) : Parse (List Node) := do
    advance
    let node ← inner.expression .lowest
    moreArguments inner turns [node]
  refine .choice none (.look reading reading fun turns => .bind .advance fun _ =>
    .bind (nested.expression .lowest) fun node => ?_)
  refine listing_erases
    (fun next => do advance; advance; let node ← inner.expression .lowest; next node)
    (fun _ => rfl) (fun _ _ _ => rfl) (fun next next' each => ?_) turns [node]
  exact .bind .advance fun _ => .bind .advance fun _ => .bind (nested.expression .lowest) each

theorem prefixed_erases : Erases Node.erase (prefixed inner) (prefixed inner) :=
  .bind .current fun _ => .bind .advance fun _ =>
    .bind (nested.expression (.level Precedence.unary)) fun _ => .pure rfl

theorem group_erases : Erases Node.erase (group inner) (group inner) :=
  .bind .advance fun _ => .bind (nested.expression .lowest) fun _ =>
    .bind (.expect _) fun _ => .pure rfl

theorem alternative_erases (line : Int) (condition consequence : Node) :
    Erases Node.erase (alternative inner line condition consequence)
      (alternative inner 0 condition.erase consequence.erase) :=
  .choice
    (.bind .advance fun _ => .bind (.expect _) fun _ => .bind nested.block fun _ => .pure rfl)
    (.pure rfl)

theorem conditional_erases : Erases Node.erase (conditional inner) (conditional inner) :=
  .bind .current fun _ => .bind (.expect _) fun _ => .bind .advance fun _ =>
    .bind (nested.expression .lowest) fun _ => .bind (.expect _) fun _ => .bind (.expect _) fun _ =>
      .bind nested.block fun _ => alternative_erases nested _ _ _

theorem function_erases : Erases Node.erase (function inner) (function inner) :=
  .bind .current fun _ => .bind (.expect _) fun _ => .bind parameters_erases fun _ =>
    .bind (.expect _) fun _ => .bind nested.block fun _ => .pure rfl

theorem binary_erases (left : Node) :
    Erases Node.erase (binary inner left) (binary inner left.erase) :=
  .bind .current fun token => .bind .advance fun _ =>
    .bind (nested.expression (.level token.kind.precedence)) fun _ => .pure rfl

theorem call_erases (callee : Node) :
    Erases Node.erase (call inner callee) (call inner callee.erase) := by
  refine .bind .current fun _ => .bind (arguments_erases nested) fun given => .pure ?_
  rw [Node.erase, Node.eraseAll_eq_map]
  rfl

theorem letStatement_erases : Erases Node.erase (letStatement inner) (letStatement inner) :=
  .bind .current fun _ => .bind (.expect _) fun _ => .bind .current fun _ =>
    .bind (.expect _) fun _ => .bind .advance fun _ =>
      .bind (.terminated (nested.expression .lowest)) fun _ => .pure rfl

theorem returnStatement_erases :
    Erases Node.erase (returnStatement inner) (returnStatement inner) :=
  .bind .current fun _ => .bind .advance fun _ =>
    .bind (.terminated (nested.expression .lowest)) fun _ => .pure rfl

theorem expressionStatement_erases :
    Erases Node.erase (expressionStatement inner) (expressionStatement inner) :=
  .bind .current fun _ => .bind (.terminated (nested.expression .lowest)) fun _ => .pure rfl

theorem statement_erases : Erases Node.erase (statement inner) (statement inner) := by
  intro parser
  unfold statement
  rw [parser.curr_kind_erase]
  split
  · exact letStatement_erases nested parser
  · exact returnStatement_erases nested parser
  · exact expressionStatement_erases nested parser

/-- Each turn of a block is taken without lines as it is with them. -/
theorem blockBody_erases (turns : List Token) (found : List Node) :
    Erases (List.map Node.erase) (blockBody inner turns found)
      (blockBody inner (turns.map Token.erase) (found.map Node.erase)) := by
  induction turns generalizing found with
  | nil => exact .failHere _
  | cons turn turns ih =>
      intro parser
      rw [List.map_cons, blockBody, blockBody]
      dsimp only
      rw [parser.curr_kind_erase, statement_erases nested parser, ← List.map_reverse]
      split
      · rfl
      split
      · exact Erases.failHere _ parser
      obtain ⟨outcome, after⟩ := statement inner parser
      cases outcome with
      | parsed node =>
          dsimp only [Outcome.map]
          rw [after.advance_erase]
          exact ih (node :: found) after.advance
      | failed =>
          dsimp only [Outcome.map]
          rw [after.curr_kind_erase, after.advance_erase]
          split
          · rfl
          · exact ih found after.advance
      | fault cause => rfl

theorem block_erases (limit : Int) : Erases Node.erase (block limit inner) (block limit inner) := by
  let body (turns : List Token) : Parse (List Node) := blockBody inner turns []
  refine .nested limit (.bind .current fun _ => .bind .advance fun _ =>
    .bind (.look body body fun turns => blockBody_erases nested turns []) fun statements =>
      .pure ?_)
  rw [Node.erase, Node.eraseAll_eq_map]
  rfl

theorem programBody_erases (limit : Int) (turns : List Token) (found : List Node) :
    Erases (List.map Node.erase) (programBody limit inner turns found)
      (programBody limit inner (turns.map Token.erase) (found.map Node.erase)) := by
  induction turns generalizing found with
  | nil => exact .pure List.map_reverse
  | cons turn turns ih =>
      intro parser
      rw [List.map_cons, programBody, programBody]
      dsimp only
      rw [parser.curr_kind_erase, statement_erases nested parser, ← List.map_reverse]
      split
      · rfl
      obtain ⟨outcome, after⟩ := statement inner parser
      cases outcome with
      | parsed node =>
          dsimp only [Outcome.map]
          rw [after.advance_erase]
          exact ih (node :: found) after.advance
      | failed =>
          dsimp only [Outcome.map]
          rw [after.advance_erase]
          exact ih found after.advance
      | fault cause =>
          cases cause with
          | stackExhausted =>
              dsimp only [Outcome.map]
              split
              · exact congrArg (Outcome.parsed _, ·)
                  (after.record_erase (.tooNested limit) _).symm
              · rfl
          | _ => rfl

theorem program_erases (limit : Int) :
    Erases Node.erase (program limit inner) (program limit inner) := by
  let body (turns : List Token) : Parse Node := do
    let statements ← programBody limit inner turns []
    return .program statements
  refine .look body body fun turns =>
    .bind (programBody_erases nested limit turns []) fun statements => .pure ?_
  rw [Node.erase, Node.eraseAll_eq_map]

theorem asOperand_erases (limit : Int) (rule : Rule) :
    Erases Node.erase (asOperand limit inner rule) (asOperand limit inner rule) := by
  cases rule with
  | program => exact program_erases nested limit
  | statement => exact statement_erases nested
  | letStatement => exact letStatement_erases nested
  | returnStatement => exact returnStatement_erases nested
  | expressionStatement => exact expressionStatement_erases nested
  | block => exact nested.block
  | expression => exact .breakOff _
  | identifier => exact identifier_erases
  | integer => exact integer_erases
  | boolean => exact boolean_erases
  | prefixed => exact prefixed_erases nested
  | binary => exact .breakOff _
  | group => exact group_erases nested
  | conditional => exact conditional_erases nested
  | function => exact function_erases nested
  | parameters =>
      refine .bind parameters_erases fun names => .pure ?_
      simp [Node.erase, Node.eraseAll_eq_map]
  | call => exact .breakOff _
  | arguments =>
      refine .bind (arguments_erases nested) fun given => .pure ?_
      rw [Node.erase, Node.eraseAll_eq_map]

theorem asContinuation_erases (left : Node) (rule : Rule) :
    Erases Node.erase (asContinuation inner left rule) (asContinuation inner left.erase rule) := by
  cases rule with
  | binary => exact binary_erases nested left
  | call => exact call_erases nested left
  | expression => exact nested.expression (.operand left)
  | _ => exact .breakOff _

theorem operand_erases (grammar : Grammar) (limit : Int) :
    Erases Node.erase (operand grammar limit inner) (operand grammar limit inner) := by
  intro parser
  unfold operand
  rw [parser.curr_kind_erase]
  cases grammar.operand parser.curr.kind with
  | none => exact Erases.failHere _ parser
  | some rule => exact asOperand_erases nested limit rule parser

theorem climb_erases (grammar : Grammar) (floor : Floor) (turns : List Token) (left : Node) :
    Erases Node.erase (climb grammar inner floor turns left)
      (climb grammar inner floor.erase (turns.map Token.erase) left.erase) := by
  induction turns generalizing left with
  | nil => exact .pure rfl
  | cons turn turns ih =>
      intro parser
      rw [List.map_cons, climb, climb]
      dsimp only
      rw [parser.peek_kind_erase, floor.below_erase]
      split
      · rfl
      split
      · rfl
      · rfl
      cases grammar.continuation parser.peek.kind with
      | none => rfl
      | some rule =>
          have taken : Erases Node.erase (do
              advance
              let next ← asContinuation inner left rule
              climb grammar inner floor turns next) (do
              advance
              let next ← asContinuation inner left.erase rule
              climb grammar inner floor.erase (turns.map Token.erase) next) :=
            .bind .advance fun _ => .bind (asContinuation_erases nested left rule) ih
          exact taken parser

theorem expression_erases (grammar : Grammar) (limit : Int) (floor : Floor) :
    Erases Node.erase (expression grammar limit inner floor)
      (expression grammar limit inner floor.erase) :=
  .nested limit (.bind (operand_erases nested grammar limit) fun left =>
    .look (climb grammar inner floor · left) (climb grammar inner floor.erase · left.erase)
      fun turns => climb_erases nested grammar floor turns left)

end Nested

end Routine

/-- However deep they go, the routines do the same without lines. -/
theorem nestedRoutines_erases (grammar : Grammar) (limit : Int) (levels : Nat) :
    ErasesNested (nestedRoutines grammar limit levels) := by
  induction levels with
  | zero => exact ⟨fun _ => .breakOff _, .breakOff _⟩
  | succ levels ih =>
      exact ⟨Routine.expression_erases ih grammar limit, Routine.block_erases ih limit⟩

theorem parseProgram_erases (grammar : Grammar) (limit : Int) (levels : Nat) :
    Parse.Erases Node.erase (parseProgram grammar limit levels)
      (parseProgram grammar limit levels) :=
  Routine.program_erases (nestedRoutines_erases grammar limit levels) limit

theorem Parser.ofTokens_erase {tokens : List Token} (some : tokens ≠ []) :
    Parser.ofTokens (tokens.map Token.erase) = (Parser.ofTokens tokens).erase := by
  cases tokens with
  | nil => exact absurd rfl some
  | cons token rest => rfl

/-- Tokens without lines are parsed to the tree and the diagnostics without lines. -/
theorem parseTokens_erase (limit : Int) (levels : Nat) {tokens : List Token}
    (some : tokens ≠ []) :
    parseTokens limit levels (tokens.map Token.erase) =
      (parseTokens limit levels tokens).map Parsed.erase := by
  unfold parseTokens
  rw [Parser.ofTokens_erase some, parseProgram_erases .standard limit levels]
  obtain ⟨outcome, after⟩ := parseProgram .standard limit levels (.ofTokens tokens)
  cases outcome <;> rfl

theorem Parsed.errors_erase (parsed : Parsed) : parsed.erase.errors = parsed.errors := by
  simp [errors, erase, Diagnostic.erase, Diagnostic.message, Function.comp_def]

end ExprLang
