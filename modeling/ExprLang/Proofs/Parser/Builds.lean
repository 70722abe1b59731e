/-
# ExprLang.Proofs.Parser.Builds — what the parser's trees are made of

Whatever a text looks like, and however many of its statements fail, the tree
that the parser makes of the rest is a program whose nodes stand where they
belong, and each of them is made of tokens that were read for it: its line, its
name, its number or its operator is that of a token of the right kind
(`Node.Made`). Where every token fits a lexicon in the part that it can take
(`Token.Fits`), the tree is one of the lexicon (`Node.Made.placed`).

`Builds` says this of a step, from every parser that has only the given tokens
ahead and whose current token is of some kind. A step only moves forward, so
there are no others after it.
-/
import ExprLang.Proofs.Node.Placed
import ExprLang.Proofs.Parser.Orderly

namespace ExprLang

set_option autoImplicit false

/-! ## Trees that are made of tokens -/

/-- A name that is made of a token. -/
def Name.Made (tokens : List Token) (name : Name) : Prop :=
  ∃ token ∈ tokens, token.kind = .identifier ∧ name = ⟨token.literal, token.line⟩

/-- A tree in a place, made of tokens. A block has the line of its opening brace, an
infix expression that of its operator, a call that of its opening parenthesis, and
every other node that of its first token. -/
inductive Node.Made (tokens : List Token) : Place → Node → Prop where
  | program {statements : List Node}
      (each : ∀ statement ∈ statements, Made tokens .statement statement) :
      Made tokens .program (.program statements)
  | block {brace : Token} {statements : List Node} (read : brace ∈ tokens)
      (kind : brace.kind = .leftBrace)
      (each : ∀ statement ∈ statements, Made tokens .statement statement) :
      Made tokens .block (.block brace.line statements)
  | letStatement {keyword : Token} {name : Name} {value : Node} (read : keyword ∈ tokens)
      (kind : keyword.kind = .letKeyword) (named : name.Made tokens)
      (inner : Made tokens .expression value) :
      Made tokens .statement (.letStatement keyword.line name value)
  | returnStatement {keyword : Token} {value : Node} (read : keyword ∈ tokens)
      (kind : keyword.kind = .returnKeyword) (inner : Made tokens .expression value) :
      Made tokens .statement (.returnStatement keyword.line value)
  | expressionStatement {first : Token} {expression : Node} (read : first ∈ tokens)
      (inner : Made tokens .expression expression) :
      Made tokens .statement (.expressionStatement first.line expression)
  | identifier {name : Name} (named : name.Made tokens) :
      Made tokens .expression (.identifier name)
  | integer {token : Token} {value : Int} (read : token ∈ tokens) (kind : token.kind = .int)
      (number : Decimal.read? token.literal = some value) :
      Made tokens .expression (.integer token.line value)
  | boolean {token : Token} (read : token ∈ tokens)
      (kind : token.kind = .trueKeyword ∨ token.kind = .falseKeyword) :
      Made tokens .expression (.boolean token.line (token.kind == .trueKeyword))
  | prefixed {sign : Token} {operand : Node} (read : sign ∈ tokens)
      (kind : Grammar.standard.operand sign.kind = some .prefixed)
      (inner : Made tokens .expression operand) :
      Made tokens .expression (.prefixed sign.line sign.literal operand)
  | binary {sign : Token} {left right : Node} (read : sign ∈ tokens)
      (kind : Grammar.standard.continuation sign.kind = some .binary)
      (first : Made tokens .expression left) (second : Made tokens .expression right) :
      Made tokens .expression (.binary sign.line left sign.literal right)
  | ifThen {keyword : Token} {condition consequence : Node} (read : keyword ∈ tokens)
      (kind : keyword.kind = .ifKeyword) (test : Made tokens .expression condition)
      (first : Made tokens .block consequence) :
      Made tokens .expression (.ifThen keyword.line condition consequence)
  | ifElse {keyword : Token} {condition consequence alternative : Node}
      (read : keyword ∈ tokens) (kind : keyword.kind = .ifKeyword)
      (test : Made tokens .expression condition) (first : Made tokens .block consequence)
      (second : Made tokens .block alternative) :
      Made tokens .expression (.ifElse keyword.line condition consequence alternative)
  | function {keyword : Token} {parameters : List Name} {body : Node}
      (read : keyword ∈ tokens) (kind : keyword.kind = .functionKeyword)
      (named : ∀ parameter ∈ parameters, parameter.Made tokens)
      (inner : Made tokens .block body) :
      Made tokens .expression (.function keyword.line parameters body)
  | call {paren : Token} {callee : Node} {arguments : List Node} (read : paren ∈ tokens)
      (kind : paren.kind = .leftParen) (target : Made tokens .expression callee)
      (each : ∀ argument ∈ arguments, Made tokens .expression argument) :
      Made tokens .expression (.call paren.line callee arguments)

/-- A token whose line, and whose text in the parts it can take in a tree, are of
the lexicon. -/
structure Token.Fits (lexicon : Lexicon) (token : Token) : Prop where
  line : lexicon.line token.line
  name : token.kind = .identifier → lexicon.name token.literal
  number : token.kind = .int → ∀ value ∈ Decimal.read? token.literal, lexicon.number value
  unary : Grammar.standard.operand token.kind = some .prefixed → lexicon.unary token.literal
  binary : Grammar.standard.continuation token.kind = some .binary → lexicon.binary token.literal

/-- Every token fits the lexicon that admits everything. -/
theorem Token.fits_any (token : Token) : token.Fits .any :=
  ⟨trivial, fun _ => trivial, fun _ _ _ => trivial, fun _ => trivial, fun _ => trivial⟩

/-- Every token from the current one on fits. -/
def Window.Fits (lexicon : Lexicon) (window : Window) : Prop :=
  ∀ token ∈ window.tokens, token.Fits lexicon

theorem Name.Made.fits {tokens : List Token} {lexicon : Lexicon} {name : Name}
    (fits : ∀ token ∈ tokens, token.Fits lexicon) (made : name.Made tokens) :
    lexicon.line name.line ∧ lexicon.name name.text := by
  obtain ⟨token, read, kind, rfl⟩ := made
  exact ⟨(fits token read).line, (fits token read).name kind⟩

/-- A tree that is made of tokens of a lexicon is a tree of the lexicon. -/
theorem Node.Made.placed {tokens : List Token} {lexicon : Lexicon} {place : Place} {node : Node}
    (fits : ∀ token ∈ tokens, token.Fits lexicon) (made : node.Made tokens place) :
    node.Placed lexicon place := by
  induction made with
  | program _ ih => exact .program ih
  | block read _ _ ih => exact .block (fits _ read).line ih
  | letStatement read _ named _ ih =>
      exact .letStatement (fits _ read).line (named.fits fits).2 ih
  | returnStatement read _ _ ih => exact .returnStatement (fits _ read).line ih
  | expressionStatement read _ ih => exact .expressionStatement (fits _ read).line ih
  | identifier named => exact .identifier (named.fits fits).1 (named.fits fits).2
  | integer read kind number =>
      exact .integer (fits _ read).line ((fits _ read).number kind _ number)
  | boolean read => exact .boolean (fits _ read).line
  | prefixed read kind _ ih => exact .prefixed (fits _ read).line ((fits _ read).unary kind) ih
  | binary read kind _ _ first second =>
      exact .binary (fits _ read).line ((fits _ read).binary kind) first second
  | ifThen read _ _ _ test first => exact .ifThen (fits _ read).line test first
  | ifElse read _ _ _ _ test first second =>
      exact .ifElse (fits _ read).line test first second
  | function read _ named _ ih =>
      exact .function (fits _ read).line (fun name member => (named name member).fits fits) ih
  | call read _ _ _ target each => exact .call (fits _ read).line target each

/-! ## Steps -/

namespace Parse

variable {α β : Type} {tokens : List Token} {starts : TokenKind → Prop}

/-- A step that only moves forward. -/
abbrev Forward (step : Parse α) : Prop := Orderly (fun _ _ => True) step

theorem Forward.subset {step : Parse α} (forward : Forward step) {parser : Parser}
    (among : parser.window.tokens ⊆ tokens) : (step parser).2.window.tokens ⊆ tokens := by
  obtain ⟨window, depth, diagnostics⟩ := parser
  obtain ⟨outcome, left, found, ran, onward, -⟩ := forward.orders window depth
  rw [ran]
  exact List.Subset.trans onward.subset among

/-- With none but the given tokens ahead, from a current token as said, a result of
the step is good. -/
def Builds (tokens : List Token) (starts : TokenKind → Prop) (good : α → Prop)
    (step : Parse α) : Prop :=
  ∀ parser : Parser, parser.window.tokens ⊆ tokens → starts parser.curr.kind →
    ∀ result, (step parser).1 = .parsed result → good result

namespace Builds

variable {step : Parse α} {next : α → Parse β} {good : α → Prop} {better : β → Prop}

theorem mono {wider : TokenKind → Prop} (builds : Builds tokens wider good step)
    (wide : ∀ kind, starts kind → wider kind) : Builds tokens starts good step :=
  fun parser among start => builds parser among (wide _ start)

theorem anywhere (builds : Builds tokens (fun _ => True) good step) :
    Builds tokens starts good step :=
  builds.mono fun _ _ => trivial

theorem pure {result : α} (here : good result) :
    Builds tokens starts good (pure result : Parse α) := by
  rintro parser - - _ ⟨⟩
  exact here

theorem failHere (problem : Problem) :
    Builds tokens starts good (Parse.failHere problem : Parse α) :=
  nofun

theorem bind [forward : Forward step] (first : Builds tokens starts good step)
    (second : ∀ result, good result → Builds tokens (fun _ => True) better (next result)) :
    Builds tokens starts better (step >>= next) := by
  intro parser among start result ended
  have among' := forward.subset among
  change (andThen step next parser).1 = _ at ended
  unfold andThen at ended
  split at ended
  · next held after reached =>
      rw [reached] at among'
      have built := first parser among start held (by rw [reached])
      exact second held built after among' trivial result ended
  · cases ended
  · cases ended

theorem current {next : Token → Parse β}
    (second : ∀ token ∈ tokens, starts token.kind →
      Builds tokens (· = token.kind) better (next token)) :
    Builds tokens starts better (Parse.current >>= next) :=
  fun parser among start =>
    second parser.curr (among List.mem_cons_self) start parser among rfl

theorem advance {next : Unit → Parse β}
    (second : Builds tokens (fun _ => True) better (next ())) :
    Builds tokens starts better (Parse.advance >>= next) :=
  @bind _ _ _ _ _ _ (fun _ => True) _ _ (fun _ _ _ _ _ => trivial) fun _ _ => second

/-- After a token that was wanted, it is the current one. -/
theorem expect {kind : TokenKind} {next : Unit → Parse β}
    (second : Builds tokens (· = kind) better (next ())) :
    Builds tokens starts better (Parse.expect kind >>= next) := by
  rintro ⟨window, depth, diagnostics⟩ among - result ended
  by_cases wanted : window.peek.kind = kind
  · rw [bind_of_parsed (Run.expect wanted diagnostics)] at ended
    refine second _ (List.Subset.trans window.tokens_advance.subset among) ?_ result ended
    change window.advance.curr.kind = kind
    rwa [Window.advance_curr]
  · rw [(Run.refused wanted).bind_failed] at ended
    cases ended

theorem nested (limit : Int) (builds : Builds tokens starts good step) :
    Builds tokens starts good (Parse.nested limit step) := by
  intro parser among start result ended
  unfold Parse.nested at ended
  split at ended
  · have full : overLimit limit parser = (.parsed result, _) := Prod.ext ended rfl
    exact absurd full (overLimit_ne_parsed limit parser result _)
  · exact builds { parser with depth := parser.depth + 1 } among start result ended

theorem terminated (builds : Builds tokens starts good step) :
    Builds tokens starts good (Parse.terminated step) := by
  intro parser among start result ended
  refine builds parser among start result ?_
  unfold Parse.terminated at ended
  split at ended
  · cases ended
  · next reached =>
      rw [reached]
      exact ended

/-- A step that takes its turns from the tokens where it stands. -/
theorem look (steps : List Token → Parse α)
    (builds : ∀ turns, Builds tokens starts good (steps turns)) :
    Builds tokens starts good (fun parser => steps parser.tokens parser) :=
  fun parser => builds parser.tokens parser

/-- A step that chooses by where it stands. -/
theorem choice {condition : Parser → Prop} [∀ parser, Decidable (condition parser)]
    {first second : Parse α} (chosen : Builds tokens starts good first)
    (otherwise : Builds tokens starts good second) :
    Builds tokens starts good
      (fun parser => if condition parser then first parser else second parser) := by
  intro parser among start result ended
  dsimp only at ended
  split at ended
  · exact chosen parser among start result ended
  · exact otherwise parser among start result ended

end Builds

end Parse

/-- Routines one level deeper that only move forward and build trees that are made of
the tokens. -/
structure BuildsNested (tokens : List Token) (inner : Nested) : Prop where
  forward : OrderlyNested (fun _ _ => True) inner
  expression : ∀ floor : Nat, Parse.Builds tokens (fun _ => True) (Node.Made tokens .expression)
    (inner.expression (.level floor))
  block : Parse.Builds tokens (· = .leftBrace) (Node.Made tokens .block) inner.block

/-! ## The rules -/

namespace Routine

open Parse

variable {tokens : List Token} {inner : Nested}

theorem identifier_builds :
    Builds tokens (· = .identifier) (Node.Made tokens .expression) identifier :=
  .current fun token read kind => .pure (.identifier ⟨token, read, kind, rfl⟩)

theorem integer_builds :
    Builds tokens (· = .int) (Node.Made tokens .expression) integer := by
  refine .current fun token read kind => ?_
  split
  · next value number => exact .pure (.integer read kind number)
  · exact .failHere _

theorem boolean_builds : Builds tokens (fun kind => kind = .trueKeyword ∨ kind = .falseKeyword)
    (Node.Made tokens .expression) boolean :=
  .current fun _ read kind => .pure (.boolean read kind)

theorem parameter_builds : Builds tokens (fun _ => True) (Name.Made tokens) parameter :=
  .expect (.current fun token read kind => .pure ⟨token, read, kind, rfl⟩)

/-- A list up to its closing parenthesis whose entries, after a comma each, are
good. -/
theorem listing_builds {β : Type} {good : β → Prop} {loop : List Token → List β → Parse (List β)}
    (entry : (β → Parse (List β)) → Parse (List β))
    (ends : ∀ found, loop [] found = do expect .rightParen; return found.reverse)
    (turned : ∀ turn turns found, loop (turn :: turns) found = fun parser =>
      if parser.peek.kind = .comma then entry (fun item => loop turns (item :: found)) parser
      else (do expect .rightParen; return found.reverse : Parse (List β)) parser)
    (entries : ∀ next : β → Parse (List β),
      (∀ item, good item →
        Builds tokens (fun _ => True) (fun items => ∀ item ∈ items, good item) (next item)) →
      Builds tokens (fun _ => True) (fun items => ∀ item ∈ items, good item) (entry next))
    (turns : List Token) (found : List β) (each : ∀ item ∈ found, good item) :
    Builds tokens (fun _ => True) (fun items => ∀ item ∈ items, good item) (loop turns found) := by
  induction turns generalizing found with
  | nil =>
      rw [ends]
      exact .expect (.pure (by simpa using each))
  | cons turn turns ih =>
      rw [turned]
      refine .choice (entries _ fun item here => ih _ ?_) (.expect (.pure (by simpa using each)))
      rintro other (_ | ⟨_, member⟩)
      · exact here
      · exact each other member

theorem parameters_builds :
    Builds tokens (fun _ => True) (fun names => ∀ name ∈ names, name.Made tokens)
      parameters := by
  have none : Builds tokens (fun _ => True) (fun names => ∀ name ∈ names, name.Made tokens) (do
      advance
      return ([] : List Name)) := .advance (.pure nofun)
  refine .choice none (.look (fun turns => do
    let name ← parameter
    moreParameters turns [name]) fun turns => ?_)
  refine parameter_builds.bind fun name named => ?_
  refine listing_builds (fun next => do advance; let name ← parameter; next name) (fun _ => rfl)
    (fun _ _ _ => rfl) (fun next each => ?_) turns [name] (by simpa using named)
  exact .advance (parameter_builds.bind each)

section Nested

variable (nested : BuildsNested tokens inner)

include nested

theorem arguments_builds :
    Builds tokens (fun _ => True) (fun nodes => ∀ node ∈ nodes, node.Made tokens .expression)
      (arguments inner) := by
  have := nested.forward
  have none : Builds tokens (fun _ => True)
      (fun nodes => ∀ node ∈ nodes, node.Made tokens .expression) (do
        advance
        return ([] : List Node)) := .advance (.pure nofun)
  refine .choice none (.look (fun turns => do
    advance
    let node ← inner.expression .lowest
    moreArguments inner turns [node]) fun turns => ?_)
  refine .advance ((nested.expression _).bind fun node made => ?_)
  refine listing_builds
    (fun next => do advance; advance; let node ← inner.expression .lowest; next node)
    (fun _ => rfl) (fun _ _ _ => rfl) (fun next each => ?_) turns [node] (by simpa using made)
  exact .advance (.advance ((nested.expression _).bind each))

theorem prefixed_builds : Builds tokens (fun kind => kind = .bang ∨ kind = .minus)
    (Node.Made tokens .expression) (prefixed inner) := by
  have := nested.forward
  refine .current fun token read kind => .advance ?_
  refine (nested.expression _).bind fun operand made => .pure (.prefixed read ?_ made)
  rcases kind with same | same <;> rw [same] <;> rfl

theorem group_builds :
    Builds tokens (fun _ => True) (Node.Made tokens .expression) (group inner) := by
  have := nested.forward
  exact .advance ((nested.expression _).bind fun node made => .expect (.pure made))

theorem alternative_builds {keyword : Token} {condition consequence : Node}
    (read : keyword ∈ tokens) (kind : keyword.kind = .ifKeyword)
    (test : condition.Made tokens .expression) (first : consequence.Made tokens .block) :
    Builds tokens (fun _ => True) (Node.Made tokens .expression)
      (alternative inner keyword.line condition consequence) := by
  have := nested.forward
  refine .choice (.advance (.expect ?_)) (.pure (.ifThen read kind test first))
  exact nested.block.bind fun other second => .pure (.ifElse read kind test first second)

theorem conditional_builds :
    Builds tokens (· = .ifKeyword) (Node.Made tokens .expression) (conditional inner) := by
  have := nested.forward
  refine .current fun keyword read kind => .expect (.advance ?_)
  refine (nested.expression _).bind fun condition test => .expect (.expect ?_)
  exact nested.block.bind fun consequence first =>
    alternative_builds nested read kind test first

theorem function_builds :
    Builds tokens (· = .functionKeyword) (Node.Made tokens .expression) (function inner) := by
  have := nested.forward
  refine .current fun keyword read kind => .expect ?_
  refine parameters_builds.anywhere.bind fun names named => .expect ?_
  exact nested.block.bind fun body inside => .pure (.function read kind named inside)

theorem binary_builds {left : Node} (first : left.Made tokens .expression) :
    Builds tokens (fun kind => Grammar.standard.continuation kind = some .binary)
      (Node.Made tokens .expression) (binary inner left) := by
  have := nested.forward
  refine .current fun token read kind => .advance ?_
  exact (nested.expression _).bind fun right second => .pure (.binary read kind first second)

theorem call_builds {callee : Node} (target : callee.Made tokens .expression) :
    Builds tokens (· = .leftParen) (Node.Made tokens .expression) (call inner callee) := by
  have := nested.forward
  refine .current fun paren read kind => ?_
  exact (arguments_builds nested).anywhere.bind fun given each =>
    .pure (.call read kind target each)

theorem letStatement_builds :
    Builds tokens (· = .letKeyword) (Node.Made tokens .statement) (letStatement inner) := by
  have := nested.forward
  refine .current fun keyword read kind => .expect ?_
  refine .current fun name readName named => .expect (.advance ?_)
  exact (nested.expression _).terminated.bind fun value made =>
    .pure (.letStatement read kind ⟨name, readName, named, rfl⟩ made)

theorem returnStatement_builds :
    Builds tokens (· = .returnKeyword) (Node.Made tokens .statement) (returnStatement inner) := by
  have := nested.forward
  refine .current fun keyword read kind => .advance ?_
  exact (nested.expression _).terminated.bind fun value made =>
    .pure (.returnStatement read kind made)

theorem expressionStatement_builds :
    Builds tokens (fun _ => True) (Node.Made tokens .statement)
      (expressionStatement inner) := by
  have := nested.forward
  refine .current fun token read _ => ?_
  exact (nested.expression _).terminated.anywhere.bind fun expression made =>
    .pure (.expressionStatement read made)

theorem statement_builds :
    Builds tokens (fun _ => True) (Node.Made tokens .statement) (statement inner) := by
  intro parser among start result ended
  unfold statement at ended
  split at ended
  · next kind => exact letStatement_builds nested parser among kind result ended
  · next kind => exact returnStatement_builds nested parser among kind result ended
  · exact expressionStatement_builds nested parser among start result ended

/-- A statement that is kept, and the tokens after one. -/
theorem statement_built {parser after : Parser} {outcome : Outcome Node}
    (among : parser.window.tokens ⊆ tokens) (ended : statement inner parser = (outcome, after)) :
    after.advance.window.tokens ⊆ tokens ∧
      ∀ node, outcome = .parsed node → node.Made tokens .statement := by
  have := nested.forward
  have forward : Forward (statement inner) := inferInstance
  have among' := forward.subset among
  have built := statement_builds nested parser among trivial
  rw [ended] at among' built
  exact ⟨List.Subset.trans after.window.tokens_advance.subset among', built⟩

theorem blockBody_builds (turns : List Token) (found : List Node)
    (each : ∀ node ∈ found, node.Made tokens .statement) :
    Builds tokens (fun _ => True) (fun nodes => ∀ node ∈ nodes, node.Made tokens .statement)
      (blockBody inner turns found) := by
  induction turns generalizing found with
  | nil => exact .failHere _
  | cons turn turns ih =>
      intro parser among _ result ended
      unfold blockBody at ended
      split at ended
      · cases ended
        simpa using each
      split at ended
      · cases ended
      split at ended
      · next node after reached =>
          obtain ⟨among', made⟩ := statement_built nested among reached
          refine ih _ ?_ after.advance among' trivial result ended
          simpa using ⟨made node rfl, each⟩
      · next after reached =>
          obtain ⟨among', -⟩ := statement_built nested among reached
          split at ended
          · cases ended
            simpa using each
          · exact ih found each after.advance among' trivial result ended
      · cases ended

theorem programBody_builds (limit : Int) (turns : List Token) (found : List Node)
    (each : ∀ node ∈ found, node.Made tokens .statement) :
    Builds tokens (fun _ => True) (fun nodes => ∀ node ∈ nodes, node.Made tokens .statement)
      (programBody limit inner turns found) := by
  induction turns generalizing found with
  | nil => exact .pure (by simpa using each)
  | cons turn turns ih =>
      intro parser among _ result ended
      unfold programBody at ended
      split at ended
      · cases ended
        simpa using each
      split at ended
      · next node after reached =>
          obtain ⟨among', made⟩ := statement_built nested among reached
          refine ih _ ?_ after.advance among' trivial result ended
          simpa using ⟨made node rfl, each⟩
      · next after reached =>
          obtain ⟨among', -⟩ := statement_built nested among reached
          exact ih found each after.advance among' trivial result ended
      · split at ended
        · cases ended
          simpa using each
        · cases ended
      · cases ended

theorem operand_builds (limit : Int) :
    Builds tokens (fun _ => True) (Node.Made tokens .expression)
      (operand .standard limit inner) := by
  intro parser among _ result ended
  unfold operand at ended
  split at ended
  · cases ended
  · next rule found =>
      rcases Grammar.operand_standard found with
        ⟨kind, rfl⟩ | ⟨kind, rfl⟩ | ⟨kind, rfl⟩ | ⟨-, rfl⟩ | ⟨kind, rfl⟩ | ⟨kind, rfl⟩ | ⟨kind, rfl⟩
      · exact identifier_builds parser among kind result ended
      · exact integer_builds parser among kind result ended
      · exact boolean_builds parser among kind result ended
      · exact group_builds nested parser among trivial result ended
      · exact prefixed_builds nested parser among kind result ended
      · exact conditional_builds nested parser among kind result ended
      · exact function_builds nested parser among kind result ended

theorem asContinuation_builds {left : Node} (first : left.Made tokens .expression)
    {kind : TokenKind} {rule : Rule} (found : Grammar.standard.continuation kind = some rule) :
    Builds tokens (· = kind) (Node.Made tokens .expression)
      (asContinuation inner left rule) := by
  rcases Grammar.continuation_standard found with ⟨-, rfl⟩ | ⟨rfl, rfl⟩
  · exact (binary_builds nested first).mono fun other same => same ▸ found
  · exact call_builds nested first

theorem climb_builds (floor : Nat) (turns : List Token) {left : Node}
    (first : left.Made tokens .expression) :
    Builds tokens (fun _ => True) (Node.Made tokens .expression)
      (climb .standard inner (.level floor) turns left) := by
  have := nested.forward
  induction turns generalizing left with
  | nil => exact .pure first
  | cons turn turns ih =>
      intro parser among _ result ended
      by_cases stops : parser.peek.kind.Stops floor
      · rw [climb_of_stops stops] at ended
        cases ended
        exact first
      · obtain ⟨rule, found, goes⟩ := @climb_of_goes inner _ _ stops
        rw [goes turn turns left parser rfl] at ended
        have forward : Forward (asContinuation inner left rule) :=
          asContinuation_orderly inner left found
        have continued := (asContinuation_builds nested first found).bind fun next made =>
          ih made
        have among' := List.Subset.trans parser.window.tokens_advance.subset among
        refine continued parser.advance among' ?_ result ended
        change parser.window.advance.curr.kind = _
        rw [Window.advance_curr]
        rfl

end Nested

end Routine

/-- On every level of stack the routines build what is made of the tokens. -/
theorem nestedRoutines_builds (tokens : List Token) (limit : Int) (levels : Nat) :
    BuildsNested tokens (nestedRoutines .standard limit levels) := by
  have forward (levels : Nat) :
      OrderlyNested (fun _ _ => True) (nestedRoutines .standard limit levels) :=
    (nestedRoutines_orderly limit levels).mono fun _ _ _ => trivial
  induction levels with
  | zero => exact ⟨forward 0, nofun, nofun⟩
  | succ levels ih =>
      have := forward levels
      refine ⟨forward (levels + 1), fun floor => .nested limit ?_, .nested limit ?_⟩
      · refine (Routine.operand_builds ih limit).bind fun left first => ?_
        exact .look (fun turns => Routine.climb .standard _ (.level floor) turns left)
          fun turns => Routine.climb_builds ih floor turns first
      · refine .current fun brace read kind => .advance ?_
        have statements : Parse.Forward (fun parser =>
            Routine.blockBody (nestedRoutines .standard limit levels) parser.tokens [] parser) :=
          .look fun turns => Routine.blockBody_orderly turns []
        have built : Parse.Builds tokens (fun _ => True)
            (fun nodes => ∀ node ∈ nodes, node.Made tokens .statement) (fun parser =>
              Routine.blockBody (nestedRoutines .standard limit levels) parser.tokens [] parser) :=
          .look _ fun turns => Routine.blockBody_builds ih turns [] nofun
        exact built.bind fun nodes each => .pure (.block read kind each)

/-- **What the parser builds.** Whatever the tokens look like, the result is a program
that is made of them. -/
theorem parseProgram_made {limit : Int} {levels : Nat} {parser after : Parser} {program : Node}
    (parsed : parseProgram .standard limit levels parser = (.parsed program, after)) :
    program.Made parser.window.tokens .program := by
  have nested := nestedRoutines_builds parser.window.tokens limit levels
  have ended := congrArg Prod.fst parsed
  change (Parse.andThen _ _ parser).1 = _ at ended
  unfold Parse.andThen at ended
  split at ended
  · next statements middle reached =>
      cases ended
      have each : ∀ node ∈ ([] : List Node), node.Made parser.window.tokens .statement :=
        List.forall_mem_nil _
      refine .program (Routine.programBody_builds nested limit parser.tokens [] each parser
        (List.Subset.refl _) trivial statements ?_)
      rw [reached]
  · cases ended
  · cases ended

/-- From tokens that fit a lexicon, the result is a program of the lexicon. -/
theorem parseProgram_placed {lexicon : Lexicon} {limit : Int} {levels : Nat} {parser after : Parser}
    {program : Node} (fits : parser.window.Fits lexicon)
    (parsed : parseProgram .standard limit levels parser = (.parsed program, after)) :
    program.Placed lexicon .program :=
  (parseProgram_made parsed).placed fits

end ExprLang
