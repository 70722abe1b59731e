/-
# ExprLang.Proofs.Parser.Sparing — expressions with parentheses only where needed

An expression can be spelled with few parentheses, because the levels of the
operators say how the rest is grouped (`Node.spell`): a left operand needs them if it
binds more loosely than the operator, a right one also if it binds as loosely, the
operand of a prefix operator if it is a binary operation, and a callee if it is an
operation of either kind.

Nothing in the tokens shows the grouping then, and it is read back all the same
(`expression_spell`): such tokens have a derivation in which every operand has the
level that its place asks for (`Node.spelledIn_of_placed`), and reading follows the
derivation. What comes behind the expression may be any token that does not go on
with it; lines make no difference.
-/
import ExprLang.Proofs.Parser.Complete
import ExprLang.Proofs.Parser.Lines
import ExprLang.Proofs.Parser.Orderly
import ExprLang.Proofs.Parser.Written

namespace ExprLang

set_option autoImplicit false

/-- The levels of the binary operators. -/
def operatorLevel : String → Nat
  | "==" | "!=" => Precedence.equality
  | "<" | ">" | "<=" | ">=" => Precedence.comparison
  | "+" | "-" => Precedence.sum
  | _ => Precedence.product

/-- Tokens in parentheses, if they are needed. -/
def enclosed (needed : Bool) (tokens : List Token) : List Token :=
  if needed then .sign .leftParen :: (tokens ++ [.sign .rightParen]) else tokens

/-- Lists of tokens with a comma between each two of them. -/
def commaListed (items : List (List Token)) : List Token := [Token.sign .comma].intercalate items

namespace Node

/-- The level of an expression: that of its outermost operation, and above all
operators where there is none. -/
def level : Node → Nat
  | .binary _ _ operator _ => operatorLevel operator
  | .prefixed .. => Precedence.unary
  | _ => Precedence.call

mutual

/-- The tokens of a tree with parentheses only where they are needed. -/
def spell : Node → List Token
  | .identifier name => [.word name.text]
  | .integer _ value => [⟨.int, toString value, 1⟩]
  | .boolean _ value => [.sign (if value then .trueKeyword else .falseKeyword)]
  | .prefixed _ operator operand =>
      .operator operator :: enclosed (operand.level < Precedence.unary) operand.spell
  | .binary _ left operator right =>
      enclosed (left.level < operatorLevel operator) left.spell ++
        .operator operator :: enclosed (right.level ≤ operatorLevel operator) right.spell
  | .call _ callee arguments =>
      enclosed (callee.level < Precedence.call) callee.spell ++
        .sign .leftParen :: (commaListed (spellEach arguments) ++ [.sign .rightParen])
  | .ifThen _ condition consequence =>
      .sign .ifKeyword :: .sign .leftParen ::
        (condition.spell ++ .sign .rightParen :: consequence.spell)
  | .ifElse _ condition consequence alternative =>
      .sign .ifKeyword :: .sign .leftParen :: (condition.spell ++ .sign .rightParen ::
        (consequence.spell ++ .sign .elseKeyword :: alternative.spell))
  | .function _ parameters body =>
      .sign .functionKeyword :: .sign .leftParen ::
        (commaListed (parameters.map fun parameter => [.word parameter.text]) ++
          .sign .rightParen :: body.spell)
  | .block _ statements =>
      .sign .leftBrace :: ((spellEach statements).flatten ++ [.sign .rightBrace])
  | .letStatement _ name value =>
      .sign .letKeyword :: .word name.text :: .sign .assign :: (value.spell ++ [.sign .semicolon])
  | .returnStatement _ value => .sign .returnKeyword :: (value.spell ++ [.sign .semicolon])
  | .expressionStatement _ expression => expression.spell ++ [.sign .semicolon]
  | .program statements => (spellEach statements).flatten
  | .sequence _ | .foreign _ => []

/-- The tokens of each tree of a list. -/
def spellEach : List Node → List (List Token)
  | [] => []
  | node :: rest => node.spell :: spellEach rest

end

/-- Operators of one level group to the left, so that grouping needs no parentheses and
the other one does. -/
example :
    let name (text : String) : Node := .identifier ⟨text, 1⟩
    (binary 1 (.binary 1 (name "a") "-" (name "b")) "-" (name "c")).spell =
        [.word "a", .sign .minus, .word "b", .sign .minus, .word "c"] ∧
      (binary 1 (name "a") "-" (.binary 1 (name "b") "-" (name "c"))).spell =
        [.word "a", .sign .minus, .sign .leftParen, .word "b", .sign .minus, .word "c",
          .sign .rightParen] := by
  cbv

end Node

/-- What a tree may be made of so that its leaves and operators are tokens: names of
any spelling, numbers that have a numeral, and the operators. -/
def Lexicon.tokens : Lexicon := { Lexicon.written with name := fun _ => True }

theorem Token.operator_level {operator : String} (known : Lexicon.tokens.binary operator) :
    (Token.operator operator).kind.binaryLevel? = some (operatorLevel operator) := by
  simp only [Lexicon.tokens, Lexicon.written, List.mem_cons, List.not_mem_nil, or_false] at known
  rcases known with rfl | rfl | rfl | rfl | rfl | rfl | rfl | rfl | rfl | rfl <;> decide +kernel

theorem equality_le_operatorLevel (operator : String) :
    Precedence.equality ≤ operatorLevel operator := by
  unfold operatorLevel
  split <;> decide

namespace Node

theorem equality_le_level (node : Node) : Precedence.equality ≤ node.level := by
  unfold level
  split
  · exact equality_le_operatorLevel _
  · decide
  · decide

/-! ## The tokens have a derivation -/

/-- Before a rest the tokens of the node make up such a phrase, of which the node is the
tree, nested less than twice as deep as the node is high. -/
def Spelled (phrase : Phrase) (tokens : List Token) (node : Node) (less : Nat)
    (rest : List Token) : Prop :=
  ∃ tree, Derives phrase tree (tokens ++ rest) rest ∧ tree.node.erase = node.erase ∧
    tree.nesting + less ≤ 2 * node.height

/-- The node is spelled so wherever it may stand in the place. -/
def SpelledIn : Place → Node → Prop
  | .program, _ => True
  | .statement, node => ∀ rest, Spelled .statement node.spell node 3 rest
  | .block, node => ∀ rest, Spelled .block node.spell node 1 rest
  | .expression, node =>
      ∀ rest, Apart rest → Spelled (.expression node.level) node.spell node 2 rest

/-- An operand has the level that is asked for, in parentheses if need be. -/
theorem SpelledIn.enclosed {node : Node} (spelled : SpelledIn .expression node) {level : Nat}
    {needed : Bool} (fits : level ≤ Precedence.call) (enough : needed = false → level ≤ node.level)
    {rest : List Token} (apart : Apart rest) :
    Spelled (.expression level) (ExprLang.enclosed needed node.spell) node 1 rest := by
  cases needed with
  | false =>
      obtain ⟨tree, derives, same, nests⟩ := spelled rest apart
      exact ⟨tree, derives.mono (enough rfl), same, by omega⟩
  | true =>
      obtain ⟨tree, derives, same, nests⟩ := spelled (.sign .rightParen :: rest)
        (apart_sign (by decide) rest)
      refine ⟨.group (.sign .leftParen) tree (.sign .rightParen), ?_, same, ?_⟩
      · have within := derives.mono node.equality_le_level
        simpa [ExprLang.enclosed] using Derives.group fits rfl within rfl
      · simp only [Derivation.nesting]
        omega

/-- A delimited expression has whatever level it has. -/
theorem SpelledIn.delimited {node : Node} (spelled : SpelledIn .expression node) (kind : TokenKind)
    (other : kind ≠ .elseKeyword) (rest : List Token) :
    Spelled (.expression Precedence.equality) node.spell node 2 (.sign kind :: rest) := by
  obtain ⟨tree, derives, same, nests⟩ := spelled (.sign kind :: rest) (apart_sign other rest)
  exact ⟨tree, derives.mono node.equality_le_level, same, nests⟩

theorem spelled_statements {statements : List Node}
    (each : ∀ statement ∈ statements, SpelledIn .statement statement) (rest : List Token) :
    ∃ tree, Derives (.statements .rightBrace) tree
        ((spellEach statements).flatten ++ .sign .rightBrace :: rest) rest ∧
      eraseAll tree.nodes = eraseAll statements ∧ tree.nesting ≤ 2 * heights statements := by
  induction statements with
  | nil => exact ⟨.closed (.sign .rightBrace), .closed rfl, rfl, Nat.le_refl 0⟩
  | cons statement others ih =>
      obtain ⟨tree, derives, same, nests⟩ := ih fun other member => each other (by simp [member])
      obtain ⟨first, here, same', nests'⟩ := each statement (by simp)
        ((spellEach others).flatten ++ .sign .rightBrace :: rest)
      refine ⟨.followed first tree, ?_, ?_, ?_⟩
      · simpa [spellEach] using Derives.followed here derives
      · simp [Derivation.nodes, eraseAll, same, same']
      · simp only [Derivation.nesting, heights]
        omega

theorem spelled_arguments {arguments : List Node}
    (each : ∀ argument ∈ arguments, SpelledIn .expression argument) (rest : List Token) :
    ∃ tree, Derives .arguments tree
        (commaListed (spellEach arguments) ++ .sign .rightParen :: rest) rest ∧
      eraseAll tree.nodes = eraseAll arguments ∧ tree.nesting ≤ 2 * heights arguments := by
  have list (first : Node) (others : List Node)
      (each : ∀ argument ∈ first :: others, SpelledIn .expression argument) :
      ∃ tree, Derives .argumentList tree
          (commaListed (spellEach (first :: others)) ++ .sign .rightParen :: rest) rest ∧
        eraseAll tree.nodes = eraseAll (first :: others) ∧
        tree.nesting ≤ 2 * heights (first :: others) := by
    induction others generalizing first with
    | nil =>
        obtain ⟨tree, derives, same, nests⟩ :=
          (each first (by simp)).delimited .rightParen (by decide) rest
        refine ⟨.lastArgument tree (.sign .rightParen), ?_, ?_, ?_⟩
        · simpa [spellEach, commaListed] using Derives.lastArgument derives rfl
        · simp [Derivation.nodes, eraseAll, same]
        · simp only [Derivation.nesting, heights]
          omega
    | cons next others ih =>
        obtain ⟨more, later, same, nests⟩ :=
          ih next fun other member => each other (List.mem_cons_of_mem first member)
        obtain ⟨tree, derives, same', nests'⟩ :=
          (each first (by simp)).delimited .comma (by decide)
            (commaListed (spellEach (next :: others)) ++ .sign .rightParen :: rest)
        refine ⟨.argument tree (.sign .comma) more, ?_, ?_, ?_⟩
        · have all := Derives.argument derives rfl later
          simpa [spellEach, commaListed, List.intercalate_cons_cons] using all
        · rw [Derivation.nodes, eraseAll, eraseAll, same, same']
        · simp only [Derivation.nesting, heights] at *
          omega
  cases arguments with
  | nil => exact ⟨.noArguments (.sign .rightParen), .noArguments rfl, rfl, Nat.le_refl 0⟩
  | cons first others =>
      obtain ⟨tree, derives, found⟩ := list first others each
      exact ⟨tree, .someArguments derives, found⟩

theorem tokens_parametersDerivation (parameters : List Name) :
    (parametersDerivation parameters).tokens =
      commaListed (parameters.map fun parameter => [.word parameter.text]) ++
        [.sign .rightParen] := by
  have list (first : Name) (others : List Name) :
      (parameterDerivation first others).tokens =
        commaListed ((first :: others).map fun parameter => [.word parameter.text]) ++
          [.sign .rightParen] := by
    induction others generalizing first with
    | nil => rfl
    | cons next others ih =>
        simp [parameterDerivation, Derivation.tokens, ih, commaListed, List.intercalate_cons_cons]
  cases parameters with
  | nil => rfl
  | cons first others => exact list first others

section Forms

variable {line : Int} {left right operand condition consequence alternative body : Node}

theorem SpelledIn.prefixed {operator : String} (known : Lexicon.tokens.unary operator)
    (inner : SpelledIn .expression operand) :
    SpelledIn .expression (.prefixed line operator operand) := by
  intro rest apart
  obtain ⟨kind, isUnary, same⟩ := Token.operator_unary known
  have enough (loose : decide (operand.level < Precedence.unary) = false) :
      Precedence.unary ≤ operand.level := Nat.le_of_not_lt (of_decide_eq_false loose)
  obtain ⟨tree, derives, same', nests⟩ := inner.enclosed (by decide) enough apart
  refine ⟨.prefixed (.operator operator) tree, ?_, ?_, ?_⟩
  · exact .prefixed (Nat.le_refl _) (same ▸ isUnary) derives
  · rw [Derivation.node, erase, erase, same']
    rfl
  · simp only [Derivation.nesting, height]
    omega

theorem SpelledIn.binary {operator : String} (known : Lexicon.tokens.binary operator)
    (first : SpelledIn .expression left) (second : SpelledIn .expression right) :
    SpelledIn .expression (.binary line left operator right) := by
  intro rest apart
  have own := Token.operator_level known
  obtain ⟨-, high⟩ := TokenKind.binaryLevel?_bounds own
  have below : operatorLevel operator + 1 ≤ Precedence.call := Nat.le_trans high (by decide)
  have noElse : (Token.operator operator).kind ≠ .elseKeyword := by
    intro isElse
    rw [isElse] at own
    cases own
  -- Without parentheses, a right operand binds tighter than the operator does.
  have enough' (loose : decide (right.level ≤ operatorLevel operator) = false) :
      operatorLevel operator + 1 ≤ right.level := Nat.lt_of_not_le (of_decide_eq_false loose)
  obtain ⟨tree', derives', same', nests'⟩ := second.enclosed below enough' apart
  have enough (loose : decide (left.level < operatorLevel operator) = false) :
      operatorLevel operator ≤ left.level := Nat.le_of_not_lt (of_decide_eq_false loose)
  obtain ⟨tree, derives, same, nests⟩ :=
    first.enclosed (Nat.le_of_lt below) enough ⟨.operator operator, _, rfl, noElse⟩
  refine ⟨.binary tree (.operator operator) tree', ?_, ?_, ?_⟩
  · simpa [spell, level] using Derives.binary (Nat.le_refl _) own derives derives'
  · rw [Derivation.node, erase, erase, same, same']
    rfl
  · simp only [Derivation.nesting, height]
    omega

theorem SpelledIn.call {callee : Node} {arguments : List Node}
    (target : SpelledIn .expression callee)
    (each : ∀ argument ∈ arguments, SpelledIn .expression argument) :
    SpelledIn .expression (.call line callee arguments) := by
  intro rest _
  obtain ⟨given, later, same', nests'⟩ := spelled_arguments each rest
  have enough (loose : decide (callee.level < Precedence.call) = false) :
      Precedence.call ≤ callee.level := Nat.le_of_not_lt (of_decide_eq_false loose)
  obtain ⟨tree, derives, same, nests⟩ := target.enclosed (Nat.le_refl _) enough
    (apart_sign (by decide) _ : Apart (.sign .leftParen :: _))
  refine ⟨.call tree (.sign .leftParen) given, ?_, ?_, ?_⟩
  · simpa [spell, level] using Derives.call (Nat.le_refl _) derives rfl later
  · rw [Derivation.node, erase, erase, same, same']
  · simp only [Derivation.nesting, height]
    omega

theorem SpelledIn.ifThen (test : SpelledIn .expression condition)
    (first : SpelledIn .block consequence) :
    SpelledIn .expression (.ifThen line condition consequence) := by
  intro rest apart
  obtain ⟨next, tail, rfl, alone⟩ := apart
  obtain ⟨tree', derives', same', nests'⟩ := first (next :: tail)
  obtain ⟨tree, derives, same, nests⟩ := test.delimited .rightParen (by decide)
    (consequence.spell ++ next :: tail)
  refine ⟨.ifThen (.sign .ifKeyword) (.sign .leftParen) tree (.sign .rightParen) tree', ?_, ?_, ?_⟩
  · simpa [spell, level] using Derives.ifThen (Nat.le_refl _) rfl rfl derives rfl derives' alone
  · rw [Derivation.node, erase, erase, same, same']
  · simp only [Derivation.nesting, height]
    omega

theorem SpelledIn.ifElse (test : SpelledIn .expression condition)
    (first : SpelledIn .block consequence) (second : SpelledIn .block alternative) :
    SpelledIn .expression (.ifElse line condition consequence alternative) := by
  intro rest _
  obtain ⟨tree'', derives'', same'', nests''⟩ := second rest
  obtain ⟨tree', derives', same', nests'⟩ :=
    first (.sign .elseKeyword :: (alternative.spell ++ rest))
  obtain ⟨tree, derives, same, nests⟩ := test.delimited .rightParen (by decide)
    (consequence.spell ++ .sign .elseKeyword :: (alternative.spell ++ rest))
  refine ⟨.ifElse (.sign .ifKeyword) (.sign .leftParen) tree (.sign .rightParen) tree'
    (.sign .elseKeyword) tree'', ?_, ?_, ?_⟩
  · simpa [spell, level] using
      Derives.ifElse (Nat.le_refl _) rfl rfl derives rfl derives' rfl derives''
  · rw [Derivation.node, erase, erase, same, same', same'']
  · simp only [Derivation.nesting, height]
    omega

theorem SpelledIn.function {parameters : List Name} (inner : SpelledIn .block body) :
    SpelledIn .expression (.function line parameters body) := by
  intro rest _
  obtain ⟨tree, derives, same, nests⟩ := inner rest
  have names := derives_parameters parameters (body.spell ++ rest)
  rw [tokens_parametersDerivation, List.append_assoc] at names
  refine ⟨.function (.sign .functionKeyword) (.sign .leftParen) (parametersDerivation parameters)
    tree, ?_, ?_, ?_⟩
  · simp only [spell, List.cons_append, List.append_assoc]
    exact .function (Nat.le_refl _) rfl rfl names derives
  · rw [Derivation.node, erase, erase, same, names_parametersDerivation]
  · simp only [Derivation.nesting, height]
    omega

theorem SpelledIn.integer {value : Int} (number : Lexicon.tokens.number value) :
    SpelledIn .expression (.integer line value) := by
  intro rest _
  obtain ⟨natural, short⟩ := number
  obtain ⟨value, rfl⟩ := Int.eq_ofNat_of_zero_le natural
  have read : Decimal.numeral (toString (value : Int)) = value := Decimal.numeral_repr value
  refine ⟨.integer ⟨.int, toString (value : Int), 1⟩, ?_, ?_, Nat.le_refl 2⟩
  · exact .integer (Nat.le_refl _) rfl (Decimal.run_repr value) short
  · rw [Derivation.node, erase, erase, read]

theorem SpelledIn.boolean {value : Bool} : SpelledIn .expression (.boolean line value) := by
  intro rest _
  cases value with
  | false =>
      exact ⟨.truth (.sign .falseKeyword), .truth (Nat.le_refl _) (.inr rfl), rfl, Nat.le_refl 2⟩
  | true =>
      exact ⟨.truth (.sign .trueKeyword), .truth (Nat.le_refl _) (.inl rfl), rfl, Nat.le_refl 2⟩

theorem SpelledIn.block {statements : List Node}
    (each : ∀ statement ∈ statements, SpelledIn .statement statement) :
    SpelledIn .block (.block line statements) := by
  intro rest
  obtain ⟨tree, derives, same, nests⟩ := spelled_statements each rest
  refine ⟨.block (.sign .leftBrace) tree, ?_, ?_, ?_⟩
  · simpa [spell] using Derives.block rfl derives
  · rw [Derivation.node, erase, erase, same]
  · simp only [Derivation.nesting, height]
    omega

theorem SpelledIn.letStatement {name : Name} {value : Node} (inner : SpelledIn .expression value) :
    SpelledIn .statement (.letStatement line name value) := by
  intro rest
  obtain ⟨tree, derives, same, nests⟩ := inner.delimited .semicolon (by decide) rest
  refine ⟨.letStatement (.sign .letKeyword) (.word name.text) (.sign .assign) tree
    (some (.sign .semicolon)), ?_, ?_, ?_⟩
  · simpa [spell] using Derives.letStatement rfl rfl rfl derives (.semicolon rfl)
  · rw [Derivation.node, erase, erase, same]
    rfl
  · simp only [Derivation.nesting, height]
    omega

theorem SpelledIn.returnStatement {value : Node} (inner : SpelledIn .expression value) :
    SpelledIn .statement (.returnStatement line value) := by
  intro rest
  obtain ⟨tree, derives, same, nests⟩ := inner.delimited .semicolon (by decide) rest
  refine ⟨.returnStatement (.sign .returnKeyword) tree (some (.sign .semicolon)), ?_, ?_, ?_⟩
  · simpa [spell] using Derives.returnStatement rfl derives (.semicolon rfl)
  · rw [Derivation.node, erase, erase, same]
  · simp only [Derivation.nesting, height]
    omega

theorem SpelledIn.expressionStatement {expression : Node}
    (inner : SpelledIn .expression expression) :
    SpelledIn .statement (.expressionStatement line expression) := by
  intro rest
  obtain ⟨tree, derives, same, nests⟩ := inner.delimited .semicolon (by decide) rest
  refine ⟨.expressionStatement tree (some (.sign .semicolon)), ?_, ?_, ?_⟩
  · simpa [spell] using Derives.expressionStatement derives (.semicolon rfl)
  · rw [Derivation.node, erase, erase, same]
  · simp only [Derivation.nesting, height]
    omega

end Forms

/-- A tree of the language is spelled as its place asks. -/
theorem spelledIn_of_placed {place : Place} {node : Node} (placed : node.Placed .tokens place) :
    SpelledIn place node := by
  induction placed with
  | program => trivial
  | block _ _ ih => exact .block ih
  | blockStatement admitted => exact absurd admitted id
  | letStatement _ _ _ ih => exact .letStatement ih
  | returnStatement _ _ ih => exact .returnStatement ih
  | expressionStatement _ _ ih => exact .expressionStatement ih
  | @identifier name =>
      intro rest _
      exact ⟨.name (.word name.text), .name (Nat.le_refl _) rfl, rfl, Nat.le_refl 2⟩
  | integer _ number => exact .integer number
  | boolean => exact .boolean
  | prefixed _ known _ ih => exact .prefixed known ih
  | binary _ known _ _ ih ih' => exact .binary known ih ih'
  | ifThen _ _ _ ih ih' => exact .ifThen ih ih'
  | ifElse _ _ _ _ ih ih' ih'' => exact .ifElse ih ih' ih''
  | function _ _ _ ih => exact .function ih
  | call _ _ _ ih ih' => exact .call ih ih'

end Node

/-! ## The tokens are read back -/

variable {limit : Int} {levels depth : Nat} {node : Node} {tokens rest : List Token} {next : Token}

theorem Node.SpelledIn.reads (spelled : node.SpelledIn .expression)
    (ends : ¬ next.kind.Continues) (noElse : next.kind ≠ .elseKeyword)
    (room : Room limit levels depth (2 * node.height)) (rest : List Token)
    (diagnostics : List Diagnostic) :
    ∃ read, read.erase = node.erase ∧
      Parse.Reads ((nestedRoutines .standard limit levels).expression .lowest) depth diagnostics
        (node.spell ++ next :: rest) read (next :: rest) := by
  obtain ⟨tree, derives, same, nests⟩ := spelled (next :: rest) ⟨next, rest, rfl, noElse⟩
  have lowest := derives.mono node.equality_le_level
  have follows : Follows Precedence.lowest (next :: rest) :=
    ⟨next, rest, rfl, Nat.le_of_eq (TokenKind.precedence_of_not_continues ends)⟩
  have reaches : Reaches limit Precedence.equality tree (node.spell ++ next :: rest)
    (next :: rest) := lowest.read limit
  exact ⟨tree.node, same,
    reaches.reads_lowest lowest (room.mono (by omega)) follows diagnostics⟩

theorem Parser.over_erase (tokens : List Token) (next : Token) (rest : List Token) (depth : Nat)
    (diagnostics : List Diagnostic) :
    (Parser.over (tokens ++ next :: rest) depth diagnostics).erase =
      .over (tokens.map Token.erase ++ (next :: rest).map Token.erase) depth
        (diagnostics.map Diagnostic.erase) := by
  cases tokens with
  | nil => rfl
  | cons token tokens => simp [Parser.erase, Parser.over, Window.erase, Window.ofTokens]

/-- Of a window on some tokens, a later one is told by how many tokens are left. -/
theorem Window.eq_of_suffix {left : Window} {before ahead : List Token} {last : Token}
    (onward : left.tokens <:+ (Window.ofTokens (before ++ last :: ahead)).tokens)
    (same : left.ahead.length = ahead.length) : left = .ofTokens (last :: ahead) := by
  have whole : (Window.ofTokens (before ++ last :: ahead)).tokens = before ++ last :: ahead := by
    cases before <;> rfl
  rw [whole] at onward
  have shorter := List.suffix_of_suffix_length_le onward (List.suffix_append before (last :: ahead))
    (by simp [Window.tokens, same])
  have tokens := shorter.eq_of_length (by simp [Window.tokens, same])
  obtain ⟨curr, others⟩ := left
  cases tokens
  rfl

/-- Tokens on other lines are read alike, up to the same rest. The parser then stands on
the last of them, because it has moved forward and as many tokens are left. -/
theorem Parse.Reads.of_erase {step : Parse Node} {short : Nat → ParseFault → Prop}
    (orderly : Parse.Orderly short step) (erases : Parse.Erases Node.erase step step)
    {before spelled : List Token} {last : Token} {diagnostics : List Diagnostic} {read : Node}
    (same : (before ++ [last]).map Token.erase = spelled.map Token.erase)
    (reads : Parse.Reads step depth diagnostics (spelled ++ next :: rest) read (next :: rest)) :
    ∃ found, found.erase = read.erase ∧
      step (.over (before ++ last :: next :: rest) depth diagnostics) =
        (.parsed found, .over (last :: next :: rest) depth diagnostics) := by
  obtain ⟨last', ended⟩ := reads
  obtain ⟨outcome, left, later, ran, onward, -⟩ :=
    orderly.orders (.ofTokens (before ++ last :: next :: rest)) depth
  have here : step (.over (before ++ last :: next :: rest) depth diagnostics) = _ :=
    ran diagnostics
  -- Without lines both runs are one.
  have parsers : (Parser.over (before ++ last :: next :: rest) depth diagnostics).erase =
      (Parser.over (spelled ++ next :: rest) depth diagnostics).erase := by
    rw [List.append_cons, Parser.over_erase, Parser.over_erase, same]
  have first := erases (.over (before ++ last :: next :: rest) depth diagnostics)
  have second := erases (.over (spelled ++ next :: rest) depth diagnostics)
  rw [parsers, second, here, ended] at first
  have outcomes : outcome.map Node.erase = .parsed read.erase := (congrArg Prod.fst first).symm
  have recorded : diagnostics.map Diagnostic.erase = (diagnostics ++ later).map Diagnostic.erase :=
    congrArg (·.2.diagnostics) first
  have ahead : (next :: rest).map Token.erase = left.ahead.map Token.erase :=
    congrArg (·.2.window.ahead) first
  have none : later = [] := by simpa using congrArg List.length recorded
  have stands : left = .ofTokens (last :: next :: rest) :=
    Window.eq_of_suffix onward (by simpa using (congrArg List.length ahead).symm)
  cases outcome with
  | parsed found =>
      have alike : found.erase = read.erase := Outcome.parsed.inj outcomes
      refine ⟨found, alike, ?_⟩
      rw [here, stands, none, List.append_nil]
      rfl
  | failed => cases outcomes
  | fault cause => cases outcomes

/-- **Expressions are grouped by level alone.** Spelled with parentheses only where they
are needed, on whatever lines, an expression is read back before any token that does not
go on with it and is no `else`, given a nesting limit and a stack of twice its height.
Nothing is recorded, and the parser then stands on the last token of the expression. -/
theorem expression_spell (placed : node.Placed .tokens .expression)
    (spelled : tokens.map Token.erase = node.spell.map Token.erase)
    (ends : ¬ next.kind.Continues) (noElse : next.kind ≠ .elseKeyword)
    (room : Room limit levels depth (2 * node.height)) (diagnostics : List Diagnostic) :
    ∃ read last, read.erase = node.erase ∧ tokens.getLast? = some last ∧
      (nestedRoutines .standard limit levels).expression .lowest
          (.over (tokens ++ next :: rest) depth diagnostics) =
        (.parsed read, .over (last :: next :: rest) depth diagnostics) := by
  have here := Node.spelledIn_of_placed placed
  obtain ⟨tree, derives, -, -⟩ := here [next] ⟨next, [], rfl, noElse⟩
  have some : tokens ≠ [] := by
    rintro rfl
    have longer := derives.length_lt
    simp_all
  obtain ⟨before, last, rfl⟩ : ∃ before last, tokens = before ++ [last] :=
    ⟨tokens.dropLast, tokens.getLast some, (List.dropLast_concat_getLast some).symm⟩
  obtain ⟨read, same, reads⟩ := here.reads ends noElse room rest diagnostics
  obtain ⟨found, same', ended⟩ := reads.of_erase
    ((nestedRoutines_orderly limit levels).expression Precedence.lowest)
    ((nestedRoutines_erases .standard limit levels).expression .lowest) spelled
  refine ⟨found, last, same'.trans same, by simp, ?_⟩
  rw [List.append_assoc]
  exact ended

/-- Two comparisons for equality, of which the right one is in parentheses, and a product
that needs them only for the sum inside of it. -/
theorem expression_spell_mixed :
    let sum : Node := .binary 1 (.identifier ⟨"a", 1⟩) "+" (.integer 1 2)
    let product : Node := .binary 1 (.prefixed 1 "-" sum) "*"
      (.call 1 (.identifier ⟨"f", 1⟩) [.boolean 1 true])
    let node : Node := .binary 1 product "=="
      (.binary 1 (.identifier ⟨"b", 1⟩) "==" (.identifier ⟨"c", 1⟩))
    let tokens : List Token := [⟨.minus, "-", 2⟩, ⟨.leftParen, "(", 2⟩, ⟨.identifier, "a", 2⟩,
      ⟨.plus, "+", 2⟩, ⟨.int, "2", 2⟩, ⟨.rightParen, ")", 2⟩, ⟨.product, "*", 3⟩,
      ⟨.identifier, "f", 3⟩, ⟨.leftParen, "(", 3⟩, ⟨.trueKeyword, "true", 3⟩,
      ⟨.rightParen, ")", 3⟩, ⟨.equal, "==", 4⟩, ⟨.leftParen, "(", 4⟩, ⟨.identifier, "b", 4⟩,
      ⟨.equal, "==", 4⟩, ⟨.identifier, "c", 4⟩, ⟨.rightParen, ")", 4⟩]
    ∃ read last, read.erase = node.erase ∧ tokens.getLast? = some last ∧
      (nestedRoutines .standard 20 20).expression .lowest
          (.over (tokens ++ [⟨.eof, "", 4⟩]) 0 []) =
        (.parsed read, .over [last, ⟨.eof, "", 4⟩] 0 []) := by
  intro sum product node tokens
  have number : Lexicon.tokens.number 2 := ⟨by decide, by decide +kernel⟩
  have unary : Lexicon.tokens.unary "-" := by simp [Lexicon.tokens, Lexicon.written]
  have binary : ∀ operator ∈ ["==", "*", "+"], Lexicon.tokens.binary operator := by
    simp [Lexicon.tokens, Lexicon.written]
  have name (text : String) : (Node.identifier ⟨text, 1⟩).Placed .tokens .expression :=
    .identifier trivial trivial
  have negated : (Node.prefixed 1 "-" sum).Placed .tokens .expression :=
    .prefixed trivial unary (.binary trivial (binary "+" (by simp)) (name "a")
      (.integer trivial number))
  have called : (Node.call 1 (.identifier ⟨"f", 1⟩) [.boolean 1 true]).Placed .tokens
      .expression := by
    refine .call trivial (name "f") ?_
    simpa using .boolean trivial
  have placed : node.Placed .tokens .expression :=
    .binary trivial (binary "==" (by simp))
      (.binary trivial (binary "*" (by simp)) negated called)
      (.binary trivial (binary "==" (by simp)) (name "b") (name "c"))
  have spelled : tokens.map Token.erase = node.spell.map Token.erase := by decide +kernel
  have ends : ¬ TokenKind.eof.Continues := by simp [TokenKind.Continues, TokenKind.binaryLevel?]
  exact expression_spell placed spelled ends (by decide) ⟨by decide +kernel, by decide +kernel⟩ []

end ExprLang
