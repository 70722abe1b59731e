/-
# ExprLang.Proofs.Parser.Written — the derivation of a rendered tree

A written tree says which tokens its text is made of and how they are derived
(`derivation`): operations are groups, and every statement has its semicolon. So
it does have a derivation, of which the tree is the tree (`derives_derivation`,
`erase_derivation`), nested less than twice as deep as the tree is high
(`nesting_derivation`).

An expression is derived whatever follows it, with one exception: a conditional
without an alternative must not be followed by `else`. Nothing that follows an
expression in a text is that.
-/
import ExprLang.Proofs.Node.Canonical
import ExprLang.Proofs.Parser.Derivation

namespace ExprLang

set_option autoImplicit false

/-- The token of an operator, on line one. -/
def Token.operator (spelling : String) : Token :=
  ⟨(TokenKind.all.find? fun kind => kind.spelling? == some spelling).getD .illegal, spelling, 1⟩

/-- The token that ends a text of one line. -/
def Token.final : Token := ⟨.eof, "", 1⟩

theorem Token.operator_unary {spelling : String} (known : Lexicon.written.unary spelling) :
    ∃ kind, (kind = .bang ∨ kind = .minus) ∧ operator spelling = sign kind := by
  simp only [Lexicon.written, List.mem_cons, List.not_mem_nil, or_false] at known
  rcases known with rfl | rfl
  · exact ⟨.bang, .inl rfl, by decide +kernel⟩
  · exact ⟨.minus, .inr rfl, by decide +kernel⟩

theorem Token.operator_binary {spelling : String} (known : Lexicon.written.binary spelling) :
    ∃ kind own, kind.binaryLevel? = some own ∧ operator spelling = sign kind := by
  simp only [Lexicon.written, List.mem_cons, List.not_mem_nil, or_false] at known
  rcases known with rfl | rfl | rfl | rfl | rfl | rfl | rfl | rfl | rfl | rfl
  · exact ⟨.plus, _, rfl, by decide +kernel⟩
  · exact ⟨.minus, _, rfl, by decide +kernel⟩
  · exact ⟨.product, _, rfl, by decide +kernel⟩
  · exact ⟨.divide, _, rfl, by decide +kernel⟩
  · exact ⟨.less, _, rfl, by decide +kernel⟩
  · exact ⟨.greater, _, rfl, by decide +kernel⟩
  · exact ⟨.lessEqual, _, rfl, by decide +kernel⟩
  · exact ⟨.greaterEqual, _, rfl, by decide +kernel⟩
  · exact ⟨.equal, _, rfl, by decide +kernel⟩
  · exact ⟨.notEqual, _, rfl, by decide +kernel⟩

/-- The derivation of the parameters of a function from its first name on. -/
def parameterDerivation (first : Name) : List Name → Derivation
  | [] => .lastParameter (.word first.text) (.sign .rightParen)
  | next :: rest => .parameter (.word first.text) (.sign .comma) (parameterDerivation next rest)

/-- The derivation of the parameters of a function. -/
def parametersDerivation : List Name → Derivation
  | [] => .noParameters (.sign .rightParen)
  | first :: rest => parameterDerivation first rest

namespace Node

mutual

/-- The derivation of the text of a tree. -/
def derivation : Node → Derivation
  | .program statements => sequenceDerivation .final statements
  | .block _ statements =>
      .block (.sign .leftBrace) (sequenceDerivation (.sign .rightBrace) statements)
  | .letStatement _ name value =>
      .letStatement (.sign .letKeyword) (.word name.text) (.sign .assign) value.derivation
        (some (.sign .semicolon))
  | .returnStatement _ value =>
      .returnStatement (.sign .returnKeyword) value.derivation (some (.sign .semicolon))
  | .expressionStatement _ expression =>
      .expressionStatement expression.derivation (some (.sign .semicolon))
  | .identifier name => .name (.word name.text)
  | .integer _ value => .integer ⟨.int, toString value, 1⟩
  | .boolean _ value => .truth (.sign (if value then .trueKeyword else .falseKeyword))
  | .prefixed _ operator operand =>
      .group (.sign .leftParen) (.prefixed (.operator operator) operand.derivation)
        (.sign .rightParen)
  | .binary _ left operator right =>
      .group (.sign .leftParen)
        (.binary left.derivation (.operator operator) right.derivation) (.sign .rightParen)
  | .ifThen _ condition consequence =>
      .ifThen (.sign .ifKeyword) (.sign .leftParen) condition.derivation (.sign .rightParen)
        consequence.derivation
  | .ifElse _ condition consequence alternative =>
      .ifElse (.sign .ifKeyword) (.sign .leftParen) condition.derivation (.sign .rightParen)
        consequence.derivation (.sign .elseKeyword) alternative.derivation
  | .function _ parameters body =>
      .function (.sign .functionKeyword) (.sign .leftParen) (parametersDerivation parameters)
        body.derivation
  | .call _ callee [] =>
      .call callee.derivation (.sign .leftParen) (.noArguments (.sign .rightParen))
  | .call _ callee (first :: rest) =>
      .call callee.derivation (.sign .leftParen) (argumentDerivation first.derivation rest)
  | .sequence _ | .foreign _ => .closed .final

/-- The derivation of statements and the token that closes them. -/
def sequenceDerivation (closing : Token) : List Node → Derivation
  | [] => .closed closing
  | statement :: rest => .followed statement.derivation (sequenceDerivation closing rest)

/-- The derivation of the arguments of a call from the first of them on. -/
def argumentDerivation (first : Derivation) : List Node → Derivation
  | [] => .lastArgument first (.sign .rightParen)
  | next :: rest => .argument first (.sign .comma) (argumentDerivation next.derivation rest)

end

/-! ## It is a derivation -/

/-- The kind of phrase that stands in a place. -/
def phraseOf : Place → Phrase
  | .program => .statements .eof
  | .statement => .statement
  | .block => .block
  | .expression => .expression Precedence.call

/-- There is a next token, and it is no `else`. -/
def Apart (rest : List Token) : Prop :=
  ∃ next tail, rest = next :: tail ∧ next.kind ≠ .elseKeyword

theorem apart_sign {kind : TokenKind} (other : kind ≠ .elseKeyword) (tail : List Token) :
    Apart (.sign kind :: tail) :=
  ⟨_, tail, rfl, other⟩

/-- The node has a derivation before any rest that may follow it. -/
def Derived (place : Place) (node : Node) : Prop :=
  ∀ rest, (place = .expression → Apart rest) →
    Derives (phraseOf place) node.derivation (node.derivation.tokens ++ rest) rest

theorem derives_sequence {statements : List Node} (closing : Token)
    (each : ∀ statement ∈ statements, Derived .statement statement) (rest : List Token) :
    Derives (.statements closing.kind) (sequenceDerivation closing statements)
      ((sequenceDerivation closing statements).tokens ++ rest) rest := by
  induction statements with
  | nil => exact .closed rfl
  | cons statement others ih =>
      have later := ih fun other member => each other (by simp [member])
      rw [sequenceDerivation, Derivation.tokens, List.append_assoc]
      exact .followed (each statement (by simp) _ nofun) later

theorem derives_parameters (parameters : List Name) (rest : List Token) :
    Derives .parameters (parametersDerivation parameters)
      ((parametersDerivation parameters).tokens ++ rest) rest := by
  have list (first : Name) (others : List Name) :
      Derives .parameterList (parameterDerivation first others)
        ((parameterDerivation first others).tokens ++ rest) rest := by
    induction others generalizing first with
    | nil => exact .lastParameter rfl rfl
    | cons next others ih => exact .parameter rfl rfl (ih next)
  cases parameters with
  | nil => exact .noParameters rfl
  | cons first others => exact .someParameters (list first others)

theorem derives_arguments {first : Node} {others : List Node}
    (here : Derived .expression first)
    (each : ∀ argument ∈ others, Derived .expression argument) (rest : List Token) :
    Derives .argumentList (argumentDerivation first.derivation others)
      ((argumentDerivation first.derivation others).tokens ++ rest) rest := by
  induction others generalizing first with
  | nil =>
      rw [argumentDerivation, Derivation.tokens, List.append_assoc]
      exact .lastArgument ((here _ fun _ => apart_sign (by decide) rest).mono (by decide)) rfl
  | cons next others ih =>
      have later := ih (each next (by simp)) fun other member => each other (by simp [member])
      rw [argumentDerivation, Derivation.tokens, List.append_assoc]
      exact .argument ((here _ fun _ => apart_sign (by decide) _).mono (by decide)) rfl later

/-- An expression before a token that closes it, at any level. -/
theorem Derived.closed {node : Node} (derived : Derived .expression node) {level : Nat}
    (fits : level ≤ Precedence.call) {kind : TokenKind} (other : kind ≠ .elseKeyword)
    (rest : List Token) :
    Derives (.expression level) node.derivation
      (node.derivation.tokens ++ .sign kind :: rest) (.sign kind :: rest) :=
  (derived _ fun _ => apart_sign other rest).mono fits

/-- A written tree has the derivation of its text. -/
theorem derives_derivation {place : Place} {node : Node} (placed : node.Placed .written place) :
    Derived place node := by
  induction placed with
  | program each ih => exact fun rest _ => derives_sequence .final ih rest
  | block _ each ih =>
      exact fun rest _ => .block rfl (derives_sequence (.sign .rightBrace) ih rest)
  | blockStatement admitted => exact absurd admitted id
  | letStatement _ _ _ ih =>
      intro rest _
      simp only [derivation, Derivation.tokens, Option.toList, List.cons_append, List.append_assoc,
        List.nil_append]
      exact .letStatement rfl rfl rfl (ih.closed (by decide) (by decide) rest) (.semicolon rfl)
  | returnStatement _ _ ih =>
      intro rest _
      simp only [derivation, Derivation.tokens, Option.toList, List.cons_append, List.append_assoc,
        List.nil_append]
      exact .returnStatement rfl (ih.closed (by decide) (by decide) rest) (.semicolon rfl)
  | expressionStatement _ _ ih =>
      intro rest _
      simp only [derivation, Derivation.tokens, Option.toList, List.append_assoc, List.cons_append,
        List.nil_append]
      exact .expressionStatement (ih.closed (by decide) (by decide) rest) (.semicolon rfl)
  | identifier => exact fun rest _ => .name (Nat.le_refl _) rfl
  | integer _ number =>
      intro rest _
      obtain ⟨natural, short⟩ := number
      obtain ⟨value, rfl⟩ := Int.eq_ofNat_of_zero_le natural
      exact .integer (Nat.le_refl _) rfl (Decimal.run_repr value) short
  | @boolean line value =>
      intro rest _
      refine .truth (Nat.le_refl _) ?_
      cases value
      · exact .inr rfl
      · exact .inl rfl
  | prefixed _ known _ ih =>
      intro rest _
      obtain ⟨kind, isUnary, same⟩ := Token.operator_unary known
      simp only [derivation, Derivation.tokens, List.cons_append, List.append_assoc,
        List.nil_append, same]
      exact .group (Nat.le_refl _) rfl
        (.prefixed (by decide) isUnary (ih.closed (by decide) (by decide) rest)) rfl
  | binary _ known _ _ ih ih' =>
      intro rest _
      obtain ⟨kind, own, level, same⟩ := Token.operator_binary known
      obtain ⟨low, high⟩ := TokenKind.binaryLevel?_bounds level
      have other : kind ≠ .elseKeyword := by
        rintro rfl
        cases level
      simp only [derivation, Derivation.tokens, List.cons_append, List.append_assoc,
        List.nil_append, same]
      exact .group (Nat.le_refl _) rfl (.binary low level
        (ih.closed (Nat.le_trans (Nat.le_of_lt high) (by decide)) other _)
        (ih'.closed (Nat.le_trans high (by decide)) (by decide) rest)) rfl
  | ifThen _ _ _ ih ih' =>
      intro rest apart
      obtain ⟨next, tail, rfl, other⟩ := apart rfl
      simp only [derivation, Derivation.tokens, List.cons_append, List.append_assoc]
      exact .ifThen (Nat.le_refl _) rfl rfl (ih.closed (by decide) (by decide) _) rfl
        (ih' _ nofun) other
  | ifElse _ _ _ _ ih ih' ih'' =>
      intro rest _
      simp only [derivation, Derivation.tokens, List.cons_append, List.append_assoc]
      exact .ifElse (Nat.le_refl _) rfl rfl (ih.closed (by decide) (by decide) _) rfl
        (ih' _ nofun) rfl (ih'' rest nofun)
  | function _ _ _ ih =>
      intro rest _
      simp only [derivation, Derivation.tokens, List.cons_append, List.append_assoc]
      exact .function (Nat.le_refl _) rfl rfl (derives_parameters _ _) (ih rest nofun)
  | @call _ _ arguments _ _ _ ih ih' =>
      intro rest _
      cases arguments with
      | nil =>
          simp only [derivation, Derivation.tokens, List.cons_append, List.append_assoc,
            List.nil_append]
          exact .call (Nat.le_refl _) (ih.closed (Nat.le_refl _) (by decide) _) rfl
            (.noArguments rfl)
      | cons first others =>
          simp only [derivation, Derivation.tokens, List.cons_append, List.append_assoc]
          exact .call (Nat.le_refl _) (ih.closed (Nat.le_refl _) (by decide) _) rfl
            (.someArguments (derives_arguments (ih' first (by simp))
              (fun argument member => ih' argument (by simp [member])) rest))

/-! ## Its tree and its nesting -/

theorem names_parametersDerivation (parameters : List Name) :
    (parametersDerivation parameters).names.map eraseName = parameters.map eraseName := by
  have list (first : Name) (others : List Name) :
      (parameterDerivation first others).names.map eraseName =
        (first :: others).map eraseName := by
    induction others generalizing first with
    | nil => rfl
    | cons next others ih =>
        rw [parameterDerivation, Derivation.names, List.map_cons, ih next]
        rfl
  cases parameters with
  | nil => rfl
  | cons first others => exact list first others

theorem nodes_sequenceDerivation (closing : Token) {statements : List Node}
    (each : ∀ statement ∈ statements, statement.derivation.node.erase = statement.erase) :
    eraseAll (sequenceDerivation closing statements).nodes = eraseAll statements := by
  induction statements with
  | nil => rfl
  | cons statement others ih =>
      rw [sequenceDerivation, Derivation.nodes, eraseAll, eraseAll, each statement (by simp),
        ih fun other member => each other (by simp [member])]

theorem nodes_argumentDerivation {first : Node} {others : List Node}
    (each : ∀ argument ∈ first :: others, argument.derivation.node.erase = argument.erase) :
    eraseAll (argumentDerivation first.derivation others).nodes = eraseAll (first :: others) := by
  induction others generalizing first with
  | nil => simp [argumentDerivation, Derivation.nodes, eraseAll, each first (by simp)]
  | cons next others ih =>
      rw [argumentDerivation, Derivation.nodes, eraseAll, eraseAll, each first (by simp),
        ih fun other member => each other (List.mem_cons_of_mem first member)]

/-- The tree of the derivation is the tree it was made from, lines aside. -/
theorem erase_derivation {place : Place} {node : Node} (placed : node.Placed .written place)
    (inside : place ≠ .program) : node.derivation.node.erase = node.erase := by
  induction placed with
  | program => exact absurd rfl inside
  | @block _ statements _ each ih =>
      rw [derivation, Derivation.node, erase, erase,
        nodes_sequenceDerivation _ fun statement member => ih statement member nofun]
  | blockStatement admitted => exact absurd admitted id
  | letStatement _ _ _ ih =>
      rw [derivation, Derivation.node, erase, erase, ih nofun]
      rfl
  | returnStatement _ _ ih => rw [derivation, Derivation.node, erase, erase, ih nofun]
  | expressionStatement _ _ ih => rw [derivation, Derivation.node, erase, erase, ih nofun]
  | identifier => rfl
  | integer _ number =>
      obtain ⟨natural, -⟩ := number
      obtain ⟨value, rfl⟩ := Int.eq_ofNat_of_zero_le natural
      have read : Decimal.numeral (toString (value : Int)) = value := Decimal.numeral_repr value
      rw [derivation, Derivation.node, erase, erase, read]
  | @boolean _ value => cases value <;> rfl
  | prefixed _ _ _ ih =>
      rw [derivation, Derivation.node, Derivation.node, erase, erase, ih nofun]
      rfl
  | binary _ _ _ _ ih ih' =>
      rw [derivation, Derivation.node, Derivation.node, erase, erase, ih nofun, ih' nofun]
      rfl
  | ifThen _ _ _ ih ih' =>
      rw [derivation, Derivation.node, erase, erase, ih nofun, ih' nofun]
  | ifElse _ _ _ _ ih ih' ih'' =>
      rw [derivation, Derivation.node, erase, erase, ih nofun, ih' nofun, ih'' nofun]
  | function _ _ _ ih =>
      rw [derivation, Derivation.node, erase, erase, ih nofun, names_parametersDerivation]
  | @call _ _ arguments _ _ _ ih ih' =>
      cases arguments with
      | nil =>
          rw [derivation, Derivation.node, erase, erase, ih nofun]
          rfl
      | cons first others =>
          rw [derivation, Derivation.node, erase, erase, ih nofun,
            nodes_argumentDerivation fun argument member => ih' argument member nofun]

/-- How much less than twice the height the nesting is, by place. -/
def slack : Place → Nat
  | .program => 0
  | .block => 1
  | .expression => 2
  | .statement => 3

theorem nesting_sequence (closing : Token) {statements : List Node}
    (each : ∀ statement ∈ statements,
      statement.derivation.nesting + slack .statement ≤ 2 * statement.height) :
    (sequenceDerivation closing statements).nesting ≤ 2 * heights statements := by
  induction statements with
  | nil => exact Nat.le_refl 0
  | cons statement others ih =>
      have here := each statement (by simp)
      have later := ih fun other member => each other (by simp [member])
      simp only [sequenceDerivation, Derivation.nesting, heights, slack] at *
      omega

theorem nesting_arguments {first : Node} {others : List Node}
    (each : ∀ argument ∈ first :: others,
      argument.derivation.nesting + slack .expression ≤ 2 * argument.height) :
    (argumentDerivation first.derivation others).nesting + 1 ≤ 2 * heights (first :: others) := by
  induction others generalizing first with
  | nil =>
      have here := each first (by simp)
      simp only [argumentDerivation, Derivation.nesting, heights, slack] at *
      omega
  | cons next others ih =>
      have here := each first (by simp)
      have later : (argumentDerivation next.derivation others).nesting + 1 ≤
          2 * heights (next :: others) :=
        ih fun other member => each other (List.mem_cons_of_mem first member)
      simp only [argumentDerivation, Derivation.nesting, heights, slack] at *
      omega

/-- The text is nested less than twice as deep as the tree is high. -/
theorem nesting_derivation {place : Place} {node : Node} (placed : node.Placed .written place) :
    node.derivation.nesting + slack place ≤ 2 * node.height := by
  induction placed with
  | program each ih =>
      have inner := nesting_sequence .final ih
      simp only [derivation, height, slack]
      omega
  | block _ each ih =>
      have inner := nesting_sequence (.sign .rightBrace) ih
      simp only [derivation, Derivation.nesting, height, slack]
      omega
  | blockStatement admitted => exact absurd admitted id
  | @call _ _ arguments _ _ _ ih ih' =>
      cases arguments with
      | nil =>
          simp only [derivation, Derivation.nesting, height, heights, slack] at *
          omega
      | cons first others =>
          have inner := nesting_arguments ih'
          simp only [derivation, Derivation.nesting, height, slack] at *
          omega
  | _ =>
      simp only [derivation, Derivation.nesting, height, slack] at *
      omega

end Node

end ExprLang
