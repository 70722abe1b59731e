/-
# ExprLang.Proofs.Parser.Unambiguous — a token list has one derivation

Two derivations of a phrase from the same tokens are the same and stop at the
same place (`Derives.unique`). The first token decides between most productions.
The exception is an expression, which may start with any number of operands, so
it is taken apart from the left: an operand, and the operators and calls that
follow it one by one up to a token that binds no tighter than the floor
(`Climbs`). Step by step there is no choice.

The induction is on how many tokens there are, because an operand inside of an
expression is a phrase of its own with fewer tokens.
-/
import ExprLang.Proofs.Parser.Derivation

namespace ExprLang

set_option autoImplicit false

/-- A whole expression over a floor: what comes next does not go on with it. -/
structure Whole (floor : Nat) (tree : Derivation) (input rest : List Token) : Prop where
  derives : ∃ level, Derives (.expression level) tree input rest ∧
    (floor < level ∨ Precedence.unary ≤ level)
  follows : Follows floor rest

/-- An expression that is no operation on one before it. -/
def Derivation.IsOperand : Derivation → Prop
  | .binary .. | .call .. => False
  | _ => True

/-- From an expression to a whole one, by the operators and calls that follow it. -/
inductive Climbs (floor : Nat) : Derivation → List Token → Derivation → List Token → Prop where
  | whole {tree : Derivation} {rest : List Token} (follows : Follows floor rest) :
      Climbs floor tree rest tree rest
  | binary {left right tree : Derivation} {operator : Token} {own : Nat}
      {middle behind rest : List Token} (tight : floor < own)
      (kind : operator.kind.binaryLevel? = some own)
      (second : Derives (.expression (own + 1)) right middle behind)
      (follows : Follows own behind)
      (later : Climbs floor (.binary left operator right) behind tree rest) :
      Climbs floor left (operator :: middle) tree rest
  | call {left arguments tree : Derivation} {opening : Token} {middle behind rest : List Token}
      (tight : floor < Precedence.call) (opens : opening.kind = .leftParen)
      (given : Derives .arguments arguments middle behind)
      (later : Climbs floor (.call left opening arguments) behind tree rest) :
      Climbs floor left (opening :: middle) tree rest

/-- The operand that an expression starts with, and how it goes on from there. -/
def StartsWith (floor : Nat) (input : List Token) (tree : Derivation) (rest : List Token) : Prop :=
  ∃ operand middle, Derives (.expression operand.level) operand input middle ∧
    Follows operand.level middle ∧ Climbs floor operand middle tree rest ∧ operand.IsOperand

/-- An expression that goes on to a whole one starts with an operand that does. -/
theorem Derives.startsWith {floor level : Nat} {phrase : Phrase} {tree final : Derivation}
    {input rest last : List Token} (derives : Derives phrase tree input rest)
    (expression : phrase = .expression level) (bounded : floor ≤ Precedence.unary)
    (above : floor < level ∨ Precedence.unary ≤ level) (follows : Follows tree.level rest)
    (climbs : Climbs floor tree rest final last) : StartsWith floor input final last := by
  induction derives generalizing level with
  | @binary _ own _ _ operator _ middle _ fits kind first second ih _ =>
      cases expression
      obtain ⟨low, high⟩ := TokenKind.binaryLevel?_bounds kind
      obtain ⟨precedence, -, -⟩ := TokenKind.of_binaryLevel? kind
      have tight : floor < own := by omega
      simp only [Derivation.level, kind, Option.getD_some] at follows
      exact ih rfl (.inl tight) ⟨operator, middle, rfl, precedence ▸ first.le_level⟩
        (.binary tight kind second follows climbs)
  | @call _ _ _ opening _ middle _ fits target opens given ih _ =>
      cases expression
      have tight : floor < Precedence.call := Nat.lt_succ_of_le bounded
      exact ih rfl (.inl tight) ⟨opening, middle, rfl, opens ▸ target.le_level⟩
        (.call tight opens given climbs)
  | name _ kind => exact ⟨_, _, .name (Nat.le_refl _) kind, follows, climbs, trivial⟩
  | integer _ kind run short =>
      exact ⟨_, _, .integer (Nat.le_refl _) kind run short, follows, climbs, trivial⟩
  | truth _ kind => exact ⟨_, _, .truth (Nat.le_refl _) kind, follows, climbs, trivial⟩
  | group _ opens within closes =>
      exact ⟨_, _, .group (Nat.le_refl _) opens within closes, follows, climbs, trivial⟩
  | prefixed _ kind within =>
      exact ⟨_, _, .prefixed (Nat.le_refl _) kind within, follows, climbs, trivial⟩
  | ifThen _ kind opens test closes first alone =>
      exact ⟨_, _, .ifThen (Nat.le_refl _) kind opens test closes first alone, follows, climbs,
        trivial⟩
  | ifElse _ kind opens test closes first parts second =>
      exact ⟨_, _, .ifElse (Nat.le_refl _) kind opens test closes first parts second, follows,
        climbs, trivial⟩
  | function _ kind opens names within =>
      exact ⟨_, _, .function (Nat.le_refl _) kind opens names within, follows, climbs, trivial⟩
  | _ => cases expression

theorem Whole.startsWith {floor : Nat} {tree : Derivation} {input rest : List Token}
    (whole : Whole floor tree input rest) (bounded : floor ≤ Precedence.unary) :
    StartsWith floor input tree rest := by
  obtain ⟨⟨level, derives, above⟩, follows⟩ := whole
  have under : floor ≤ tree.level := by
    have := derives.le_level
    omega
  exact derives.startsWith rfl bounded above (follows.mono under) (.whole follows)

/-! ## One phrase after the other -/

/-- The phrases that these tokens start with are determined. -/
structure Determined (input : List Token) : Prop where
  expression : ∀ {floor : Nat} {tree tree' : Derivation} {rest rest' : List Token},
    floor ≤ Precedence.unary → Whole floor tree input rest → Whole floor tree' input rest' →
    tree = tree' ∧ rest = rest'
  phrase : ∀ {phrase : Phrase} {tree tree' : Derivation} {rest rest' : List Token},
    phrase = .arguments ∨ phrase = .block ∨ phrase = .statements .rightBrace →
    Derives phrase tree input rest → Derives phrase tree' input rest' →
    tree = tree' ∧ rest = rest'

/-- The phrases that fewer tokens start with are determined. -/
def Below (input : List Token) : Prop :=
  ∀ fewer : List Token, fewer.length < input.length → Determined fewer

variable {input rest rest' : List Token} {tree tree' : Derivation}

/-- A token above the floor goes on with the expression. -/
theorem Follows.not_binary {floor own : Nat} {operator : Token}
    (follows : Follows floor (operator :: rest)) (kind : operator.kind.binaryLevel? = some own) :
    own ≤ floor := by
  obtain ⟨_, _, ⟨⟩, loose⟩ := follows
  rwa [(TokenKind.of_binaryLevel? kind).1] at loose

theorem Follows.not_call {floor : Nat} {opening : Token}
    (follows : Follows floor (opening :: rest)) (opens : opening.kind = .leftParen) :
    Precedence.call ≤ floor := by
  obtain ⟨_, _, ⟨⟩, loose⟩ := follows
  rwa [opens] at loose

/-- From one expression on there is one way to go on to a whole one. -/
theorem unique_climbs {floor : Nat} {left : Derivation} (below : Below input)
    {middle : List Token} (shorter : middle.length ≤ input.length)
    (climbs : Climbs floor left middle tree rest) (climbs' : Climbs floor left middle tree' rest') :
    tree = tree' ∧ rest = rest' := by
  induction climbs with
  | whole follows =>
      cases climbs' with
      | whole => exact ⟨rfl, rfl⟩
      | binary tight kind => exact absurd (follows.not_binary kind) (Nat.not_le.2 tight)
      | call tight opens => exact absurd (follows.not_call opens) (Nat.not_le.2 tight)
  | @binary _ _ _ _ own middle behind _ tight kind second follows later ih =>
      cases climbs' with
      | whole follows' => exact absurd (follows'.not_binary kind) (Nat.not_le.2 tight)
      | binary _ kind' second' follows' later' =>
          cases Option.some.inj (kind.symm.trans kind')
          have bounded : own ≤ Precedence.unary :=
            Nat.le_of_lt (TokenKind.binaryLevel?_bounds kind).2
          obtain ⟨rfl, rfl⟩ := (below middle shorter).expression bounded
            ⟨⟨own + 1, second, .inl (Nat.lt_succ_self own)⟩, follows⟩
            ⟨⟨own + 1, second', .inl (Nat.lt_succ_self own)⟩, follows'⟩
          have fewer := second.length_lt
          exact ih (by simp only [List.length_cons] at shorter; omega) later'
      | call _ opens =>
          rw [opens] at kind
          cases kind
  | @call _ _ _ _ middle behind _ tight opens given later ih =>
      cases climbs' with
      | whole follows' => exact absurd (follows'.not_call opens) (Nat.not_le.2 tight)
      | binary _ kind =>
          rw [opens] at kind
          cases kind
      | call _ _ given' later' =>
          obtain ⟨rfl, rfl⟩ := (below middle shorter).phrase (.inl rfl) given given'
          have fewer := given.length_lt
          exact ih (by simp only [List.length_cons] at shorter; omega) later'

/-- An expression of any level is whole before a token that closes it. -/
theorem Derives.whole_of_closing {closing : Token} {kind : TokenKind}
    (derives : Derives (.expression Precedence.equality) tree input (closing :: rest))
    (closes : closing.kind = kind) (loose : kind.precedence = Precedence.lowest) :
    Whole Precedence.lowest tree input (closing :: rest) :=
  ⟨⟨_, derives, .inl (by decide)⟩, follows_closing closes loose rest⟩

theorem unique_parameterList (derives : Derives .parameterList tree input rest)
    (derives' : Derives .parameterList tree' input rest') : tree = tree' ∧ rest = rest' := by
  generalize same : Phrase.parameterList = phrase at derives
  induction derives generalizing tree' rest' with
  | lastParameter kind closes =>
      cases derives' with
      | lastParameter => exact ⟨rfl, rfl⟩
      | parameter _ separates => simp_all
  | parameter kind separates later ih =>
      cases derives' with
      | lastParameter _ closes => simp_all
      | parameter _ _ later' =>
          obtain ⟨rfl, rfl⟩ := ih later' rfl
          exact ⟨rfl, rfl⟩
  | _ => cases same

theorem unique_parameters (derives : Derives .parameters tree input rest)
    (derives' : Derives .parameters tree' input rest') : tree = tree' ∧ rest = rest' := by
  cases derives with
  | noParameters closes =>
      cases derives' with
      | noParameters => exact ⟨rfl, rfl⟩
      | someParameters list =>
          cases list <;> simp_all
  | someParameters list =>
      cases derives' with
      | noParameters closes =>
          cases list <;> simp_all
      | someParameters list' => exact unique_parameterList list list'

/-- Both forms of conditional are the same up to the first block. -/
theorem unique_conditional {keyword opening closing closing' : Token}
    {condition condition' consequence consequence' : Derivation}
    {middle middle' after after' : List Token} (below : Below (keyword :: opening :: input))
    (test : Derives (.expression Precedence.equality) condition input (closing :: middle))
    (closes : closing.kind = .rightParen) (first : Derives .block consequence middle after)
    (test' : Derives (.expression Precedence.equality) condition' input (closing' :: middle'))
    (closes' : closing'.kind = .rightParen) (first' : Derives .block consequence' middle' after') :
    condition = condition' ∧ closing = closing' ∧ consequence = consequence' ∧ after = after' := by
  have shorter := test.length_lt
  simp only [List.length_cons] at shorter
  obtain ⟨rfl, same⟩ := (below input (by simp only [List.length_cons]; omega)).expression
    (by decide) (test.whole_of_closing closes rfl) (test'.whole_of_closing closes' rfl)
  cases same
  obtain ⟨rfl, rfl⟩ := (below middle (by simp only [List.length_cons]; omega)).phrase
    (.inr (.inl rfl)) first first'
  exact ⟨rfl, rfl, rfl, rfl⟩

/-- An operand is determined by its first token and shorter phrases. -/
theorem unique_operand {level level' : Nat} (below : Below input)
    (derives : Derives (.expression level) tree input rest)
    (derives' : Derives (.expression level') tree' input rest') (operand : tree.IsOperand)
    (operand' : tree'.IsOperand) (follows : Follows tree.level rest)
    (follows' : Follows tree'.level rest') : tree = tree' ∧ rest = rest' := by
  cases derives with
  | name _ kind =>
      cases derives' with
      | name => exact ⟨rfl, rfl⟩
      | _ => grind [Derivation.IsOperand]
  | integer _ kind =>
      cases derives' with
      | integer => exact ⟨rfl, rfl⟩
      | _ => grind [Derivation.IsOperand]
  | truth _ kind =>
      cases derives' with
      | truth => exact ⟨rfl, rfl⟩
      | _ => grind [Derivation.IsOperand]
  | @group _ _ _ _ inside _ _ opens within closes =>
      cases derives' with
      | group _ _ within' closes' =>
          obtain ⟨rfl, same⟩ := (below inside (Nat.lt_succ_self _)).expression (by decide)
            (within.whole_of_closing closes rfl) (within'.whole_of_closing closes' rfl)
          cases same
          exact ⟨rfl, rfl⟩
      | _ => grind [Derivation.IsOperand]
  | @prefixed _ _ _ inside _ _ kind within =>
      cases derives' with
      | prefixed _ _ within' =>
          obtain ⟨rfl, rfl⟩ := (below inside (Nat.lt_succ_self _)).expression (Nat.le_refl _)
            ⟨⟨_, within, .inr (Nat.le_refl _)⟩, follows⟩
            ⟨⟨_, within', .inr (Nat.le_refl _)⟩, follows'⟩
          exact ⟨rfl, rfl⟩
      | _ => grind [Derivation.IsOperand]
  | ifThen _ kind opens test closes first alone =>
      cases derives' with
      | ifThen _ _ _ test' closes' first' _ =>
          obtain ⟨rfl, rfl, rfl, same⟩ :=
            unique_conditional below test closes first test' closes' first'
          cases same
          exact ⟨rfl, rfl⟩
      | ifElse _ _ _ test' closes' first' parts' _ =>
          obtain ⟨rfl, rfl, rfl, same⟩ :=
            unique_conditional below test closes first test' closes' first'
          cases same
          exact absurd parts' alone
      | _ => grind [Derivation.IsOperand]
  | @ifElse _ _ _ _ _ _ _ _ _ _ last _ _ kind opens test closes first parts second =>
      cases derives' with
      | ifThen _ _ _ test' closes' first' alone' =>
          obtain ⟨rfl, rfl, rfl, same⟩ :=
            unique_conditional below test closes first test' closes' first'
          cases same
          exact absurd parts alone'
      | ifElse _ _ _ test' closes' first' _ second' =>
          obtain ⟨rfl, rfl, rfl, same⟩ :=
            unique_conditional below test closes first test' closes' first'
          cases same
          have shorter := test.length_lt
          have shorter' := first.length_lt
          obtain ⟨rfl, rfl⟩ := (below last (by simp only [List.length_cons] at *; omega)).phrase
            (.inr (.inl rfl)) second second'
          exact ⟨rfl, rfl⟩
      | _ => grind [Derivation.IsOperand]
  | @function _ _ _ _ _ _ middle _ _ kind opens names within =>
      cases derives' with
      | function _ _ _ names' within' =>
          obtain ⟨rfl, rfl⟩ := unique_parameters names names'
          have shorter := names.length_lt
          obtain ⟨rfl, rfl⟩ := (below middle (by simp only [List.length_cons] at *; omega)).phrase
            (.inr (.inl rfl)) within within'
          exact ⟨rfl, rfl⟩
      | _ => grind [Derivation.IsOperand]
  | binary => exact absurd operand id
  | call => exact absurd operand id

theorem unique_expression {floor : Nat} (below : Below input) (bounded : floor ≤ Precedence.unary)
    (whole : Whole floor tree input rest) (whole' : Whole floor tree' input rest') :
    tree = tree' ∧ rest = rest' := by
  obtain ⟨operand, middle, derives, follows, climbs, simple⟩ := whole.startsWith bounded
  obtain ⟨operand', middle', derives', follows', climbs', simple'⟩ := whole'.startsWith bounded
  obtain ⟨rfl, rfl⟩ := unique_operand below derives derives' simple simple' follows follows'
  exact unique_climbs below (Nat.le_of_lt derives.length_lt) climbs climbs'

/-! ## Arguments, statements and blocks -/

/-- An expression and the token that closes it. -/
theorem unique_closed {closing closing' : Token} {kind kind' : TokenKind} (below : Below input)
    (within : Derives (.expression Precedence.equality) tree input (closing :: rest))
    (within' : Derives (.expression Precedence.equality) tree' input (closing' :: rest'))
    (closes : closing.kind = kind) (closes' : closing'.kind = kind')
    (loose : kind.precedence = Precedence.lowest) (loose' : kind'.precedence = Precedence.lowest) :
    tree = tree' ∧ closing = closing' ∧ rest = rest' := by
  obtain ⟨rfl, same⟩ := unique_expression below (by decide)
    (within.whole_of_closing closes loose) (within'.whole_of_closing closes' loose')
  cases same
  exact ⟨rfl, rfl, rfl⟩

theorem unique_argumentList (below : Below input)
    (derives : Derives .argumentList tree input rest)
    (derives' : Derives .argumentList tree' input rest') : tree = tree' ∧ rest = rest' := by
  generalize list : Phrase.argumentList = phrase at derives
  induction derives generalizing tree' rest' with
  | lastArgument within closes =>
      cases derives' with
      | lastArgument within' closes' =>
          obtain ⟨rfl, rfl, rfl⟩ := unique_closed below within within' closes closes' rfl rfl
          exact ⟨rfl, rfl⟩
      | argument within' separates' =>
          obtain ⟨-, rfl, -⟩ := unique_closed below within within' closes separates' rfl rfl
          cases closes.symm.trans separates'
  | argument within separates later _ ih =>
      cases derives' with
      | lastArgument within' closes' =>
          obtain ⟨-, rfl, -⟩ := unique_closed below within within' separates closes' rfl rfl
          cases separates.symm.trans closes'
      | argument within' separates' later' =>
          obtain ⟨rfl, rfl, rfl⟩ := unique_closed below within within' separates separates' rfl rfl
          have shorter := within.length_lt
          simp only [List.length_cons] at shorter
          obtain ⟨rfl, rfl⟩ := ih (fun fewer less => below fewer (by omega)) later' rfl
          exact ⟨rfl, rfl⟩
  | _ => cases list

theorem unique_arguments (below : Below input) (derives : Derives .arguments tree input rest)
    (derives' : Derives .arguments tree' input rest') : tree = tree' ∧ rest = rest' := by
  have open_ {list : Derivation} {closing : Token} {input behind : List Token}
      (derives : Derives .argumentList list (closing :: input) behind) :
      closing.kind ≠ .rightParen := by
    obtain ⟨_, ⟨⟩⟩ := derives.input_eq
    cases derives with
    | lastArgument within => exact within.head_ne rfl
    | argument within => exact within.head_ne rfl
  cases derives with
  | noArguments closes =>
      cases derives' with
      | noArguments => exact ⟨rfl, rfl⟩
      | someArguments list => exact absurd closes (open_ list)
  | someArguments list =>
      cases derives' with
      | noArguments closes => exact absurd closes (open_ list)
      | someArguments list' => exact unique_argumentList below list list'

theorem unique_ends {ending ending' : Option Token} {after : List Token}
    (ends : Ends ending after rest) (ends' : Ends ending' after rest') :
    ending = ending' ∧ rest = rest' := by
  cases ends with
  | semicolon kind =>
      cases ends' with
      | semicolon => exact ⟨rfl, rfl⟩
      | bare noSemicolon => exact absurd kind noSemicolon
  | bare noSemicolon =>
      cases ends' with
      | semicolon kind => exact absurd kind noSemicolon
      | bare => exact ⟨rfl, rfl⟩

/-- The expression of a statement and its end. -/
theorem unique_value {ending ending' : Option Token} {after after' : List Token}
    (below : Below input) (within : Derives (.expression Precedence.equality) tree input after)
    (ends : Ends ending after rest)
    (within' : Derives (.expression Precedence.equality) tree' input after')
    (ends' : Ends ending' after' rest') : tree = tree' ∧ ending = ending' ∧ rest = rest' := by
  obtain ⟨rfl, rfl⟩ := unique_expression below (by decide)
    ⟨⟨_, within, .inl (by decide)⟩, ends.follows⟩ ⟨⟨_, within', .inl (by decide)⟩, ends'.follows⟩
  exact ⟨rfl, unique_ends ends ends'⟩

theorem Below.tail {passed : Token} (below : Below (passed :: input)) : Below input :=
  fun fewer less => below fewer (Nat.lt_succ_of_lt less)

theorem unique_statement (below : Below input) (derives : Derives .statement tree input rest)
    (derives' : Derives .statement tree' input rest') : tree = tree' ∧ rest = rest' := by
  have plain {value : Derivation} {keyword : Token} {input behind : List Token}
      (within : Derives (.expression Precedence.equality) value (keyword :: input) behind) :
      keyword.kind ≠ .letKeyword ∧ keyword.kind ≠ .returnKeyword := by
    obtain ⟨_, ⟨⟩⟩ := within.input_eq
    exact ⟨within.head_ne rfl, within.head_ne rfl⟩
  cases derives with
  | letStatement kind _ _ within ends =>
      cases derives' with
      | letStatement _ _ _ within' ends' =>
          obtain ⟨rfl, rfl, rfl⟩ := unique_value below.tail.tail.tail within ends within' ends'
          exact ⟨rfl, rfl⟩
      | returnStatement kind' => simp_all
      | expressionStatement within' => exact absurd kind (plain within').1
  | returnStatement kind within ends =>
      cases derives' with
      | letStatement kind' => simp_all
      | returnStatement _ within' ends' =>
          obtain ⟨rfl, rfl, rfl⟩ := unique_value below.tail within ends within' ends'
          exact ⟨rfl, rfl⟩
      | expressionStatement within' => exact absurd kind (plain within').2
  | expressionStatement within ends =>
      cases derives' with
      | letStatement kind' => exact absurd kind' (plain within).1
      | returnStatement kind' => exact absurd kind' (plain within).2
      | expressionStatement within' ends' =>
          obtain ⟨rfl, rfl, rfl⟩ := unique_value below within ends within' ends'
          exact ⟨rfl, rfl⟩

theorem unique_statements {closer : TokenKind} (closes : closer = .rightBrace ∨ closer = .eof)
    (below : Below input) (derives : Derives (.statements closer) tree input rest)
    (derives' : Derives (.statements closer) tree' input rest') : tree = tree' ∧ rest = rest' := by
  have open_ {first : Derivation} {closing : Token} {input behind : List Token}
      (derives : Derives .statement first (closing :: input) behind) : closing.kind ≠ closer := by
    have heads := derives.statement_head
    obtain ⟨_, ⟨⟩⟩ := derives.input_eq
    rcases closes with rfl | rfl
    · exact heads.1
    · exact heads.2
  generalize list : Phrase.statements closer = phrase at derives
  induction derives generalizing tree' rest' with
  | closed kind =>
      cases list
      cases derives' with
      | closed => exact ⟨rfl, rfl⟩
      | followed here => exact absurd kind (open_ here)
  | followed here later _ ih =>
      cases list
      cases derives' with
      | closed kind => exact absurd kind (open_ here)
      | followed here' later' =>
          obtain ⟨rfl, rfl⟩ := unique_statement below here here'
          have shorter := here.length_lt
          obtain ⟨rfl, rfl⟩ := ih (fun fewer less => below fewer (by omega)) later' rfl
          exact ⟨rfl, rfl⟩
  | _ => cases list

theorem unique_block (below : Below input) (derives : Derives .block tree input rest)
    (derives' : Derives .block tree' input rest') : tree = tree' ∧ rest = rest' := by
  cases derives with
  | block _ within =>
      cases derives' with
      | block _ within' =>
          obtain ⟨rfl, rfl⟩ := unique_statements (.inl rfl) below.tail within within'
          exact ⟨rfl, rfl⟩

/-- Whatever the tokens, the phrases they start with are determined. -/
theorem below_all (input : List Token) : Below input := by
  induction size : input.length using Nat.strongRecOn generalizing input with
  | ind size ih =>
      intro fewer less
      have below : Below fewer := ih fewer.length (size ▸ less) fewer rfl
      refine ⟨unique_expression below, ?_⟩
      rintro phrase tree tree' rest rest' (rfl | rfl | rfl) derives derives'
      · exact unique_arguments below derives derives'
      · exact unique_block below derives derives'
      · exact unique_statements (.inl rfl) below derives derives'

/-- A program has one derivation. -/
theorem Derives.unique (derives : Derives (.statements .eof) tree input rest)
    (derives' : Derives (.statements .eof) tree' input rest') : tree = tree' ∧ rest = rest' :=
  unique_statements (.inr rfl) (below_all input) derives derives'

end ExprLang
