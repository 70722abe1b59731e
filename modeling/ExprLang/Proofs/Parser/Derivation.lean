/-
# ExprLang.Proofs.Parser.Derivation — the grammar over token lists

The language as productions, apart from how it is parsed. `Derives phrase tree
input rest` says that the tokens of `input` up to `rest` make up a phrase of that
kind, and `tree` records which production was used where. There is one
constructor for each production that spells out a token, so a tree is a
derivation.

Expressions have levels: equality below comparison below sum below product below
prefix operators below calls. An expression of a level may stand wherever a
lower one is asked for. A binary operator takes an expression of its own level on
its left and one of a higher level on its right, so operators of one level group
to the left.

A phrase extends as far as it can. That is no matter of the levels where closing
tokens delimit it, so it is said in two places only: a statement without a
semicolon is followed by a token that is no semicolon and cannot go on with the
expression (`Ends`), and a conditional without an alternative is not followed by
`else`.

`nesting` counts how many expressions and blocks are entered inside each other.
The left operand of an operator and the callee of a call are read on the level of
the whole, so they do not count.
-/
import ExprLang.Node
import ExprLang.Parser.Grammar
import ExprLang.Proofs.Decimal

namespace ExprLang

set_option autoImplicit false

namespace TokenKind

/-- The level of a binary operator. -/
def binaryLevel? : TokenKind → Option Nat
  | .equal | .notEqual => some Precedence.equality
  | .less | .greater | .lessEqual | .greaterEqual => some Precedence.comparison
  | .plus | .minus => some Precedence.sum
  | .product | .divide => some Precedence.product
  | _ => none

/-- Whether a token of this kind can go on with an expression that stands before it. -/
def Continues (kind : TokenKind) : Prop := kind = .leftParen ∨ kind.binaryLevel?.isSome

end TokenKind

/-- The kinds of phrase. -/
inductive Phrase where
  /-- An expression of at least a level. -/
  | expression (level : Nat)
  /-- Arguments and the parenthesis that closes them. -/
  | arguments
  /-- At least one argument and the parenthesis that closes them. -/
  | argumentList
  /-- Parameters and the parenthesis that closes them. -/
  | parameters
  /-- At least one parameter and the parenthesis that closes them. -/
  | parameterList
  | block
  | statement
  /-- Statements and the token that closes them. -/
  | statements (closer : TokenKind)
  deriving DecidableEq, Repr

/-- Which production was used where, with the tokens it spells out. -/
inductive Derivation where
  | name (token : Token)
  | integer (token : Token)
  | truth (token : Token)
  | group (opening : Token) (inner : Derivation) (closing : Token)
  | prefixed (operator : Token) (operand : Derivation)
  | binary (left : Derivation) (operator : Token) (right : Derivation)
  | call (callee : Derivation) (opening : Token) (arguments : Derivation)
  | ifThen (keyword opening : Token) (condition : Derivation) (closing : Token)
      (consequence : Derivation)
  | ifElse (keyword opening : Token) (condition : Derivation) (closing : Token)
      (consequence : Derivation) (otherwise : Token) (alternative : Derivation)
  | function (keyword opening : Token) (parameters body : Derivation)
  | noArguments (closing : Token)
  | lastArgument (argument : Derivation) (closing : Token)
  | argument (argument : Derivation) (comma : Token) (more : Derivation)
  | noParameters (closing : Token)
  | lastParameter (name closing : Token)
  | parameter (name comma : Token) (more : Derivation)
  | letStatement (keyword name assign : Token) (value : Derivation) (ending : Option Token)
  | returnStatement (keyword : Token) (value : Derivation) (ending : Option Token)
  | expressionStatement (value : Derivation) (ending : Option Token)
  | block (opening : Token) (body : Derivation)
  | closed (closing : Token)
  | followed (first rest : Derivation)
  deriving DecidableEq, Repr

/-- The end of a statement: a semicolon, or a token before which none is needed. -/
inductive Ends : Option Token → List Token → List Token → Prop where
  | semicolon {token : Token} {rest : List Token} (kind : token.kind = .semicolon) :
      Ends (some token) (token :: rest) rest
  | bare {next : Token} {rest : List Token} (noSemicolon : next.kind ≠ .semicolon)
      (stops : ¬ next.kind.Continues) : Ends none (next :: rest) (next :: rest)

/-- A derivation of a phrase: the productions of the language. -/
inductive Derives : Phrase → Derivation → List Token → List Token → Prop where
  | name {level : Nat} {token : Token} {rest : List Token} (fits : level ≤ Precedence.call)
      (kind : token.kind = .identifier) :
      Derives (.expression level) (.name token) (token :: rest) rest
  | integer {level : Nat} {token : Token} {rest : List Token} (fits : level ≤ Precedence.call)
      (kind : token.kind = .int) (run : Decimal.Run token.literal)
      (short : token.literal.length ≤ Decimal.digitLimit) :
      Derives (.expression level) (.integer token) (token :: rest) rest
  | truth {level : Nat} {token : Token} {rest : List Token} (fits : level ≤ Precedence.call)
      (kind : token.kind = .trueKeyword ∨ token.kind = .falseKeyword) :
      Derives (.expression level) (.truth token) (token :: rest) rest
  | group {level : Nat} {opening closing : Token} {inner : Derivation} {input rest : List Token}
      (fits : level ≤ Precedence.call) (opens : opening.kind = .leftParen)
      (within : Derives (.expression Precedence.equality) inner input (closing :: rest))
      (closes : closing.kind = .rightParen) :
      Derives (.expression level) (.group opening inner closing) (opening :: input) rest
  | prefixed {level : Nat} {operator : Token} {operand : Derivation} {input rest : List Token}
      (fits : level ≤ Precedence.unary)
      (kind : operator.kind = .bang ∨ operator.kind = .minus)
      (within : Derives (.expression Precedence.unary) operand input rest) :
      Derives (.expression level) (.prefixed operator operand) (operator :: input) rest
  | binary {level own : Nat} {left right : Derivation} {operator : Token}
      {input middle rest : List Token} (fits : level ≤ own)
      (kind : operator.kind.binaryLevel? = some own)
      (first : Derives (.expression own) left input (operator :: middle))
      (second : Derives (.expression (own + 1)) right middle rest) :
      Derives (.expression level) (.binary left operator right) input rest
  | call {level : Nat} {callee arguments : Derivation} {opening : Token}
      {input middle rest : List Token} (fits : level ≤ Precedence.call)
      (target : Derives (.expression Precedence.call) callee input (opening :: middle))
      (opens : opening.kind = .leftParen) (given : Derives .arguments arguments middle rest) :
      Derives (.expression level) (.call callee opening arguments) input rest
  | ifThen {level : Nat} {keyword opening closing next : Token}
      {condition consequence : Derivation} {input middle rest : List Token}
      (fits : level ≤ Precedence.call) (kind : keyword.kind = .ifKeyword)
      (opens : opening.kind = .leftParen)
      (test : Derives (.expression Precedence.equality) condition input (closing :: middle))
      (closes : closing.kind = .rightParen)
      (first : Derives .block consequence middle (next :: rest))
      (alone : next.kind ≠ .elseKeyword) :
      Derives (.expression level) (.ifThen keyword opening condition closing consequence)
        (keyword :: opening :: input) (next :: rest)
  | ifElse {level : Nat} {keyword opening closing otherwise : Token}
      {condition consequence alternative : Derivation} {input middle last rest : List Token}
      (fits : level ≤ Precedence.call) (kind : keyword.kind = .ifKeyword)
      (opens : opening.kind = .leftParen)
      (test : Derives (.expression Precedence.equality) condition input (closing :: middle))
      (closes : closing.kind = .rightParen)
      (first : Derives .block consequence middle (otherwise :: last))
      (parts : otherwise.kind = .elseKeyword) (second : Derives .block alternative last rest) :
      Derives (.expression level)
        (.ifElse keyword opening condition closing consequence otherwise alternative)
        (keyword :: opening :: input) rest
  | function {level : Nat} {keyword opening : Token} {parameters body : Derivation}
      {input middle rest : List Token} (fits : level ≤ Precedence.call)
      (kind : keyword.kind = .functionKeyword) (opens : opening.kind = .leftParen)
      (names : Derives .parameters parameters input middle)
      (within : Derives .block body middle rest) :
      Derives (.expression level) (.function keyword opening parameters body)
        (keyword :: opening :: input) rest
  | noArguments {closing : Token} {rest : List Token} (closes : closing.kind = .rightParen) :
      Derives .arguments (.noArguments closing) (closing :: rest) rest
  | someArguments {arguments : Derivation} {input rest : List Token}
      (list : Derives .argumentList arguments input rest) :
      Derives .arguments arguments input rest
  | lastArgument {argument : Derivation} {closing : Token} {input rest : List Token}
      (within : Derives (.expression Precedence.equality) argument input (closing :: rest))
      (closes : closing.kind = .rightParen) :
      Derives .argumentList (.lastArgument argument closing) input rest
  | argument {argument more : Derivation} {comma : Token} {input middle rest : List Token}
      (within : Derives (.expression Precedence.equality) argument input (comma :: middle))
      (separates : comma.kind = .comma) (later : Derives .argumentList more middle rest) :
      Derives .argumentList (.argument argument comma more) input rest
  | noParameters {closing : Token} {rest : List Token} (closes : closing.kind = .rightParen) :
      Derives .parameters (.noParameters closing) (closing :: rest) rest
  | someParameters {parameters : Derivation} {input rest : List Token}
      (list : Derives .parameterList parameters input rest) :
      Derives .parameters parameters input rest
  | lastParameter {name closing : Token} {rest : List Token} (kind : name.kind = .identifier)
      (closes : closing.kind = .rightParen) :
      Derives .parameterList (.lastParameter name closing) (name :: closing :: rest) rest
  | parameter {name comma : Token} {more : Derivation} {middle rest : List Token}
      (kind : name.kind = .identifier) (separates : comma.kind = .comma)
      (later : Derives .parameterList more middle rest) :
      Derives .parameterList (.parameter name comma more) (name :: comma :: middle) rest
  | letStatement {keyword name assign : Token} {value : Derivation} {ending : Option Token}
      {input after rest : List Token} (kind : keyword.kind = .letKeyword)
      (named : name.kind = .identifier) (assigns : assign.kind = .assign)
      (within : Derives (.expression Precedence.equality) value input after)
      (ends : Ends ending after rest) :
      Derives .statement (.letStatement keyword name assign value ending)
        (keyword :: name :: assign :: input) rest
  | returnStatement {keyword : Token} {value : Derivation} {ending : Option Token}
      {input after rest : List Token} (kind : keyword.kind = .returnKeyword)
      (within : Derives (.expression Precedence.equality) value input after)
      (ends : Ends ending after rest) :
      Derives .statement (.returnStatement keyword value ending) (keyword :: input) rest
  | expressionStatement {value : Derivation} {ending : Option Token}
      {input after rest : List Token}
      (within : Derives (.expression Precedence.equality) value input after)
      (ends : Ends ending after rest) :
      Derives .statement (.expressionStatement value ending) input rest
  | block {opening : Token} {body : Derivation} {input rest : List Token}
      (opens : opening.kind = .leftBrace)
      (within : Derives (.statements .rightBrace) body input rest) :
      Derives .block (.block opening body) (opening :: input) rest
  | closed {closer : TokenKind} {closing : Token} {rest : List Token}
      (closes : closing.kind = closer) :
      Derives (.statements closer) (.closed closing) (closing :: rest) rest
  | followed {closer : TokenKind} {first rest : Derivation} {input middle last : List Token}
      (here : Derives .statement first input middle)
      (later : Derives (.statements closer) rest middle last) :
      Derives (.statements closer) (.followed first rest) input last

namespace Derivation

/-- How many expressions and blocks are entered inside each other. -/
def nesting : Derivation → Nat
  | .name _ | .integer _ | .truth _ => 0
  | .group _ inner _ => inner.nesting + 1
  | .prefixed _ operand => operand.nesting + 1
  | .binary left _ right => max left.nesting (right.nesting + 1)
  | .call callee _ arguments => max callee.nesting arguments.nesting
  | .ifThen _ _ condition _ consequence => max (condition.nesting + 1) consequence.nesting
  | .ifElse _ _ condition _ consequence _ alternative =>
      max (condition.nesting + 1) (max consequence.nesting alternative.nesting)
  | .function _ _ _ body => body.nesting
  | .noArguments _ => 0
  | .lastArgument given _ => given.nesting + 1
  | .argument given _ more => max (given.nesting + 1) more.nesting
  | .noParameters _ | .lastParameter .. | .parameter .. => 0
  | .letStatement _ _ _ value _ => value.nesting + 1
  | .returnStatement _ value _ => value.nesting + 1
  | .expressionStatement value _ => value.nesting + 1
  | .block _ body => body.nesting + 1
  | .closed _ => 0
  | .followed first rest => max first.nesting rest.nesting

/-- The first token. -/
def head : Derivation → Token
  | .name token | .integer token | .truth token => token
  | .group opening _ _ => opening
  | .prefixed operator _ => operator
  | .binary left _ _ => left.head
  | .call callee _ _ => callee.head
  | .ifThen keyword .. | .ifElse keyword .. | .function keyword .. => keyword
  | .noArguments closing => closing
  | .lastArgument given _ => given.head
  | .argument given _ _ => given.head
  | .noParameters closing => closing
  | .lastParameter word _ => word
  | .parameter word _ _ => word
  | .letStatement keyword .. | .returnStatement keyword .. => keyword
  | .expressionStatement value _ => value.head
  | .block opening _ => opening
  | .closed closing => closing
  | .followed first _ => first.head

/-- The tokens in order. -/
def tokens : Derivation → List Token
  | .name token | .integer token | .truth token => [token]
  | .group opening inner closing => opening :: (inner.tokens ++ [closing])
  | .prefixed operator operand => operator :: operand.tokens
  | .binary left operator right => left.tokens ++ operator :: right.tokens
  | .call callee opening arguments => callee.tokens ++ opening :: arguments.tokens
  | .ifThen keyword opening condition closing consequence =>
      keyword :: opening :: (condition.tokens ++ closing :: consequence.tokens)
  | .ifElse keyword opening condition closing consequence otherwise alternative =>
      keyword :: opening :: (condition.tokens ++ closing ::
        (consequence.tokens ++ otherwise :: alternative.tokens))
  | .function keyword opening parameters body =>
      keyword :: opening :: (parameters.tokens ++ body.tokens)
  | .noArguments closing => [closing]
  | .lastArgument given closing => given.tokens ++ [closing]
  | .argument given comma more => given.tokens ++ comma :: more.tokens
  | .noParameters closing => [closing]
  | .lastParameter word closing => [word, closing]
  | .parameter word comma more => word :: comma :: more.tokens
  | .letStatement keyword word assign value ending =>
      keyword :: word :: assign :: (value.tokens ++ ending.toList)
  | .returnStatement keyword value ending => keyword :: (value.tokens ++ ending.toList)
  | .expressionStatement value ending => value.tokens ++ ending.toList
  | .block opening body => opening :: body.tokens
  | .closed closing => [closing]
  | .followed first rest => first.tokens ++ rest.tokens

/-- The names of a parameter list. -/
def names : Derivation → List Name
  | .lastParameter word _ => [⟨word.literal, word.line⟩]
  | .parameter word _ more => ⟨word.literal, word.line⟩ :: more.names
  | _ => []

mutual

/-- The tree of an expression, a statement or a block. -/
def node : Derivation → Node
  | .name token => .identifier ⟨token.literal, token.line⟩
  | .integer token => .integer token.line (Decimal.numeral token.literal)
  | .truth token => .boolean token.line (token.kind == .trueKeyword)
  | .group _ inner _ => inner.node
  | .prefixed operator operand => .prefixed operator.line operator.literal operand.node
  | .binary left operator right => .binary operator.line left.node operator.literal right.node
  | .call callee opening arguments => .call opening.line callee.node arguments.nodes
  | .ifThen keyword _ condition _ consequence =>
      .ifThen keyword.line condition.node consequence.node
  | .ifElse keyword _ condition _ consequence _ alternative =>
      .ifElse keyword.line condition.node consequence.node alternative.node
  | .function keyword _ parameters body => .function keyword.line parameters.names body.node
  | .letStatement keyword word _ value _ =>
      .letStatement keyword.line ⟨word.literal, word.line⟩ value.node
  | .returnStatement keyword value _ => .returnStatement keyword.line value.node
  | .expressionStatement value _ => .expressionStatement value.head.line value.node
  | .block opening body => .block opening.line body.nodes
  | .noArguments _ | .lastArgument .. | .argument .. | .noParameters _ | .lastParameter ..
  | .parameter .. | .closed _ | .followed .. => .sequence []

/-- The trees of a list of arguments or statements. -/
def nodes : Derivation → List Node
  | .lastArgument given _ => [given.node]
  | .argument given _ more => given.node :: more.nodes
  | .followed first rest => first.node :: rest.nodes
  | _ => []

end

/-- The level of an expression by its outermost production. -/
def level : Derivation → Nat
  | .binary _ operator _ => operator.kind.binaryLevel?.getD 0
  | .prefixed .. => Precedence.unary
  | _ => Precedence.call

end Derivation

namespace TokenKind

theorem binaryLevel?_bounds {kind : TokenKind} {own : Nat}
    (found : kind.binaryLevel? = some own) :
    Precedence.equality ≤ own ∧ own < Precedence.unary := by
  cases kind <;> simp [binaryLevel?] at found <;> subst found <;> decide

theorem of_binaryLevel? {kind : TokenKind} {own : Nat} (found : kind.binaryLevel? = some own) :
    kind.precedence = own ∧ Grammar.standard.continuation kind = some .binary ∧
      kind ≠ .semicolon := by
  cases kind <;> simp [binaryLevel?] at found <;> subst found <;> exact ⟨rfl, rfl, nofun⟩

theorem precedence_le (kind : TokenKind) : kind.precedence ≤ Precedence.call := by
  cases kind <;> decide

theorem precedence_of_not_continues {kind : TokenKind} (stops : ¬ kind.Continues) :
    kind.precedence = Precedence.lowest := by
  cases kind <;> first | rfl | exact absurd (by simp [Continues, binaryLevel?]) stops

theorem precedence_of_continuation_none {kind : TokenKind}
    (absent : Grammar.standard.continuation kind = none) :
    kind.precedence = Precedence.lowest := by
  cases kind <;> first | rfl | cases absent

end TokenKind

/-- The rules that start an expression, each with the kinds it is for. -/
theorem Grammar.operand_standard {kind : TokenKind} {rule : Rule}
    (found : standard.operand kind = some rule) :
    kind = .identifier ∧ rule = .identifier ∨ kind = .int ∧ rule = .integer ∨
      (kind = .trueKeyword ∨ kind = .falseKeyword) ∧ rule = .boolean ∨
      kind = .leftParen ∧ rule = .group ∨ (kind = .bang ∨ kind = .minus) ∧ rule = .prefixed ∨
      kind = .ifKeyword ∧ rule = .conditional ∨ kind = .functionKeyword ∧ rule = .function := by
  cases kind <;> cases found <;> decide

/-- The rules that go on with an expression. -/
theorem Grammar.continuation_standard {kind : TokenKind} {rule : Rule}
    (found : standard.continuation kind = some rule) :
    kind.binaryLevel? = some kind.precedence ∧ rule = .binary ∨
      kind = .leftParen ∧ rule = .call := by
  cases kind <;> cases found <;> decide

/-! ## What may follow a phrase -/

/-- The rest starts with a token that binds no tighter than a level. -/
def Follows (level : Nat) (rest : List Token) : Prop :=
  ∃ next tail, rest = next :: tail ∧ next.kind.precedence ≤ level

theorem Follows.mono {lower level : Nat} {rest : List Token} (follows : Follows lower rest)
    (below : lower ≤ level) : Follows level rest := by
  obtain ⟨next, tail, same, loose⟩ := follows
  exact ⟨next, tail, same, Nat.le_trans loose below⟩

theorem follows_closing {closing : Token} {kind : TokenKind} (closes : closing.kind = kind)
    (loose : kind.precedence = Precedence.lowest) (rest : List Token) :
    Follows Precedence.lowest (closing :: rest) :=
  ⟨closing, rest, rfl, Nat.le_of_eq (by rw [closes, loose])⟩

namespace Ends

variable {ending : Option Token} {after rest : List Token}

theorem length_le (ends : Ends ending after rest) : rest.length ≤ after.length := by
  cases ends <;> simp

theorem follows (ends : Ends ending after rest) : Follows Precedence.lowest after := by
  cases ends with
  | semicolon kind => exact ⟨_, _, rfl, by rw [kind]; decide⟩
  | bare _ stops =>
      exact ⟨_, _, rfl, Nat.le_of_eq (TokenKind.precedence_of_not_continues stops)⟩

end Ends

namespace Derives

variable {phrase : Phrase} {tree : Derivation} {input rest : List Token} {level : Nat}

/-- Every phrase has a token. -/
theorem length_lt (derives : Derives phrase tree input rest) : rest.length < input.length := by
  induction derives with
  | letStatement _ _ _ _ ends ih | returnStatement _ _ ends ih | expressionStatement _ ends ih =>
      have ended := ends.length_le
      grind
  | _ => grind

theorem input_eq (derives : Derives phrase tree input rest) :
    ∃ tail, input = tree.head :: tail := by
  induction derives with
  | binary _ _ _ _ ih _ => exact ih
  | call _ _ _ _ ih _ => exact ih
  | someArguments _ ih => exact ih
  | lastArgument _ _ ih => exact ih
  | argument _ _ _ ih _ => exact ih
  | someParameters _ ih => exact ih
  | expressionStatement _ _ ih => exact ih
  | followed _ _ ih _ => exact ih
  | _ => exact ⟨_, rfl⟩

theorem operand_head (derives : Derives phrase tree input rest)
    (expression : ∃ level, phrase = .expression level) :
    (Grammar.standard.operand tree.head.kind).isSome := by
  induction derives with
  | name _ kind | integer _ kind | ifThen _ kind | ifElse _ kind | function _ kind =>
      simp only [Derivation.head]
      rw [kind]
      rfl
  | truth _ kind | prefixed _ kind =>
      simp only [Derivation.head]
      rcases kind with kind | kind <;> rw [kind] <;> rfl
  | group _ opens =>
      simp only [Derivation.head]
      rw [opens]
      rfl
  | binary _ _ _ _ ih => exact ih ⟨_, rfl⟩
  | call _ _ _ _ ih => exact ih ⟨_, rfl⟩
  | _ => nomatch expression

/-- No expression starts with a kind that has no rule for it. -/
theorem head_ne (derives : Derives (.expression level) tree input rest) {kind : TokenKind}
    (absent : Grammar.standard.operand kind = none) : tree.head.kind ≠ kind := by
  intro same
  have present := derives.operand_head ⟨level, rfl⟩
  rw [same, absent] at present
  cases present

/-- No statement starts with the token that ends a block or a program. -/
theorem statement_head (derives : Derives .statement tree input rest) :
    tree.head.kind ≠ .rightBrace ∧ tree.head.kind ≠ .eof := by
  cases derives with
  | letStatement kind | returnStatement kind =>
      simp only [Derivation.head]
      rw [kind]
      exact ⟨nofun, nofun⟩
  | expressionStatement within => exact ⟨within.head_ne rfl, within.head_ne rfl⟩

theorem block_opens (derives : Derives .block tree input rest) :
    ∃ opening tail, input = opening :: tail ∧ opening.kind = .leftBrace := by
  cases derives with
  | block opens within => exact ⟨_, _, rfl, opens⟩

/-- An expression may stand for one of a lower level. -/
theorem mono (derives : Derives (.expression level) tree input rest) {lower : Nat}
    (below : lower ≤ level) : Derives (.expression lower) tree input rest := by
  have wider {own : Nat} (fits : level ≤ own) : lower ≤ own := Nat.le_trans below fits
  cases derives with
  | name fits kind => exact .name (wider fits) kind
  | integer fits kind run short => exact .integer (wider fits) kind run short
  | truth fits kind => exact .truth (wider fits) kind
  | group fits opens within closes => exact .group (wider fits) opens within closes
  | prefixed fits kind within => exact .prefixed (wider fits) kind within
  | binary fits kind first second => exact .binary (wider fits) kind first second
  | call fits target opens given => exact .call (wider fits) target opens given
  | ifThen fits kind opens test closes first alone =>
      exact .ifThen (wider fits) kind opens test closes first alone
  | ifElse fits kind opens test closes first parts second =>
      exact .ifElse (wider fits) kind opens test closes first parts second
  | function fits kind opens names within =>
      exact .function (wider fits) kind opens names within

theorem le_level (derives : Derives (.expression level) tree input rest) :
    level ≤ tree.level := by
  cases derives with
  | binary fits kind first second => simpa [Derivation.level, kind] using fits
  | prefixed fits kind within => exact fits
  | _ => assumption

end Derives

end ExprLang
