/-
# ExprLang.Proofs.Parser.Complete — what has a derivation is read

A derivation drives the parser: each rule reads the phrases of its kind, with the
tree of the derivation as its result (`Derives.read`). What is shown of each kind
is `Read`. For an expression it is not that the rule for expressions reads
it, because the left operand of an operator is read on the way; it is that
reading gets from the first token to the point where the expression stands
complete and the next operator is looked at (`unguarded` has then become `climb`).
From there the next operator decides: `climb_stops`, `climb_binary`, `climb_call`.

Levels of stack and the nesting limit are spent alike, one for each expression
and block entered, so one condition serves both (`Room`).
-/
import ExprLang.Proofs.Parser.Reads

namespace ExprLang

set_option autoImplicit false

open Parse

open Routine

section Climb

variable {inner : Nested} {floor depth : Nat} {diagnostics : List Diagnostic}
  {turns : List Token}

/-- An expression is complete when the next token binds no tighter than its floor. -/
theorem climb_stops (left : Node) (last : Token) {rest : List Token} (some_ : turns ≠ [])
    (follows : Follows floor rest) :
    climb .standard inner (.level floor) turns left (.over (last :: rest) depth diagnostics) =
      (.parsed left, .over (last :: rest) depth diagnostics) := by
  obtain ⟨next, tail, rfl, loose⟩ := follows
  cases turns with
  | nil => exact absurd rfl some_
  | cons turn turns =>
      rcases climb_cases floor turn turns left (.over (last :: next :: tail) depth diagnostics) with
        ⟨-, stopped⟩ | ⟨rule, tight, -, -⟩
      · exact stopped
      · exact absurd loose (Nat.not_le.2 tight)

/-- One turn takes in one continuation. -/
theorem climb_takes (left : Node) (last turn : Token) {operator : Token} {middle : List Token}
    {rule : Rule} {next : Node} {after : Parser} (noSemicolon : operator.kind ≠ .semicolon)
    (tight : floor < operator.kind.precedence)
    (continuation : Grammar.standard.continuation operator.kind = some rule)
    (taken : asContinuation inner left rule (.over (operator :: middle) depth diagnostics) =
      (.parsed next, after)) :
    climb .standard inner (.level floor) (turn :: turns) left
        (.over (last :: operator :: middle) depth diagnostics) =
      climb .standard inner (.level floor) turns next after := by
  rcases climb_cases floor turn turns left (.over (last :: operator :: middle) depth diagnostics)
    with ⟨semicolon | loose | absent, -⟩ | ⟨other, -, found, goes⟩
  · exact absurd semicolon noSemicolon
  · exact absurd loose (Nat.not_le.2 tight)
  · cases continuation.symm.trans absent
  · cases continuation.symm.trans found
    rw [goes]
    exact bind_of_parsed taken _

theorem climb_binary (left : Node) (last turn : Token) {operator : Token}
    {middle rest : List Token} {right : Node} {own : Nat}
    (kind : operator.kind.binaryLevel? = some own) (tight : floor < own) (some_ : middle ≠ [])
    (reads : Reads (inner.expression (.level own)) depth diagnostics middle right rest) :
    ∃ last', climb .standard inner (.level floor) (turn :: turns) left
        (.over (last :: operator :: middle) depth diagnostics) =
      climb .standard inner (.level floor) turns
        (.binary operator.line left operator.literal right)
        (.over (last' :: rest) depth diagnostics) := by
  obtain ⟨precedence, continuation, noSemicolon⟩ := TokenKind.of_binaryLevel? kind
  obtain ⟨first, others, rfl⟩ := List.exists_cons_of_ne_nil some_
  have taken : Reads (Routine.binary inner left) depth diagnostics (operator :: first :: others)
      (.binary operator.line left operator.literal right) rest := by
    refine .current (.advance (.bind ?_ fun last => .done _ last rest))
    rwa [precedence]
  obtain ⟨last', ended⟩ := taken
  exact ⟨last', climb_takes left last turn noSemicolon (precedence ▸ tight) continuation ended⟩

theorem climb_call (left : Node) (last turn : Token) {opening : Token}
    {middle rest : List Token} {given : List Node} (opens : opening.kind = .leftParen)
    (tight : floor < Precedence.call)
    (reads : Reads (Routine.arguments inner) depth diagnostics (opening :: middle) given rest) :
    ∃ last', climb .standard inner (.level floor) (turn :: turns) left
        (.over (last :: opening :: middle) depth diagnostics) =
      climb .standard inner (.level floor) turns (.call opening.line left given)
        (.over (last' :: rest) depth diagnostics) := by
  have taken : Reads (Routine.call inner left) depth diagnostics (opening :: middle)
      (.call opening.line left given) rest :=
    .current (.bind reads fun last => .done _ last rest)
  have continuation : Grammar.standard.continuation opening.kind = some .call := by
    rw [opens]
    rfl
  have noSemicolon : opening.kind ≠ .semicolon := by
    rw [opens]
    nofun
  have above : floor < opening.kind.precedence := by
    rw [opens]
    exact tight
  obtain ⟨last', ended⟩ := taken
  exact ⟨last', climb_takes left last turn noSemicolon above continuation ended⟩

end Climb

/-! ## What is shown of each kind of phrase -/

/-- The rule for expressions, from where the stack has so many levels, gets to the
point where an expression stands complete. -/
def Reaches (limit : Int) (level : Nat) (tree : Derivation) (input rest : List Token) : Prop :=
  ∀ levels depth floor diagnostics, Room limit levels depth tree.nesting →
    floor ≤ Precedence.unary → floor < level ∨ Precedence.unary ≤ level →
    Follows tree.level rest →
    ∃ last turns, rest.length < turns.length ∧
      unguarded limit (nestedRoutines .standard limit levels) floor
          (.over input depth diagnostics) =
        climb .standard (nestedRoutines .standard limit levels) (.level floor) turns tree.node
          (.over (last :: rest) depth diagnostics)

/-- What a derivation of a phrase makes the parser do. -/
def Read (limit : Int) : Phrase → Derivation → List Token → List Token → Prop
  | .expression level, tree, input, rest => Reaches limit level tree input rest
  | .arguments, tree, input, rest =>
      ∀ levels depth diagnostics opening, Room limit levels depth tree.nesting →
        Reads (Routine.arguments (nestedRoutines .standard limit levels)) depth diagnostics
          (opening :: input) tree.nodes rest
  | .argumentList, tree, input, rest =>
      ∀ levels depth diagnostics before found turns, Room limit levels depth tree.nesting →
        input.length ≤ turns.length →
        Reads
          (do
            advance
            let given ← (nestedRoutines .standard limit levels).expression .lowest
            moreArguments (nestedRoutines .standard limit levels) turns (given :: found))
          depth diagnostics (before :: input) (found.reverse ++ tree.nodes) rest
  | .parameters, tree, input, rest =>
      ∀ depth diagnostics opening,
        Reads Routine.parameters depth diagnostics (opening :: input) tree.names rest
  | .parameterList, tree, input, rest =>
      ∀ depth diagnostics before found turns, input.length ≤ turns.length →
        Reads
          (do
            let name ← Routine.parameter
            moreParameters turns (name :: found))
          depth diagnostics (before :: input) (found.reverse ++ tree.names) rest
  | .block, tree, input, rest =>
      ∀ levels depth diagnostics, Room limit levels depth tree.nesting →
        Reads (nestedRoutines .standard limit levels).block depth diagnostics input tree.node rest
  | .statement, tree, input, rest =>
      ∀ levels depth diagnostics, Room limit levels depth tree.nesting →
        Reads (Routine.statement (nestedRoutines .standard limit levels)) depth diagnostics input
          tree.node rest
  | .statements closer, tree, input, rest =>
      ∀ levels depth diagnostics found turns, Room limit levels depth tree.nesting →
        input.length ≤ turns.length →
        (closer = .rightBrace →
          Reads (blockBody (nestedRoutines .standard limit levels) turns found) depth diagnostics
            input (found.reverse ++ tree.nodes) rest) ∧
        (closer = .eof →
          Reads (programBody limit (nestedRoutines .standard limit levels) turns found) depth
            diagnostics input (found.reverse ++ tree.nodes) rest)

variable {limit : Int}

/-- An expression that stands complete is what the rule for expressions reads. -/
theorem Reaches.reads {level : Nat} {tree : Derivation} {input rest : List Token}
    (reaches : Reaches limit level tree input rest) {levels depth floor : Nat}
    (room : Room limit levels depth (tree.nesting + 1)) (fits : level ≤ tree.level)
    (bounded : floor ≤ Precedence.unary) (above : floor < level ∨ Precedence.unary ≤ level)
    (follows : Follows floor rest) (diagnostics : List Diagnostic) :
    Reads ((nestedRoutines .standard limit levels).expression (.level floor)) depth diagnostics
      input tree.node rest := by
  obtain ⟨fewer, rfl, below, inside⟩ := room.enter
  refine .nested below ?_
  have under : floor ≤ tree.level := by omega
  obtain ⟨last, turns, more, reached⟩ := reaches fewer (depth + 1) floor diagnostics inside bounded
    above (follows.mono under)
  have some_ : turns ≠ [] := by
    rintro rfl
    simp at more
  exact ⟨last, reached.trans (climb_stops tree.node last some_ follows)⟩

/-- The common case: an expression of any level before a token that ends it. -/
theorem Reaches.reads_lowest {tree : Derivation} {input rest : List Token}
    (reaches : Reaches limit Precedence.equality tree input rest)
    (derives : Derives (.expression Precedence.equality) tree input rest) {levels depth : Nat}
    (room : Room limit levels depth (tree.nesting + 1))
    (follows : Follows Precedence.lowest rest) (diagnostics : List Diagnostic) :
    Reads ((nestedRoutines .standard limit levels).expression .lowest) depth diagnostics
      input tree.node rest :=
  reaches.reads room derives.le_level (by decide) (.inl (by decide)) follows diagnostics

/-- An operand that is read is an expression that stands complete. -/
theorem reaches_of_operand {level : Nat} {tree : Derivation} {input rest : List Token}
    (reads : ∀ levels depth diagnostics, Room limit levels depth tree.nesting →
      Follows tree.level rest →
      Reads (operand .standard limit (nestedRoutines .standard limit levels)) depth diagnostics
        input tree.node rest) : Reaches limit level tree input rest := by
  intro levels depth floor diagnostics room _ _ follows
  obtain ⟨last, ended⟩ := reads levels depth diagnostics room follows
  exact ⟨last, last :: rest, by simp, bind_of_parsed ended _⟩

theorem reads_operand {inner : Nested} {token : Token} {tokens : List Token} {depth : Nat}
    {diagnostics : List Diagnostic} {rule : Rule} {result : Node} {rest : List Token}
    (found : Grammar.standard.operand token.kind = some rule)
    (reads : Reads (asOperand limit inner rule) depth diagnostics (token :: tokens) result rest) :
    Reads (operand .standard limit inner) depth diagnostics (token :: tokens) result rest := by
  obtain ⟨last, ended⟩ := reads
  refine ⟨last, (Routine.operand_of_rule ?_).trans ended⟩
  exact found

/-! ## Operands -/

section Operands

variable {level : Nat} {tree : Derivation} {input rest : List Token}

theorem reaches_name {token : Token} (kind : token.kind = .identifier) :
    Reaches limit level (.name token) (token :: rest) rest := by
  have found : Grammar.standard.operand token.kind = some .identifier := by
    rw [kind]
    rfl
  exact reaches_of_operand fun _ _ _ _ _ => reads_operand found (.current (.done _ token rest))

theorem reaches_integer {token : Token} (kind : token.kind = .int)
    (run : Decimal.Run token.literal) (short : token.literal.length ≤ Decimal.digitLimit) :
    Reaches limit level (.integer token) (token :: rest) rest := by
  have found : Grammar.standard.operand token.kind = some .integer := by
    rw [kind]
    rfl
  refine reaches_of_operand fun _ _ _ _ _ => reads_operand found (.current ?_)
  rw [Decimal.read?_of_run run, if_pos short]
  exact .done _ token rest

theorem reaches_truth {token : Token}
    (kind : token.kind = .trueKeyword ∨ token.kind = .falseKeyword) :
    Reaches limit level (.truth token) (token :: rest) rest := by
  have found : Grammar.standard.operand token.kind = some .boolean := by
    rcases kind with kind | kind <;> rw [kind] <;> rfl
  exact reaches_of_operand fun _ _ _ _ _ => reads_operand found (.current (.done _ token rest))

theorem reaches_group {opening closing : Token} (opens : opening.kind = .leftParen)
    (within : Derives (.expression Precedence.equality) tree input (closing :: rest))
    (closes : closing.kind = .rightParen)
    (reaches : Reaches limit Precedence.equality tree input (closing :: rest)) :
    Reaches limit level (.group opening tree closing) (opening :: input) rest := by
  have found : Grammar.standard.operand opening.kind = some .group := by
    rw [opens]
    rfl
  refine reaches_of_operand fun levels depth diagnostics room _ => reads_operand found ?_
  have inside := reaches.reads_lowest within room (follows_closing closes rfl rest) diagnostics
  obtain ⟨tail, rfl⟩ := within.input_eq
  exact .advance (.bind inside fun last => .expect closes (.done _ closing rest))

theorem reaches_prefixed {operator : Token}
    (kind : operator.kind = .bang ∨ operator.kind = .minus)
    (within : Derives (.expression Precedence.unary) tree input rest)
    (reaches : Reaches limit Precedence.unary tree input rest) :
    Reaches limit level (.prefixed operator tree) (operator :: input) rest := by
  have found : Grammar.standard.operand operator.kind = some .prefixed := by
    rcases kind with kind | kind <;> rw [kind] <;> rfl
  refine reaches_of_operand fun levels depth diagnostics room follows => reads_operand found ?_
  have inside := reaches.reads room within.le_level (Nat.le_refl _) (.inr (Nat.le_refl _)) follows
    diagnostics
  obtain ⟨tail, rfl⟩ := within.input_eq
  exact .current (.advance (.bind inside fun last => .done _ last rest))

/-- Both forms of conditional start alike: up to the first block. -/
theorem reads_conditional {inner : Nested} {depth : Nat} {diagnostics : List Diagnostic}
    {keyword opening closing : Token} {condition consequence node : Node} {block : Derivation}
    {middle after : List Token} (opens : opening.kind = .leftParen)
    (test : Reads (inner.expression .lowest) depth diagnostics input condition
      (closing :: middle)) (nonempty : ∃ first tail, input = first :: tail)
    (closes : closing.kind = .rightParen) (derives : Derives .block block middle after)
    (first : Reads inner.block depth diagnostics middle consequence after)
    (later : ∀ last, Reads (alternative inner keyword.line condition consequence) depth
      diagnostics (last :: after) node rest) :
    Reads (conditional inner) depth diagnostics (keyword :: opening :: input) node rest := by
  obtain ⟨token, tail, rfl⟩ := nonempty
  obtain ⟨brace, body, rfl, braced⟩ := derives.block_opens
  exact .current (.expect opens (.advance (.bind test fun _ =>
    .expect closes (.expect braced (.bind first later)))))

theorem reaches_ifThen {keyword opening closing next : Token} {condition consequence : Derivation}
    {middle : List Token} (kind : keyword.kind = .ifKeyword) (opens : opening.kind = .leftParen)
    (test : Derives (.expression Precedence.equality) condition input (closing :: middle))
    (closes : closing.kind = .rightParen)
    (first : Derives .block consequence middle (next :: rest))
    (alone : next.kind ≠ .elseKeyword)
    (reaches : Reaches limit Precedence.equality condition input (closing :: middle))
    (read : Read limit .block consequence middle (next :: rest)) :
    Reaches limit level (.ifThen keyword opening condition closing consequence)
      (keyword :: opening :: input) (next :: rest) := by
  have found : Grammar.standard.operand keyword.kind = some .conditional := by
    rw [kind]
    rfl
  refine reaches_of_operand fun levels depth diagnostics room _ => reads_operand found ?_
  have condition := reaches.reads_lowest test (room.mono (Nat.le_max_left _ _))
    (follows_closing closes rfl middle) diagnostics
  have consequence := read levels depth diagnostics (room.mono (Nat.le_max_right _ _))
  exact reads_conditional opens condition ⟨_, test.input_eq⟩ closes first consequence
    fun last => ⟨last, if_neg alone⟩

theorem reads_alternative {inner : Nested} {depth : Nat} {diagnostics : List Diagnostic}
    {otherwise : Token} {line : Int} {condition consequence other : Node} {block : Derivation}
    {later : List Token} (parts : otherwise.kind = .elseKeyword)
    (derives : Derives .block block later rest)
    (reads : Reads inner.block depth diagnostics later other rest) (last : Token) :
    Reads (alternative inner line condition consequence) depth diagnostics
      (last :: otherwise :: later) (.ifElse line condition consequence other) rest := by
  obtain ⟨brace, body, rfl, braced⟩ := derives.block_opens
  exact .chosen parts (.advance (.expect braced (.bind reads fun last => .done _ last rest)))

theorem reaches_ifElse {keyword opening closing otherwise : Token}
    {condition consequence alternative : Derivation} {middle later : List Token}
    (kind : keyword.kind = .ifKeyword) (opens : opening.kind = .leftParen)
    (test : Derives (.expression Precedence.equality) condition input (closing :: middle))
    (closes : closing.kind = .rightParen)
    (first : Derives .block consequence middle (otherwise :: later))
    (parts : otherwise.kind = .elseKeyword) (second : Derives .block alternative later rest)
    (reaches : Reaches limit Precedence.equality condition input (closing :: middle))
    (read : Read limit .block consequence middle (otherwise :: later))
    (read' : Read limit .block alternative later rest) :
    Reaches limit level
      (.ifElse keyword opening condition closing consequence otherwise alternative)
      (keyword :: opening :: input) rest := by
  have found : Grammar.standard.operand keyword.kind = some .conditional := by
    rw [kind]
    rfl
  refine reaches_of_operand fun levels depth diagnostics room _ => reads_operand found ?_
  have blocks := room.mono (Nat.le_max_right _ _)
  have condition := reaches.reads_lowest test (room.mono (Nat.le_max_left _ _))
    (follows_closing closes rfl middle) diagnostics
  have consequence := read levels depth diagnostics (blocks.mono (Nat.le_max_left _ _))
  have alternative := read' levels depth diagnostics (blocks.mono (Nat.le_max_right _ _))
  exact reads_conditional opens condition ⟨_, test.input_eq⟩ closes first consequence
    (reads_alternative parts second alternative)

theorem reaches_function {keyword opening : Token} {parameters body : Derivation}
    {middle : List Token} (kind : keyword.kind = .functionKeyword)
    (opens : opening.kind = .leftParen) (within : Derives .block body middle rest)
    (names : Read limit .parameters parameters input middle)
    (read : Read limit .block body middle rest) :
    Reaches limit level (.function keyword opening parameters body)
      (keyword :: opening :: input) rest := by
  have found : Grammar.standard.operand keyword.kind = some .function := by
    rw [kind]
    rfl
  refine reaches_of_operand fun levels depth diagnostics room _ => reads_operand found ?_
  obtain ⟨brace, tail, rfl, braced⟩ := within.block_opens
  exact .current (.expect opens (.bind (names depth diagnostics opening) fun _ =>
    .expect braced (.bind (read levels depth diagnostics room) fun last => .done _ last rest)))

end Operands

/-! ## Operators and calls -/

section Continuations

variable {level : Nat} {left right : Derivation} {input middle rest : List Token}

theorem reaches_binary {own : Nat} {operator : Token} (fits : level ≤ own)
    (kind : operator.kind.binaryLevel? = some own)
    (first : Derives (.expression own) left input (operator :: middle))
    (second : Derives (.expression (own + 1)) right middle rest)
    (reaches : Reaches limit own left input (operator :: middle))
    (reaches' : Reaches limit (own + 1) right middle rest) :
    Reaches limit level (.binary left operator right) input rest := by
  intro levels depth floor diagnostics room bounded above follows
  obtain ⟨-, below⟩ := TokenKind.binaryLevel?_bounds kind
  obtain ⟨precedence, -, -⟩ := TokenKind.of_binaryLevel? kind
  have same : (Derivation.binary left operator right).level = own := by
    simp [Derivation.level, kind]
  rw [same] at follows
  have tight : floor < own := by omega
  have before : Follows left.level (operator :: middle) :=
    ⟨operator, middle, rfl, precedence ▸ first.le_level⟩
  have operand := reaches'.reads (room.mono (Nat.le_max_right _ _)) second.le_level
    (Nat.le_of_lt below) (.inl (Nat.lt_succ_self own)) follows diagnostics
  have shorter := second.length_lt
  obtain ⟨last, turns, more, reached⟩ := reaches levels depth floor diagnostics
    (room.mono (Nat.le_max_left _ _)) bounded (.inl tight) before
  cases turns with
  | nil => simp at more
  | cons turn turns =>
      obtain ⟨last', climbed⟩ := climb_binary left.node last turn kind tight
        (List.ne_nil_of_length_pos (by omega)) operand
      refine ⟨last', turns, ?_, reached.trans climbed⟩
      simp only [List.length_cons] at more
      omega

theorem reaches_call {callee arguments : Derivation} {opening : Token}
    (target : Derives (.expression Precedence.call) callee input (opening :: middle))
    (opens : opening.kind = .leftParen) (given : Derives .arguments arguments middle rest)
    (reaches : Reaches limit Precedence.call callee input (opening :: middle))
    (read : Read limit .arguments arguments middle rest) :
    Reaches limit level (.call callee opening arguments) input rest := by
  intro levels depth floor diagnostics room bounded _ _
  have tight : floor < Precedence.call := Nat.lt_succ_of_le bounded
  have before : Follows callee.level (opening :: middle) :=
    ⟨opening, middle, rfl, opens ▸ target.le_level⟩
  have shorter := given.length_lt
  have arguments := read levels depth diagnostics opening (room.mono (Nat.le_max_right _ _))
  obtain ⟨last, turns, more, reached⟩ := reaches levels depth floor diagnostics
    (room.mono (Nat.le_max_left _ _)) bounded (.inl tight) before
  cases turns with
  | nil => simp at more
  | cons turn turns =>
      obtain ⟨last', climbed⟩ := climb_call callee.node last turn opens tight arguments
      refine ⟨last', turns, ?_, reached.trans climbed⟩
      simp only [List.length_cons] at more
      omega

end Continuations

/-! ## Arguments and parameters -/

section Lists

variable {tree more : Derivation} {input middle rest : List Token}

theorem reads_closing {α : Type} {depth : Nat} {diagnostics : List Diagnostic} {closing : Token}
    (closes : closing.kind = .rightParen) (result : α) (last : Token) :
    Reads (do
      expect .rightParen
      return result) depth diagnostics (last :: closing :: rest) result rest :=
  .expect closes (.done _ closing rest)

/-- The closing parenthesis ends the arguments, whatever turns are left. -/
theorem reads_moreArguments_closing {inner : Nested} {depth : Nat}
    {diagnostics : List Diagnostic} {closing : Token} (closes : closing.kind = .rightParen)
    (turns : List Token) (found : List Node) (last : Token) :
    Reads (moreArguments inner turns found) depth diagnostics (last :: closing :: rest)
      found.reverse rest := by
  have noComma : closing.kind ≠ .comma := by
    rw [closes]
    decide
  cases turns with
  | nil => exact reads_closing closes found.reverse last
  | cons turn turns => exact .otherwise noComma (reads_closing closes found.reverse last)

theorem read_lastArgument {closing : Token}
    (within : Derives (.expression Precedence.equality) tree input (closing :: rest))
    (closes : closing.kind = .rightParen)
    (reaches : Reaches limit Precedence.equality tree input (closing :: rest)) :
    Read limit .argumentList (.lastArgument tree closing) input rest := by
  intro levels depth diagnostics before found turns room _
  have given := reaches.reads_lowest within room (follows_closing closes rfl rest) diagnostics
  have result : found.reverse ++ (Derivation.lastArgument tree closing).nodes =
      (tree.node :: found).reverse := by
    simp [Derivation.nodes]
  rw [result]
  obtain ⟨tail, rfl⟩ := within.input_eq
  exact .advance (.bind given (reads_moreArguments_closing closes turns _))

theorem read_argument {comma : Token}
    (within : Derives (.expression Precedence.equality) tree input (comma :: middle))
    (separates : comma.kind = .comma) (later : Derives .argumentList more middle rest)
    (reaches : Reaches limit Precedence.equality tree input (comma :: middle))
    (read : Read limit .argumentList more middle rest) :
    Read limit .argumentList (.argument tree comma more) input rest := by
  intro levels depth diagnostics before found turns room enough
  have shorter := within.length_lt
  have given := reaches.reads_lowest within (room.mono (Nat.le_max_left _ _))
    (follows_closing separates rfl middle) diagnostics
  cases turns with
  | nil => simp_all
  | cons turn turns =>
      have others := read levels depth diagnostics comma (tree.node :: found) turns
        (room.mono (Nat.le_max_right _ _)) (by simp at enough shorter; omega)
      have result : found.reverse ++ (Derivation.argument tree comma more).nodes =
          (tree.node :: found).reverse ++ more.nodes := by
        simp [Derivation.nodes]
      rw [result]
      obtain ⟨tail, rfl⟩ := within.input_eq
      obtain ⟨tail', rfl⟩ := later.input_eq
      exact .advance (.bind given fun last => .chosen separates others)

theorem read_arguments (derives : Derives .argumentList tree input rest)
    (read : Read limit .argumentList tree input rest) : Read limit .arguments tree input rest := by
  intro levels depth diagnostics opening room
  obtain ⟨last, ended⟩ := read levels depth diagnostics opening [] (opening :: input) room
    (Nat.le_succ _)
  obtain ⟨tail, rfl⟩ := derives.input_eq
  have noClosing : tree.head.kind ≠ .rightParen := by
    cases derives with
    | lastArgument within _ => exact within.head_ne rfl
    | argument within _ _ => exact within.head_ne rfl
  exact ⟨last, (if_neg noClosing).trans ended⟩

theorem reads_moreParameters_closing {depth : Nat} {diagnostics : List Diagnostic}
    {closing : Token} (closes : closing.kind = .rightParen) (turns : List Token)
    (found : List Name) (last : Token) :
    Reads (moreParameters turns found) depth diagnostics (last :: closing :: rest)
      found.reverse rest := by
  have noComma : closing.kind ≠ .comma := by
    rw [closes]
    decide
  cases turns with
  | nil => exact reads_closing closes found.reverse last
  | cons turn turns => exact .otherwise noComma (reads_closing closes found.reverse last)

theorem reads_parameter {depth : Nat} {diagnostics : List Diagnostic} {name : Token}
    (kind : name.kind = .identifier) (before : Token) :
    Reads Routine.parameter depth diagnostics (before :: name :: rest) ⟨name.literal, name.line⟩
      rest :=
  .expect kind (.current (.done _ name rest))

theorem read_lastParameter {name closing : Token} (kind : name.kind = .identifier)
    (closes : closing.kind = .rightParen) :
    Read limit .parameterList (.lastParameter name closing) (name :: closing :: rest) rest := by
  intro depth diagnostics before found turns _
  have result : found.reverse ++ (Derivation.lastParameter name closing).names =
      (⟨name.literal, name.line⟩ :: found).reverse := by
    simp [Derivation.names]
  rw [result]
  exact .bind (reads_parameter kind before) (reads_moreParameters_closing closes turns _)

theorem read_parameter {name comma : Token} (kind : name.kind = .identifier)
    (separates : comma.kind = .comma) (read : Read limit .parameterList more middle rest) :
    Read limit .parameterList (.parameter name comma more) (name :: comma :: middle) rest := by
  intro depth diagnostics before found turns enough
  cases turns with
  | nil => simp at enough
  | cons turn turns =>
      have others := read depth diagnostics comma (⟨name.literal, name.line⟩ :: found) turns
        (by simp at enough; omega)
      have result : found.reverse ++ (Derivation.parameter name comma more).names =
          (⟨name.literal, name.line⟩ :: found).reverse ++ more.names := by
        simp [Derivation.names]
      rw [result]
      exact .bind (reads_parameter kind before) fun last => .chosen separates others

theorem read_parameters (derives : Derives .parameterList tree input rest)
    (read : Read limit .parameterList tree input rest) :
    Read limit .parameters tree input rest := by
  intro depth diagnostics opening
  obtain ⟨last, ended⟩ := read depth diagnostics opening [] (opening :: input) (Nat.le_succ _)
  obtain ⟨tail, rfl⟩ := derives.input_eq
  have noClosing : tree.head.kind ≠ .rightParen := by
    cases derives with
    | lastParameter kind _ | parameter kind _ _ =>
        simp only [Derivation.head]
        rw [kind]
        decide
  exact ⟨last, (if_neg noClosing).trans ended⟩

end Lists

/-! ## Statements and blocks -/

section Statements

variable {tree value : Derivation} {ending : Option Token} {input after rest : List Token}

theorem read_letStatement {keyword name assign : Token} (kind : keyword.kind = .letKeyword)
    (named : name.kind = .identifier) (assigns : assign.kind = .assign)
    (within : Derives (.expression Precedence.equality) value input after)
    (ends : Ends ending after rest)
    (reaches : Reaches limit Precedence.equality value input after) :
    Read limit .statement (.letStatement keyword name assign value ending)
      (keyword :: name :: assign :: input) rest := by
  intro levels depth diagnostics room
  have body := (reaches.reads_lowest within room ends.follows diagnostics).terminated ends
  obtain ⟨tail, rfl⟩ := within.input_eq
  have reads : Reads (letStatement (nestedRoutines .standard limit levels)) depth diagnostics
      (keyword :: name :: assign :: value.head :: tail)
      (.letStatement keyword.line ⟨name.literal, name.line⟩ value.node) rest :=
    .current (.expect named (.current (.expect assigns (.advance
      (.bind body fun last => .done _ last rest)))))
  obtain ⟨last, ended⟩ := reads
  refine ⟨last, (statement_of_let ?_).trans ended⟩
  exact kind

theorem read_returnStatement {keyword : Token} (kind : keyword.kind = .returnKeyword)
    (within : Derives (.expression Precedence.equality) value input after)
    (ends : Ends ending after rest)
    (reaches : Reaches limit Precedence.equality value input after) :
    Read limit .statement (.returnStatement keyword value ending) (keyword :: input) rest := by
  intro levels depth diagnostics room
  have body := (reaches.reads_lowest within room ends.follows diagnostics).terminated ends
  obtain ⟨tail, rfl⟩ := within.input_eq
  have reads : Reads (returnStatement (nestedRoutines .standard limit levels)) depth diagnostics
      (keyword :: value.head :: tail) (.returnStatement keyword.line value.node) rest :=
    .current (.advance (.bind body fun last => .done _ last rest))
  obtain ⟨last, ended⟩ := reads
  refine ⟨last, (statement_of_return ?_).trans ended⟩
  exact kind

theorem read_expressionStatement
    (within : Derives (.expression Precedence.equality) value input after)
    (ends : Ends ending after rest)
    (reaches : Reaches limit Precedence.equality value input after) :
    Read limit .statement (.expressionStatement value ending) input rest := by
  intro levels depth diagnostics room
  have body := (reaches.reads_lowest within room ends.follows diagnostics).terminated ends
  obtain ⟨tail, rfl⟩ := within.input_eq
  have reads : Reads (expressionStatement (nestedRoutines .standard limit levels)) depth
      diagnostics (value.head :: tail) (.expressionStatement value.head.line value.node) rest :=
    .current (.bind body fun last => .done _ last rest)
  obtain ⟨last, ended⟩ := reads
  refine ⟨last, (statement_of_other ?_ ?_).trans ended⟩
  · exact within.head_ne rfl
  · exact within.head_ne rfl

theorem read_block {opening : Token} {body : Derivation}
    (within : Derives (.statements .rightBrace) body input rest)
    (read : Read limit (.statements .rightBrace) body input rest) :
    Read limit .block (.block opening body) (opening :: input) rest := by
  intro levels depth diagnostics room
  obtain ⟨fewer, rfl, below, inside⟩ := room.enter
  obtain ⟨reads, -⟩ := read fewer (depth + 1) diagnostics [] input inside (Nat.le_refl _)
  obtain ⟨tail, rfl⟩ := within.input_eq
  exact .nested below (.current (.advance (.bind (reads rfl) fun last => .done _ last rest)))

theorem read_closed {closer : TokenKind} {closing : Token} (closes : closing.kind = closer) :
    Read limit (.statements closer) (.closed closing) (closing :: rest) rest := by
  intro levels depth diagnostics found turns _ enough
  have result : found.reverse ++ (Derivation.closed closing).nodes = found.reverse := by
    simp [Derivation.nodes]
  rw [result]
  cases turns with
  | nil => simp at enough
  | cons turn turns =>
      refine ⟨?_, ?_⟩
      · rintro rfl
        exact ⟨closing, if_pos closes⟩
      · rintro rfl
        exact ⟨closing, if_pos closes⟩

theorem read_followed {closer : TokenKind} {first others : Derivation} {middle : List Token}
    (here : Derives .statement first input middle)
    (later : Derives (.statements closer) others middle rest)
    (read : Read limit .statement first input middle)
    (read' : Read limit (.statements closer) others middle rest) :
    Read limit (.statements closer) (.followed first others) input rest := by
  intro levels depth diagnostics found turns room enough
  have shorter := here.length_lt
  obtain ⟨noBrace, noEnd⟩ := here.statement_head
  obtain ⟨last, ended⟩ := read levels depth diagnostics (room.mono (Nat.le_max_left _ _))
  have result : found.reverse ++ (Derivation.followed first others).nodes =
      (first.node :: found).reverse ++ others.nodes := by
    simp [Derivation.nodes]
  rw [result]
  obtain ⟨tail, rfl⟩ := here.input_eq
  obtain ⟨tail', rfl⟩ := later.input_eq
  cases turns with
  | nil => simp at enough
  | cons turn turns =>
      obtain ⟨inBlock, inProgram⟩ := read' levels depth diagnostics (first.node :: found) turns
        (room.mono (Nat.le_max_right _ _)) (by simp at enough shorter; simp; omega)
      refine ⟨fun closes => ?_, fun closes => ?_⟩
      · obtain ⟨last', rest'⟩ := inBlock closes
        refine ⟨last', ?_⟩
        unfold blockBody
        rw [← rest', ended]
        exact (if_neg noBrace).trans (if_neg noEnd)
      · obtain ⟨last', rest'⟩ := inProgram closes
        refine ⟨last', ?_⟩
        unfold programBody
        rw [← rest', ended]
        exact if_neg noEnd

end Statements

/-- A derivation makes the parser read its phrase. -/
theorem Derives.read (limit : Int) {phrase : Phrase} {tree : Derivation}
    {input rest : List Token} (derives : Derives phrase tree input rest) :
    Read limit phrase tree input rest := by
  induction derives with
  | name _ kind => exact reaches_name kind
  | integer _ kind run short => exact reaches_integer kind run short
  | truth _ kind => exact reaches_truth kind
  | group _ opens within closes ih => exact reaches_group opens within closes ih
  | prefixed _ kind within ih => exact reaches_prefixed kind within ih
  | binary fits kind first second ih ih' => exact reaches_binary fits kind first second ih ih'
  | call _ target opens given ih ih' => exact reaches_call target opens given ih ih'
  | ifThen _ kind opens test closes first alone ih ih' =>
      exact reaches_ifThen kind opens test closes first alone ih ih'
  | ifElse _ kind opens test closes first parts second ih ih' ih'' =>
      exact reaches_ifElse kind opens test closes first parts second ih ih' ih''
  | function _ kind opens _ within ih ih' => exact reaches_function kind opens within ih ih'
  | noArguments closes =>
      intro _ _ _ _ _
      exact ⟨_, if_pos closes⟩
  | someArguments list ih => exact read_arguments list ih
  | lastArgument within closes ih => exact read_lastArgument within closes ih
  | argument within separates later ih ih' => exact read_argument within separates later ih ih'
  | noParameters closes =>
      intro _ _ _
      exact ⟨_, if_pos closes⟩
  | someParameters list ih => exact read_parameters list ih
  | lastParameter kind closes => exact read_lastParameter kind closes
  | parameter kind separates _ ih => exact read_parameter kind separates ih
  | letStatement kind named assigns within ends ih =>
      exact read_letStatement kind named assigns within ends ih
  | returnStatement kind within ends ih => exact read_returnStatement kind within ends ih
  | expressionStatement within ends ih => exact read_expressionStatement within ends ih
  | block _ within ih => exact read_block within ih
  | closed closes => exact read_closed closes
  | followed here later ih ih' => exact read_followed here later ih ih'

/-- A program with a derivation that there is room for is parsed to its tree. -/
theorem Derives.parseProgram_eq {limit : Int} {levels : Nat} {tree : Derivation}
    {tokens : List Token} (derives : Derives (.statements .eof) tree tokens [])
    (room : Room limit levels 0 tree.nesting) :
    ∃ after, parseProgram .standard limit levels (Parser.ofTokens tokens) =
      (.parsed (.program tree.nodes), after) ∧ after.diagnostics = [] := by
  obtain ⟨-, reads⟩ := derives.read limit levels 0 [] [] tokens room (Nat.le_refl _)
  obtain ⟨last, ended⟩ := reads rfl
  obtain ⟨tail, rfl⟩ := derives.input_eq
  exact ⟨_, bind_of_parsed ended _, rfl⟩

end ExprLang
