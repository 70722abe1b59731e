/-
# ExprLang.Proofs.Session.Arithmetic — arithmetic comes to what it says

An expression of numbers, signs and the four operations means an integer, or it
divides by zero somewhere. That is said of its tree alone (`Arithmetic.Yields`), in
exact arithmetic, where a quotient is cut off toward zero. The tree is written down
with parentheses wherever precedence and grouping to the left ask for them, and
wherever else one likes, in any layout (`Arithmetic.Writes`).

A run of the text comes to what the tree means (`Session.run_arithmetic`). On the
way the text is cut into tokens that derive the tree (`Writes.parses`), the parser
finds the tree (`Writes.parseProgram`), and its evaluation goes through the operands
in order, up to the first division by zero (`Evaluator.within_arithmetic`).
-/
import ExprLang.Proofs.Eval.Lines
import ExprLang.Proofs.Parser.Accepted
import ExprLang.Proofs.Parser.Lines
import ExprLang.Proofs.Session.Run
import ExprLang.Proofs.Token.Layout

namespace ExprLang

set_option autoImplicit false

/-! ## What arithmetic means -/

/-- The operations on two numbers. -/
inductive Operation where
  | sum
  | difference
  | product
  | quotient
  deriving DecidableEq, Repr

/-- Expressions of natural numbers. -/
inductive Arithmetic where
  | literal (number : Nat)
  | negate (operand : Arithmetic)
  | binary (left : Arithmetic) (operation : Operation) (right : Arithmetic)
  deriving DecidableEq, Repr

/-- What an expression means: a number, or nothing because this number would have to
be divided by zero. -/
inductive Quantity where
  | value (number : Int)
  | undefined (dividend : Int)
  deriving DecidableEq, Repr

/-- The quotient leaves a remainder that is smaller than the divisor and not of the
other sign than the dividend. -/
def Truncates (dividend divisor quotient : Int) : Prop :=
  (dividend - quotient * divisor).natAbs < divisor.natAbs ∧
    (dividend - quotient * divisor = 0 ∨ (dividend - quotient * divisor).sign = dividend.sign)

/-- What an operation gives for two numbers. -/
inductive Operation.Gives : Operation → Int → Int → Quantity → Prop where
  | sum (left right : Int) : Gives .sum left right (.value (left + right))
  | difference (left right : Int) : Gives .difference left right (.value (left - right))
  | product (left right : Int) : Gives .product left right (.value (left * right))
  | quotient {left right quotient : Int} (nonzero : right ≠ 0)
      (truncates : Truncates left right quotient) : Gives .quotient left right (.value quotient)
  | byZero (left : Int) : Gives .quotient left 0 (.undefined left)

/-- What an expression means: operands come before the operation and left comes before
right, so the first division by zero in this order decides. -/
inductive Arithmetic.Yields : Arithmetic → Quantity → Prop where
  | literal (number : Nat) : Yields (.literal number) (.value number)
  | negate {operand : Arithmetic} {number : Int} (inner : Yields operand (.value number)) :
      Yields (.negate operand) (.value (-number))
  | negateUndefined {operand : Arithmetic} {dividend : Int}
      (inner : Yields operand (.undefined dividend)) :
      Yields (.negate operand) (.undefined dividend)
  | leftUndefined {left right : Arithmetic} {operation : Operation} {dividend : Int}
      (first : Yields left (.undefined dividend)) :
      Yields (.binary left operation right) (.undefined dividend)
  | rightUndefined {left right : Arithmetic} {operation : Operation} {number dividend : Int}
      (first : Yields left (.value number)) (second : Yields right (.undefined dividend)) :
      Yields (.binary left operation right) (.undefined dividend)
  | binary {left right : Arithmetic} {operation : Operation} {number number' : Int}
      {result : Quantity} (first : Yields left (.value number))
      (second : Yields right (.value number')) (gives : operation.Gives number number' result) :
      Yields (.binary left operation right) result

theorem truncates_iff {dividend divisor quotient : Int} (nonzero : divisor ≠ 0) :
    Truncates dividend divisor quotient ↔ dividend.tdiv divisor = quotient := by
  constructor
  · rintro ⟨close, sign⟩
    have whole : dividend - quotient * divisor + divisor * quotient = dividend := by
      rw [Int.mul_comm divisor, Int.sub_add_cancel]
    rcases Int.le_total 0 dividend with natural | negative
    · have least : 0 ≤ dividend - quotient * divisor := by
        rcases sign with none | same
        · omega
        · rw [← Int.sign_nonneg_iff, same, Int.sign_nonneg_iff]
          exact natural
      exact ((Int.tdiv_tmod_unique natural nonzero).2 ⟨whole, least, by omega⟩).1
    · have most : dividend - quotient * divisor ≤ 0 := by
        rcases sign with none | same
        · omega
        · rw [← Int.sign_nonpos_iff, same, Int.sign_nonpos_iff]
          exact negative
      exact ((Int.tdiv_tmod_unique' negative nonzero).2 ⟨whole, by omega, most⟩).1
  · rintro rfl
    have left : dividend - dividend.tdiv divisor * divisor = dividend.tmod divisor := by
      rw [Int.mul_comm, ← Int.tmod_def]
    rw [Truncates, left, Int.natAbs_tmod, Int.sign_tmod]
    refine ⟨Nat.mod_lt _ (Int.natAbs_pos.2 nonzero), ?_⟩
    by_cases divides : divisor ∣ dividend
    · exact .inl (Int.tmod_eq_zero_of_dvd divides)
    · exact .inr (if_neg divides)

namespace Quantity

/-- Go on with a number. -/
def andThen : Quantity → (Int → Quantity) → Quantity
  | .value number, next => next number
  | .undefined dividend, _ => .undefined dividend

/-- The value that evaluation has for it: the number, or an error that names the
dividend, which has to be short enough for that. -/
def answer : Quantity → Except EvalFault Value
  | .value number => .ok (.integer number)
  | .undefined dividend =>
      if (toString dividend.natAbs).length ≤ Decimal.digitLimit then
        .ok (.error (.divisionByZero dividend))
      else .error .tooLong

theorem answer_undefined (dividend : Int) :
    (undefined dividend).answer = .ok (.error (.divisionByZero dividend)) ∨
      (undefined dividend).answer = .error .tooLong := by
  rw [answer]
  split
  · exact .inl rfl
  · exact .inr rfl

end Quantity

/-- What an operation gives, by computation. -/
def Operation.result : Operation → Int → Int → Quantity
  | .sum, left, right => .value (left + right)
  | .difference, left, right => .value (left - right)
  | .product, left, right => .value (left * right)
  | .quotient, left, right => if right = 0 then .undefined left else .value (left.tdiv right)

theorem Operation.gives_iff {operation : Operation} {left right : Int} {result : Quantity} :
    operation.Gives left right result ↔ result = operation.result left right := by
  constructor
  · rintro (_ | _ | _ | ⟨nonzero, truncates⟩ | _)
    · rfl
    · rfl
    · rfl
    · rw [Operation.result, if_neg nonzero, (truncates_iff nonzero).1 truncates]
    · rfl
  · rintro rfl
    cases operation with
    | sum => exact .sum left right
    | difference => exact .difference left right
    | product => exact .product left right
    | quotient =>
        rw [Operation.result]
        split
        · next zero => exact zero ▸ .byZero left
        · next nonzero => exact .quotient nonzero ((truncates_iff nonzero).2 rfl)

namespace Arithmetic

/-- What an expression means, by computation. -/
def result : Arithmetic → Quantity
  | .literal number => .value number
  | .negate operand => operand.result.andThen fun number => .value (-number)
  | .binary left operation right =>
      left.result.andThen fun number => right.result.andThen (operation.result number)

/-- Every expression means exactly one thing. -/
theorem yields_iff {tree : Arithmetic} {result : Quantity} :
    tree.Yields result ↔ result = tree.result := by
  constructor
  · intro yields
    induction yields with
    | literal number => rfl
    | negate _ ih | negateUndefined _ ih | leftUndefined _ ih =>
        rw [Arithmetic.result, ← ih]
        rfl
    | rightUndefined _ _ ih ih' =>
        rw [Arithmetic.result, ← ih, ← ih']
        rfl
    | binary _ _ gives ih ih' =>
        rw [Arithmetic.result, ← ih, ← ih']
        exact Operation.gives_iff.1 gives
  · rintro rfl
    induction tree with
    | literal number => exact .literal number
    | negate operand ih =>
        unfold Arithmetic.result
        cases meant : operand.result with
        | value number => exact .negate (meant ▸ ih)
        | undefined dividend => exact .negateUndefined (meant ▸ ih)
    | binary left operation right ih ih' =>
        unfold Arithmetic.result
        cases meant : left.result with
        | undefined dividend => exact .leftUndefined (meant ▸ ih)
        | value number =>
            cases meant' : right.result with
            | undefined dividend => exact .rightUndefined (meant ▸ ih) (meant' ▸ ih')
            | value number' =>
                exact .binary (meant ▸ ih) (meant' ▸ ih') (Operation.gives_iff.2 rfl)

end Arithmetic

/-! ## How it is written -/

namespace Operation

/-- The character of an operation. -/
def sign : Operation → Char
  | .sum => '+'
  | .difference => '-'
  | .product => '*'
  | .quotient => '/'

/-- The kind of its token. -/
def kind : Operation → TokenKind
  | .sum => .plus
  | .difference => .minus
  | .product => .product
  | .quotient => .divide

/-- How tightly it binds. -/
def level : Operation → Nat
  | .sum | .difference => Precedence.sum
  | .product | .quotient => Precedence.product

end Operation

namespace Arithmetic

/-- How many operations are inside each other, the number at the bottom included. -/
def height : Arithmetic → Nat
  | .literal _ => 1
  | .negate operand => operand.height + 1
  | .binary left _ right => max left.height right.height + 1

/-- A tree of at least a level, how deep it is nested in the way it is written, and its
text. Layout may stand after every token. A number is written with at most so many
digits as can be read, of any script; a sign takes in nothing that binds less; an
operation takes in what binds as tight on its left and what binds tighter on its right;
anything may stand in parentheses. -/
inductive Writes : Nat → Arithmetic → Nat → List Char → Prop where
  | literal {level : Nat} {text : String} {after : List Char} (run : Decimal.Run text)
      (short : text.length ≤ Decimal.digitLimit) (layout : Layout after) :
      Writes level (.literal (Decimal.numeral text)) 0 (text.toList ++ after)
  | negate {level nesting : Nat} {operand : Arithmetic} {gap text : List Char}
      (fits : level ≤ Precedence.unary) (layout : Layout gap)
      (inner : Writes Precedence.unary operand nesting text) :
      Writes level (.negate operand) (nesting + 1) ('-' :: (gap ++ text))
  | binary {level nesting nesting' : Nat} {left right : Arithmetic} {operation : Operation}
      {text gap text' : List Char} (fits : level ≤ operation.level)
      (first : Writes operation.level left nesting text) (layout : Layout gap)
      (second : Writes (operation.level + 1) right nesting' text') :
      Writes level (.binary left operation right) (max nesting (nesting' + 1))
        (text ++ operation.sign :: (gap ++ text'))
  | group {level nesting : Nat} {tree : Arithmetic} {gap text after : List Char}
      (layout : Layout gap) (inner : Writes Precedence.sum tree nesting text)
      (layout' : Layout after) :
      Writes level tree (nesting + 1) ('(' :: (gap ++ (text ++ ')' :: after)))

end Arithmetic

/-! ## How it is read -/

/-- The token of an operator or a delimiter, without a line. -/
def Token.mark (kind : TokenKind) : Token := (Token.sign kind).erase

/-- The tree of an expression, without lines. -/
def Arithmetic.node : Arithmetic → Node
  | .literal number => .integer 0 number
  | .negate operand => .prefixed 0 "-" operand.node
  | .binary left operation right =>
      .binary 0 left.node (Token.mark operation.kind).literal right.node

/-- Layout is passed over. -/
theorem Layout.erase_tokensFrom {text : List Char} (layout : Layout text) (rest : List Char) :
    (tokensFrom false (text ++ rest)).map Token.erase =
      (tokensFrom false rest).map Token.erase := by
  rw [layout.tokensFrom_append, List.map_map]
  rfl

namespace Operation

variable (operation : Operation)

theorem tokensFrom_sign (rest : List Char) :
    tokensFrom false (operation.sign :: rest) =
      .sign operation.kind :: tokensFrom false rest := by
  cases operation <;> exact tokensFrom_single false (by decide) rfl

theorem edge_sign (rest : List Char) : Edge (operation.sign :: rest) := by
  cases operation <;> simp [sign]

theorem binaryLevel?_kind : operation.kind.binaryLevel? = some operation.level := by
  cases operation <;> rfl

theorem level_lt : operation.level < Precedence.unary := by
  cases operation <;> decide

end Operation

namespace Arithmetic

/-- The text is cut into tokens, lines aside, that derive the tree, whatever follows. -/
structure Parses (level : Nat) (tree : Arithmetic) (nesting : Nat) (text : List Char)
    (derivation : Derivation) : Prop where
  cut : ∀ rest, Edge rest → (tokensFrom false (text ++ rest)).map Token.erase =
    derivation.tokens ++ (tokensFrom false rest).map Token.erase
  derives : ∀ rest, Derives (.expression level) derivation (derivation.tokens ++ rest) rest
  nesting : derivation.nesting = nesting
  node : derivation.node = tree.node

/-- What is written is read, one production for each way to write. -/
theorem Writes.parses {level nesting : Nat} {tree : Arithmetic} {text : List Char}
    (writes : Writes level tree nesting text) (known : level ≤ Precedence.call) :
    ∃ derivation, Parses level tree nesting text derivation := by
  induction writes with
  | @literal level text after run short layout =>
      refine ⟨.integer ⟨.int, text, 0⟩, fun rest edge => ?_, fun rest => ?_, rfl, rfl⟩
      · have edge' : Edge (after ++ rest) := by
          by_cases none : after = []
          · simpa [none] using edge
          · exact layout.edge_append none
        rw [List.append_assoc, tokensFrom_digits run edge', List.map_cons, layout.erase_tokensFrom]
        rfl
      · exact .integer known rfl run short
  | @negate level nesting operand gap text fits layout inner ih =>
      obtain ⟨derivation, inside⟩ := ih (by decide)
      refine ⟨.prefixed (.mark .minus) derivation, fun rest edge => ?_, fun rest => ?_,
        congrArg (· + 1) inside.nesting, congrArg (Node.prefixed 0 "-") inside.node⟩
      · rw [List.cons_append, tokensFrom_single false (by decide) rfl, List.map_cons,
          List.append_assoc, layout.erase_tokensFrom, inside.cut rest edge]
        rfl
      · exact .prefixed fits (.inr rfl) (inside.derives rest)
  | @binary level nesting nesting' left right operation text gap text' fits first layout second
      ih ih' =>
      have loose := operation.level_lt
      obtain ⟨derivation, before⟩ := ih (Nat.le_trans (Nat.le_of_lt loose) (by decide))
      obtain ⟨derivation', after⟩ := ih' (Nat.le_trans loose (by decide))
      refine ⟨.binary derivation (.mark operation.kind) derivation', fun rest edge => ?_,
        fun rest => ?_, ?_, ?_⟩
      · rw [List.append_assoc, List.cons_append, before.cut _ (operation.edge_sign _),
          operation.tokensFrom_sign, List.map_cons, List.append_assoc, layout.erase_tokensFrom,
          after.cut rest edge, Derivation.tokens, List.append_assoc]
        rfl
      · rw [Derivation.tokens, List.append_assoc, List.cons_append]
        exact .binary fits operation.binaryLevel?_kind (before.derives _) (after.derives rest)
      · rw [Derivation.nesting, before.nesting, after.nesting]
      · rw [Derivation.node, before.node, after.node]
        rfl
  | @group level nesting tree gap text after layout inner layout' ih =>
      obtain ⟨derivation, inside⟩ := ih (by decide)
      refine ⟨.group (.mark .leftParen) derivation (.mark .rightParen), fun rest edge => ?_,
        fun rest => ?_, congrArg (· + 1) inside.nesting, inside.node⟩
      · rw [List.cons_append, tokensFrom_leftParen, List.map_cons, List.append_assoc,
          layout.erase_tokensFrom, List.append_assoc, List.cons_append, inside.cut _ (by simp),
          tokensFrom_rightParen, List.map_cons, layout'.erase_tokensFrom, Derivation.tokens,
          List.cons_append, List.append_assoc]
        rfl
      · rw [Derivation.tokens, List.cons_append, List.append_assoc]
        exact .group known rfl ((inside.derives _).mono (by decide)) rfl

/-- A text that is nothing but the expression is parsed to the expression, lines aside,
without a diagnostic. -/
theorem Writes.parseProgram {nesting : Nat} {tree : Arithmetic} {start text : List Char}
    (writes : Writes Precedence.sum tree nesting text) (lead : Layout start) {limit : Int}
    {levels : Nat} (within : (nesting + 1 : Int) ≤ limit) (stack : nesting + 1 ≤ levels) :
    ∃ line expression after,
      ExprLang.parseProgram .standard limit levels
          (.ofTokens (tokenize (String.ofList (start ++ text)))) =
        (.parsed (.program [.expressionStatement line expression]), after) ∧
      after.diagnostics = [] ∧ expression.erase = tree.node := by
  obtain ⟨derivation, parses⟩ := writes.parses (by decide)
  let final : Token := ⟨.eof, "", 0⟩
  let whole : Derivation := .followed (.expressionStatement derivation none) (.closed final)
  have cut : (tokenize (String.ofList (start ++ text))).map Token.erase =
      derivation.tokens ++ [final] := by
    have read := parses.cut [] (by simp [Edge])
    rw [List.append_nil, tokensFrom_nil] at read
    rw [tokenize_eq, String.toList_ofList, lead.erase_tokensFrom, read]
    rfl
  have derives : Derives (.statements .eof) whole (derivation.tokens ++ [final]) [] := by
    have stops : ¬ final.kind.Continues := by
      simp [final, TokenKind.Continues, TokenKind.binaryLevel?]
    have ends : Ends none [final] [final] := .bare (by decide) stops
    exact .followed (.expressionStatement ((parses.derives _).mono (by decide)) ends) (.closed rfl)
  have fits : whole.Fits limit levels := by
    have deep : whole.nesting = nesting + 1 := by
      simp [whole, Derivation.nesting, parses.nesting]
    exact ⟨by omega, by omega⟩
  -- The tokens are those of the derivation, lines aside, and so is what is parsed.
  obtain ⟨after, ended, clean⟩ := derives.parseProgram_of_fits fits
  rw [← cut, Parser.ofTokens_erase (tokenize_ne_nil _), parseProgram_erases] at ended
  obtain ⟨statements, left, reached⟩ | ⟨-, broken⟩ := parseProgram_outcome limit levels
    (.ofTokens (tokenize (String.ofList (start ++ text))))
  swap
  · rw [broken] at ended
    cases ended
  rw [reached] at ended ⊢
  obtain ⟨same, rfl⟩ := Prod.mk.inj ended
  have trees : Node.eraseAll statements =
      [.expressionStatement derivation.head.line derivation.node] :=
    Node.program.inj (Outcome.parsed.inj same)
  obtain ⟨line, expression, rfl, alike⟩ : ∃ line expression,
      statements = [.expressionStatement line expression] ∧ expression.erase = derivation.node := by
    rcases statements with _ | ⟨statement, _ | ⟨other, rest⟩⟩
    · cases trees
    · cases statement <;> simp only [Node.eraseAll, Node.erase, List.cons.injEq, reduceCtorEq,
        false_and, Node.expressionStatement.injEq] at trees
      exact ⟨_, _, rfl, trees.1.2⟩
    · simp [Node.eraseAll] at trees
  exact ⟨line, expression, left, rfl, List.map_eq_nil_iff.1 clean, alike.trans parses.node⟩

end Arithmetic

/-! ## How it is evaluated -/

/-- The operators compute what the operations give. -/
theorem Operator.applyIntegers_kind (operation : Operation) (left right : Int) :
    Operator.applyIntegers (Token.mark operation.kind).literal left right =
      (operation.result left right).answer := by
  cases operation with
  | sum | difference | product => rfl
  | quotient =>
      change Operator.divide left right = _
      rw [divide, Operation.result]
      split
      · rw [Quantity.answer]
        split
        · next short => exact worded_of_writable (Decimal.writable_iff.2 short) _
        · next long => exact worded_of_long (mt Decimal.writable_iff.1 long) _
      · rfl

namespace Evaluator

variable {evaluator : Evaluator} {scope : ScopeId} {machine : Machine} {quantity : Quantity}

/-- Evaluation goes on with a number and ends where there is none. -/
theorem unlessSignal_answer {step : Eval Value} {next : Value → Eval Value}
    {onward : Int → Quantity} (came : step machine = (quantity.answer, machine))
    (goes : ∀ number, next (.integer number) machine = ((onward number).answer, machine)) :
    Eval.unlessSignal step next machine = ((quantity.andThen onward).answer, machine) := by
  rw [Eval.unlessSignal_apply, came]
  cases quantity with
  | value number => exact goes number
  | undefined dividend =>
      rw [Quantity.andThen]
      rcases Quantity.answer_undefined dividend with ended | ended
      · rw [ended]
        rfl
      · rw [ended]

/-- A node is evaluated to what its form comes to, where the depth allows for it. -/
theorem within_of_form {levels : Nat} {node : Node}
    (room : (machine.depth : Int) < evaluator.maxDepth)
    (formed : evaluator.form (evaluator.evaluateWithin levels) node scope machine.deeper =
      (quantity.answer, machine.deeper)) :
    evaluator.evaluateWithin (levels + 1) node scope machine = (quantity.answer, machine) := by
  change evaluator.visit _ node scope machine = _
  unfold Machine.deeper at formed
  unfold visit
  rw [if_neg (Int.not_le.2 room), formed]
  cases quantity with
  | value number => rfl
  | undefined dividend =>
      rcases Quantity.answer_undefined dividend with ended | ended
      · rw [ended]
        rfl
      · rw [ended]
        rfl

/-- Arithmetic is evaluated to what it means, where the depth and the stack allow for
its height, and leaves the machine as it was. -/
theorem within_arithmetic (evaluator : Evaluator) {tree : Arithmetic} {node : Node}
    (same : node.erase = tree.node) (scope : ScopeId) {levels : Nat} {machine : Machine}
    (stack : tree.height ≤ levels)
    (room : (machine.depth + tree.height : Int) ≤ evaluator.maxDepth) :
    evaluator.evaluateWithin levels node scope machine = (tree.result.answer, machine) := by
  induction tree generalizing node levels machine with
  | literal number =>
      obtain ⟨levels, rfl⟩ := Nat.exists_eq_add_of_le' stack
      cases node <;>
        simp only [Arithmetic.node, Node.erase, reduceCtorEq, Node.integer.injEq] at same
      obtain ⟨-, rfl⟩ := same
      rw [Arithmetic.height] at room
      exact within_of_form (by omega) rfl
  | negate operand ih =>
      obtain ⟨levels, rfl⟩ := Nat.exists_eq_add_of_le' (Nat.le_trans (Nat.le_add_left 1 _) stack)
      cases node <;>
        simp only [Arithmetic.node, Node.erase, reduceCtorEq, Node.prefixed.injEq] at same
      obtain ⟨-, rfl, inner⟩ := same
      rw [Arithmetic.height] at room stack
      refine within_of_form (by omega) (unlessSignal_answer (ih inner (by omega) ?_) fun _ => rfl)
      simp only [Machine.deeper]
      omega
  | binary left operation right ih ih' =>
      obtain ⟨levels, rfl⟩ := Nat.exists_eq_add_of_le' (Nat.le_trans (Nat.le_add_left 1 _) stack)
      cases node <;>
        simp only [Arithmetic.node, Node.erase, reduceCtorEq, Node.binary.injEq] at same
      obtain ⟨-, first, rfl, second⟩ := same
      rw [Arithmetic.height] at room stack
      have deep : (machine.deeper.depth : Int) = machine.depth + 1 := rfl
      refine within_of_form (by omega)
        (unlessSignal_answer (ih first (by omega) (by omega)) fun number =>
          unlessSignal_answer (ih' second (by omega) (by omega)) fun number' => ?_)
      rw [← Operator.applyIntegers_kind]
      rfl

/-- A program of one statement comes to what the statement comes to. -/
theorem runProgram_answer {inner : Inner} {statement : Node}
    (came : inner statement scope machine = (quantity.answer, machine)) :
    runProgram inner scope [statement] .null machine = (quantity.answer, machine) := by
  change Eval.andThen _ _ _ = _
  unfold Eval.andThen
  rw [came]
  cases quantity with
  | value number => rfl
  | undefined dividend =>
      rcases Quantity.answer_undefined dividend with ended | ended
      · rw [ended]
        rfl
      · rw [ended]

theorem within_arithmetic_program (evaluator : Evaluator) {tree : Arithmetic} {line : Int}
    {expression : Node} (same : expression.erase = tree.node) (scope : ScopeId) {levels : Nat}
    (heap : Heap) (stack : tree.height + 2 ≤ levels)
    (room : (tree.height + 2 : Int) ≤ evaluator.maxDepth) :
    evaluator.evaluateWithin levels (.program [.expressionStatement line expression]) scope
      (.ofHeap heap) = (tree.result.answer, .ofHeap heap) := by
  obtain ⟨levels, rfl⟩ := Nat.exists_eq_add_of_le' (Nat.le_trans (Nat.le_add_left 2 _) stack)
  have first : ((Machine.ofHeap heap).depth : Int) = 0 := rfl
  have second : ((Machine.ofHeap heap).deeper.depth : Int) = 1 := rfl
  have third : ((Machine.ofHeap heap).deeper.deeper.depth : Int) = 2 := rfl
  have inside : evaluator.evaluateWithin levels expression scope
      (Machine.ofHeap heap).deeper.deeper = (tree.result.answer, _) :=
    evaluator.within_arithmetic same scope (by omega) (by omega)
  have statement : evaluator.evaluateWithin (levels + 1) (.expressionStatement line expression)
      scope (Machine.ofHeap heap).deeper = (tree.result.answer, _) :=
    within_of_form (by omega) inside
  exact within_of_form (by omega) (runProgram_answer statement)

end Evaluator

namespace Session

variable {settings : Settings} {tree : Arithmetic} {nesting : Nat} {before text : List Char}

/-- **Arithmetic comes to what it says.** An expression means exactly one thing, in
exact arithmetic: a number, or that one number is the first to be divided by zero. A
text that is written for it, with at least the parentheses that it needs, is parsed
without a diagnostic and evaluated to the number, or to an error that names the
dividend, if that is short enough to be written. All it takes is that the limits and
the stack allow for its nesting and its height; the session is left as it was. -/
theorem run_arithmetic (session : Session) (file : String) (lead : Layout before)
    (writes : tree.Writes Precedence.sum nesting text)
    (within : (nesting + 1 : Int) ≤ settings.maxNesting)
    (room : (tree.height + 2 : Int) ≤ settings.maxEvalDepth) :
    let source := String.ofList (before ++ text)
    ∃ meant : Quantity, (∀ other, tree.Yields other ↔ other = meant) ∧
      (∀ dividend, meant = .undefined dividend →
        (toString dividend.natAbs).length ≤ Decimal.digitLimit →
        ∃ cause : EvalError, meant.answer = .ok (.error cause) ∧
          cause.message = "division by zero: " ++ toString dividend ++ " / 0") ∧
      ∀ levels, nesting + 1 ≤ levels → tree.height + 2 ≤ levels → ∃ program after,
        parseProgram .standard settings.maxNesting levels (.ofTokens (tokenize source)) =
            (.parsed program, after) ∧
          after.diagnostics = [] ∧
          (settings.evaluator file).evaluateWithin levels program session.scope
            (.ofHeap session.heap) = (meant.answer, .ofHeap session.heap) ∧
          session.run levels settings file source =
            ((meant.answer.mapError RunFault.evaluation).map fun value =>
              ⟨program, [], some value⟩, session) := by
  intro source
  refine ⟨tree.result, fun _ => Arithmetic.yields_iff, fun dividend undefined short => ?_,
    fun levels stack stack' => ?_⟩
  · rw [undefined]
    exact ⟨_, if_pos short, rfl⟩
  · obtain ⟨line, expression, after, parsed, clean, same⟩ := writes.parseProgram lead within stack
    have read : parse settings.maxNesting levels source =
        .ok ⟨.program [.expressionStatement line expression], []⟩ :=
      parse_eq_iff.2 ⟨after, parsed, clean⟩
    have ended : (settings.evaluator file).run
        (session.activation levels (.program [.expressionStatement line expression])) =
          (tree.result.answer, .ofHeap session.heap) :=
      (settings.evaluator file).within_arithmetic_program same session.scope session.heap
        stack' room
    refine ⟨_, after, parsed, clean, ended, ?_⟩
    rw [run_of_clean session file read, ended]
    rfl

/-- Of two divisions by zero the inner one comes first. The negative dividend on the
left does not keep it from that. -/
theorem run_arithmetic_undefined :
    ∃ program, start.run 50 .standard "<input>" "-7/2 - 10/(1-1) * 0/0" =
      (.ok ⟨program, [], some (.error (.divisionByZero 10))⟩, start) := by
  have number {level : Nat} (text : String) {after : List Char} (layout : Layout after)
      (fits : text.toList ≠ [] ∧ text.toList.all Text.isDigit = true ∧
        text.length ≤ Decimal.digitLimit) :
      Arithmetic.Writes level (.literal (Decimal.numeral text)) 0 (text.toList ++ after) :=
    .literal ⟨fits.1, List.all_eq_true.1 fits.2.1⟩ fits.2.2 layout
  have space : Layout [' '] := .blank (by decide) .nil
  let ratio : Arithmetic := .binary (.negate (.literal 7)) .quotient (.literal 2)
  let nothing : Arithmetic := .binary (.literal 1) .difference (.literal 1)
  let infinite : Arithmetic := .binary (.literal 10) .quotient nothing
  let product : Arithmetic := .binary infinite .product (.literal 0)
  have left : ratio.Writes Precedence.sum _ _ :=
    .binary (by decide) (.negate (by decide) .nil (number "7" .nil (by decide))) .nil
      (number "2" space (by decide))
  have inside : nothing.Writes Precedence.sum _ _ :=
    .binary (by decide) (number "1" .nil (by decide)) .nil (number "1" .nil (by decide))
  have middle : product.Writes Precedence.product _ _ :=
    .binary (by decide)
      (.binary (by decide) (number "10" .nil (by decide)) .nil (.group .nil inside space)) space
      (number "0" .nil (by decide))
  have right :
      Arithmetic.Writes (Precedence.sum + 1) (.binary product .quotient (.literal 0)) _ _ :=
    .binary (by decide) middle .nil (number "0" .nil (by decide))
  obtain ⟨meant, unique, -, runs⟩ := @run_arithmetic .standard _ _ [] _ start "<input>" .nil
    (.binary (show Precedence.sum ≤ Operation.difference.level by decide) left space right)
    (by decide) (by decide)
  obtain ⟨program, -, -, -, -, ran⟩ := runs 50 (by decide) (by decide)
  have first : .undefined 10 = meant := (unique _).1 (Arithmetic.yields_iff.2 (by decide))
  have answer : (Quantity.undefined 10).answer = .ok (.error (.divisionByZero 10)) := by
    rw [Quantity.answer, if_pos (by decide +kernel)]
  rw [← first, answer] at ran
  exact ⟨program, ran⟩

end Session

end ExprLang
