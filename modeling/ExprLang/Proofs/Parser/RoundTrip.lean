/-
# ExprLang.Proofs.Parser.RoundTrip — rendering is undone by parsing

The text of a written tree is cut into the tokens of its derivation
(`tokenize_text`), piece by piece: what is shown of an expression is that its
tokens come out whatever edge follows it, since a name or a numeral at its end
would go on with the characters of a word. Together with the derivation this
gives the round trip: the text parses to a tree that is the first one but for the
lines, which renders to the same text.
-/
import ExprLang.Proofs.Parser.Accepted
import ExprLang.Proofs.Parser.Written

namespace ExprLang

set_option autoImplicit false

namespace Node

/-! ## The text is cut into the tokens -/

/-- The text of an expression starts with a letter, an underscore, a digit or a
parenthesis, so it does not start with an equals sign. -/
theorem text_head {place : Place} {node : Node} (placed : node.Placed .written place)
    (expression : place = .expression) : ∃ c, node.text.toList.head? = some c ∧ c ≠ '=' := by
  induction placed with
  | identifier _ named =>
      obtain ⟨⟨c, others, spelled, starts, -⟩, -⟩ := named
      refine ⟨c, by simp [text, spelled], ?_⟩
      rintro rfl
      exact absurd starts (by decide)
  | integer _ number =>
      obtain ⟨natural, -⟩ := number
      obtain ⟨value, rfl⟩ := Int.eq_ofNat_of_zero_le natural
      obtain ⟨nonempty, digits⟩ := Decimal.run_repr value
      obtain ⟨c, others, spelled⟩ := List.exists_cons_of_ne_nil nonempty
      refine ⟨c, congrArg List.head? spelled, ?_⟩
      exact Decimal.ne_of_isDigit (digits c (by simp [spelled])) (by decide)
  | @boolean _ value => cases value <;> simp [text]
  | call _ _ _ ih _ =>
      obtain ⟨c, first, other⟩ := ih rfl
      exact ⟨c, by simp [text, first], other⟩
  | prefixed | binary | ifThen | ifElse | function => simp [text]
  | _ => cases expression

/-- What is cut from the text of a node in a place. -/
def Cut : Place → Node → Prop
  | .program, node => tokensFrom false node.text.toList = node.derivation.tokens
  | .statement, node => ∀ rest, tokensFrom false ((node.text ++ node.terminator).toList ++ rest) =
      node.derivation.tokens ++ tokensFrom false rest
  | .block, node => ∀ rest, tokensFrom false (node.text.toList ++ rest) =
      node.derivation.tokens ++ tokensFrom false rest
  | .expression, node => ∀ rest, Edge rest → tokensFrom false (node.text.toList ++ rest) =
      node.derivation.tokens ++ tokensFrom false rest

theorem tokensFrom_unary {operator : String} {rest : List Char}
    (known : Lexicon.written.unary operator) (apart : rest.head? ≠ some '=') :
    tokensFrom false (operator.toList ++ rest) = .operator operator :: tokensFrom false rest := by
  obtain ⟨kind, isUnary, same⟩ := Token.operator_unary known
  have spelled : operator = (Token.sign kind).literal := congrArg Token.literal same
  have symbol : kind ∈ TokenKind.symbols := by
    rcases isUnary with rfl | rfl <;> decide
  rw [same, spelled, tokensFrom_sign false symbol apart]

theorem tokensFrom_binary {operator : String} {rest : List Char}
    (known : Lexicon.written.binary operator) :
    tokensFrom false (operator.toList ++ ' ' :: rest) =
      .operator operator :: tokensFrom false rest := by
  obtain ⟨kind, own, level, same⟩ := Token.operator_binary known
  have spelled : operator = (Token.sign kind).literal := congrArg Token.literal same
  have symbol : kind ∈ TokenKind.symbols := by
    cases kind <;> first | decide | cases level
  rw [same, spelled, tokensFrom_sign false symbol (by simp), tokensFrom_space]

theorem commaSeparated_cons_cons (first next : String) (others : List String) :
    commaSeparated (first :: next :: others) =
      first ++ ", " ++ commaSeparated (next :: others) :=
  String.intercalate_cons_cons

theorem cut_parameters {parameters : List Name}
    (named : ∀ parameter ∈ parameters, IsName parameter.text) (rest : List Char) :
    tokensFrom false ((commaSeparated (parameters.map Name.text)).toList ++ ')' :: rest) =
      (parametersDerivation parameters).tokens ++ tokensFrom false rest := by
  have list (first : Name) (others : List Name)
      (named : ∀ parameter ∈ first :: others, IsName parameter.text) :
      tokensFrom false ((commaSeparated ((first :: others).map Name.text)).toList ++ ')' :: rest) =
        (parameterDerivation first others).tokens ++ tokensFrom false rest := by
    induction others generalizing first with
    | nil =>
        have here := named first (by simp)
        simp [commaSeparated, parameterDerivation, Derivation.tokens, tokensFrom_name here]
    | cons next others ih =>
        have here := named first (by simp)
        have later := ih next fun other member => named other (List.mem_cons_of_mem first member)
        rw [List.map_cons] at later
        simp [commaSeparated_cons_cons, parameterDerivation, Derivation.tokens,
          tokensFrom_name here, later]
  cases parameters with
  | nil => simp [commaSeparated, parametersDerivation, Derivation.tokens]
  | cons first others => exact list first others named

theorem cut_arguments {first : Node} {others : List Node}
    (each : ∀ argument ∈ first :: others, Cut .expression argument) (rest : List Char) :
    tokensFrom false ((commaSeparated (texts (first :: others))).toList ++ ')' :: rest) =
      (argumentDerivation first.derivation others).tokens ++ tokensFrom false rest := by
  induction others generalizing first with
  | nil =>
      have here : Cut .expression first := each first (by simp)
      simp [commaSeparated, texts, argumentDerivation, Derivation.tokens, here _]
  | cons next others ih =>
      have here : Cut .expression first := each first (by simp)
      have later := ih fun other member => each other (List.mem_cons_of_mem first member)
      rw [texts] at later
      simp [texts, commaSeparated_cons_cons, argumentDerivation, Derivation.tokens, here _, later]

theorem tokens_sequence (closing : Token) (statements : List Node) :
    (sequenceDerivation closing statements).tokens =
      (statements.flatMap fun statement => statement.derivation.tokens) ++ [closing] := by
  induction statements with
  | nil => rfl
  | cons statement others ih => simp [sequenceDerivation, Derivation.tokens, ih]

theorem cut_sequence {statements : List Node}
    (each : ∀ statement ∈ statements, Cut .statement statement) (rest : List Char) :
    tokensFrom false ((" ".intercalate (statementTexts statements)).toList ++ rest) =
      (statements.flatMap fun statement => statement.derivation.tokens) ++
        tokensFrom false rest := by
  induction statements with
  | nil => simp [statementTexts]
  | cons statement others ih =>
      have here : Cut .statement statement := each statement (by simp)
      have later := ih fun other member => each other (List.mem_cons_of_mem statement member)
      cases others with
      | nil => simpa [statementTexts] using here rest
      | cons next others =>
          rw [statementTexts] at later
          rw [statementTexts, statementTexts, String.intercalate_cons_cons]
          rw [String.toList_append, String.toList_append, List.append_assoc, List.append_assoc,
            here]
          change _ ++ tokensFrom false (' ' :: (_ ++ rest)) = _
          rw [tokensFrom_space, later, ← List.append_assoc]
          rfl

/-- A written tree is cut into the tokens of its derivation. -/
theorem cut_text {place : Place} {node : Node} (placed : node.Placed .written place) :
    Cut place node := by
  induction placed with
  | program each ih =>
      have whole := cut_sequence ih []
      rw [List.append_nil, tokensFrom_nil] at whole
      rw [Cut, derivation, tokens_sequence, text, whole]
      rfl
  | @block line statements _ each ih =>
      intro rest
      cases statements with
      | nil => simp [text, derivation, sequenceDerivation, Derivation.tokens]
      | cons first others =>
          have whole := cut_sequence ih (' ' :: '}' :: rest)
          rw [text_block line _ (by simp)]
          simp [-String.toList_intercalate, derivation, Derivation.tokens, tokens_sequence, whole]
  | blockStatement admitted => exact absurd admitted id
  | letStatement _ named _ ih =>
      intro rest
      simp [text, derivation, Derivation.tokens, terminator, tokensFrom_name named, ih _]
  | returnStatement _ _ ih =>
      intro rest
      simp [text, derivation, Derivation.tokens, terminator, ih _]
  | expressionStatement _ _ ih =>
      intro rest
      simp [text, derivation, Derivation.tokens, terminator, ih _]
  | identifier _ named => exact fun rest edge => tokensFrom_name named edge
  | integer _ number =>
      obtain ⟨natural, -⟩ := number
      obtain ⟨value, rfl⟩ := Int.eq_ofNat_of_zero_le natural
      exact fun rest edge => tokensFrom_numeral value edge
  | @boolean _ value =>
      intro rest edge
      cases value <;> simp [text, derivation, Derivation.tokens, edge]
  | @prefixed _ _ operand _ known placed ih =>
      intro rest edge
      obtain ⟨c, first, other⟩ := text_head placed rfl
      have apart : (operand.text.toList ++ ')' :: rest).head? ≠ some '=' := by
        simp [first, other]
      simp [text, derivation, Derivation.tokens, tokensFrom_unary known apart, ih _]
  | binary _ known _ _ ih ih' =>
      intro rest edge
      simp [text, derivation, Derivation.tokens, tokensFrom_binary known, ih _, ih' _]
  | ifThen _ _ _ ih ih' =>
      intro rest edge
      simp [text, derivation, Derivation.tokens, ih _, ih' _]
  | ifElse _ _ _ _ ih ih' ih'' =>
      intro rest edge
      simp [text, derivation, Derivation.tokens, ih _, ih' _, ih'' _]
  | function _ named _ ih =>
      intro rest edge
      have names := cut_parameters fun parameter member => (named parameter member).2
      simp [text, derivation, Derivation.tokens, names, ih _]
  | @call _ _ arguments _ _ _ ih ih' =>
      intro rest edge
      cases arguments with
      | nil => simp [text, derivation, Derivation.tokens, texts, commaSeparated, ih _]
      | cons first others =>
          simp [text, derivation, Derivation.tokens, cut_arguments ih', ih _]

/-- The text of a written program has its derivation. -/
theorem derives_text {tree : Node} (placed : tree.Placed .written .program) :
    Derives (.statements .eof) tree.derivation (tokenize tree.text) [] := by
  have cut : tokensFrom false tree.text.toList = tree.derivation.tokens := cut_text placed
  have derives := derives_derivation placed [] nofun
  rw [tokenize_eq, cut]
  rwa [List.append_nil] at derives

/-- The tree of the derivation is the program, lines aside. -/
theorem erase_program {tree : Node} (placed : tree.Placed .written .program) :
    (Node.program tree.derivation.nodes).erase = tree.erase := by
  cases placed with
  | program each =>
      rw [derivation, erase, erase, nodes_sequenceDerivation .final fun statement member =>
        erase_derivation (each statement member) (by decide)]

end Node

/-- A written program is rendered to a text, unless the stack is less deep than
the tree is high. Under a limit of more than twice the height, the text is parsed
without a diagnostic by every stack that has as many levels as the text is
nested. The result is the program again, lines aside, and has the same text. -/
theorem parseProgram_render {tree : Node} (placed : tree.Placed .written .program) :
    ∃ text nesting, nesting ≤ 2 * tree.height ∧
      (∀ stack, tree.renderWithin stack =
        if tree.height ≤ stack then .ok text else .error .stackExhausted) ∧
      ∀ (limit : Int) (levels : Nat), 2 * (tree.height : Int) + 1 ≤ limit →
        ((∃ program after, Parse.Clean (parseProgram .standard limit levels)
            (.ofTokens (tokenize text)) program after) ↔ nesting ≤ levels) ∧
        (nesting ≤ levels → ∃ program after,
          Parse.Clean (parseProgram .standard limit levels) (.ofTokens (tokenize text))
              program after ∧
            program.alike tree = true ∧
            ∀ stack, program.renderWithin stack = tree.renderWithin stack) := by
  have derives := Node.derives_text placed
  have shallow : tree.derivation.nesting ≤ 2 * tree.height := Node.nesting_derivation placed
  have same := Node.erase_program placed
  refine ⟨tree.text, tree.derivation.nesting, shallow, Node.renderWithin_eq placed, ?_⟩
  intro limit levels deep
  have parsed (stack : tree.derivation.nesting ≤ levels) :
      ∃ after, Parse.Clean (parseProgram .standard limit levels) (.ofTokens (tokenize tree.text))
        (.program tree.derivation.nodes) after :=
    derives.parseProgram_eq ⟨stack, by omega⟩
  refine ⟨⟨?_, fun stack => ⟨_, parsed stack⟩⟩, fun stack => ?_⟩
  · rintro ⟨program, after, clean⟩
    obtain ⟨other, derives', room, -⟩ := parseProgram_sound (lexed_tokenize tree.text) (by omega)
      clean
    obtain ⟨rfl, -⟩ := derives.unique derives'
    exact room.stack
  · obtain ⟨after, clean⟩ := parsed stack
    refine ⟨_, after, clean, (Node.alike_iff _ _).2 same, fun stack => ?_⟩
    rw [← Node.renderWithin_erase, same, Node.renderWithin_erase]

/-- A program with a function, an operation in an operation, a conditional with an
empty block and a call of a call. -/
def curried : Node :=
  .program [
    .letStatement 0 ⟨"f", 0⟩ (.function 0 [⟨"x", 0⟩] (.block 0 [
      .returnStatement 0 (.binary 0 (.identifier ⟨"x", 0⟩) "*" (.prefixed 0 "-" (.integer 0 2)))])),
    .expressionStatement 0 (.ifElse 0 (.boolean 0 true) (.block 0 [])
      (.block 0 [.expressionStatement 0
        (.call 0 (.call 0 (.identifier ⟨"f", 0⟩) [.identifier ⟨"f", 0⟩]) [.integer 0 1])]))]

theorem curried_placed : curried.Placed .written .program := by
  have f : Lexicon.written.name "f" :=
    ⟨⟨'f', [], rfl, by decide, by simp⟩, by decide +kernel⟩
  have x : Lexicon.written.name "x" :=
    ⟨⟨'x', [], rfl, by decide, by simp⟩, by decide +kernel⟩
  have number (value : Int) (digit : value = 1 ∨ value = 2) : Lexicon.written.number value := by
    rcases digit with rfl | rfl <;> exact ⟨by decide, by decide +kernel⟩
  have body : (Node.binary 0 (.identifier ⟨"x", 0⟩) "*" (.prefixed 0 "-" (.integer 0 2))).Placed
      .written .expression :=
    .binary trivial (by simp [Lexicon.written]) (.identifier trivial x)
      (.prefixed trivial (by simp [Lexicon.written]) (.integer trivial (number 2 (.inr rfl))))
  have calls : (Node.call 0 (.call 0 (.identifier ⟨"f", 0⟩) [.identifier ⟨"f", 0⟩])
      [.integer 0 1]).Placed .written .expression := by
    refine .call trivial (.call trivial (.identifier trivial f) ?_) ?_
    · simpa using Node.Placed.identifier trivial f
    · simpa using Node.Placed.integer trivial (number 1 (.inl rfl))
  refine .program ?_
  simp only [List.mem_cons, List.not_mem_nil, or_false, forall_eq_or_imp, forall_eq]
  refine ⟨.letStatement trivial f (.function trivial ?_ (.block trivial ?_)),
    .expressionStatement trivial (.ifElse trivial (.boolean trivial) (.block trivial (by simp))
      (.block trivial ?_))⟩
  · simpa using ⟨trivial, x⟩
  · simpa using Node.Placed.returnStatement trivial body
  · simpa using Node.Placed.expressionStatement trivial calls

theorem parseProgram_render_curried :
    curried.Placed .written .program ∧ ∃ program after,
      Parse.Clean (parseProgram .standard 17 16) (.ofTokens (tokenize
        "let f = fn(x) \x7b return (x * (-2)); \x7d; if (true) \x7b \x7d else \x7b f(f)(1); \x7d;"))
          program after ∧ program.alike curried = true := by
  refine ⟨curried_placed, ?_⟩
  obtain ⟨text, nesting, shallow, rendered, parsed⟩ := parseProgram_render curried_placed
  have tall : curried.height = 8 := by decide
  have spelled : curried.text =
      "let f = fn(x) \x7b return (x * (-2)); \x7d; if (true) \x7b \x7d else \x7b f(f)(1); \x7d;" := by
    decide +kernel
  have written := (rendered 8).symm.trans (Node.renderWithin_eq curried_placed 8)
  rw [tall, if_pos (Nat.le_refl 8), if_pos (Nat.le_refl 8), spelled] at written
  cases written
  rw [tall] at shallow
  obtain ⟨program, after, clean, alike, -⟩ := (parsed 17 16 (by rw [tall]; decide)).2 shallow
  exact ⟨program, after, clean, alike⟩

end ExprLang
