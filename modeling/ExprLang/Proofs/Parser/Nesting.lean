/-
# ExprLang.Proofs.Parser.Nesting — how deep the text of a parsed program is nested

Rendering writes every operation in parentheses of its own, so the text of a
program can be nested deeper than the text it was parsed from, and the limit
counts what stands in the text. What is added is at most one level for each
operation on a path of the tree (`Node.operators`): a prefix or infix expression
that stood without parentheses is entered once more, everything else is entered
as often as before (`Derives.nesting_text_le`).

So a program that was accepted under a limit renders to a text that is accepted
under every limit from the nesting of that text on, and under no lower one
(`parseProgram_render_nesting`). The limit that the source was accepted under
need not be among them.
-/
import ExprLang.Proofs.Parser.Accepted
import ExprLang.Proofs.Parser.RoundTrip
import ExprLang.Proofs.Parser.Scanned

namespace ExprLang

set_option autoImplicit false

namespace Node

mutual

/-- How many operations lie on a path from the root to a leaf, at most. -/
def operators : Node → Nat
  | .program statements => operatorsAll statements
  | .block _ statements => operatorsAll statements
  | .letStatement _ _ value => value.operators
  | .returnStatement _ value => value.operators
  | .expressionStatement _ expression => expression.operators
  | .identifier _ | .integer .. | .boolean .. | .foreign _ => 0
  | .prefixed _ _ operand => operand.operators + 1
  | .binary _ left _ right => max left.operators right.operators + 1
  | .ifThen _ condition consequence => max condition.operators consequence.operators
  | .ifElse _ condition consequence alternative =>
      max condition.operators (max consequence.operators alternative.operators)
  | .function _ _ body => body.operators
  | .call _ callee arguments => max callee.operators (operatorsAll arguments)
  | .sequence items => operatorsAll items

/-- The most operations on a path of the trees of a list. -/
def operatorsAll : List Node → Nat
  | [] => 0
  | node :: rest => max node.operators (operatorsAll rest)

end

end Node

/-! ## Rendering adds a level for an operation -/

/-- The text of what a phrase stands for is nested no deeper than the phrase, but
for its operations. -/
def Unfolds : Phrase → Derivation → Prop
  | .expression _, tree | .statement, tree | .block, tree =>
      tree.node.derivation.nesting ≤ tree.nesting + tree.node.operators
  | .statements _, tree => ∀ closing,
      (Node.sequenceDerivation closing tree.nodes).nesting ≤
        tree.nesting + Node.operatorsAll tree.nodes
  | .argumentList, tree => ∃ first others, tree.nodes = first :: others ∧
      (Node.argumentDerivation first.derivation others).nesting ≤
        tree.nesting + Node.operatorsAll tree.nodes
  | .arguments, tree => tree.nodes = [] ∨ ∃ first others, tree.nodes = first :: others ∧
      (Node.argumentDerivation first.derivation others).nesting ≤
        tree.nesting + Node.operatorsAll tree.nodes
  | .parameters, _ | .parameterList, _ => True

theorem Derives.unfolds {phrase : Phrase} {tree : Derivation} {input rest : List Token}
    (derives : Derives phrase tree input rest) : Unfolds phrase tree := by
  induction derives with
  | name | integer | truth => exact Nat.zero_le _
  | group _ _ _ _ ih =>
      refine Nat.le_trans ih ?_
      simp only [Derivation.nesting, Derivation.node]
      omega
  | call _ _ _ _ ih ih' =>
      rcases ih' with none | ⟨first, others, given, ih'⟩
      · simp only [Unfolds, Derivation.node, Derivation.nesting, none, Node.derivation,
          Node.operators] at *
        omega
      · simp only [Unfolds, Derivation.node, Derivation.nesting, given, Node.derivation,
          Node.operators] at *
        omega
  | block _ _ ih =>
      have inner := ih (.sign .rightBrace)
      simp only [Unfolds, Derivation.node, Derivation.nesting, Node.derivation,
        Node.operators] at *
      omega
  | noArguments => exact .inl rfl
  | someArguments _ ih => exact .inr ih
  | lastArgument _ _ ih =>
      refine ⟨_, [], rfl, ?_⟩
      simp only [Unfolds, Derivation.nodes, Derivation.nesting, Node.argumentDerivation,
        Node.operatorsAll] at *
      omega
  | argument _ _ _ ih ih' =>
      obtain ⟨next, others, given, ih'⟩ := ih'
      refine ⟨_, next :: others, by rw [Derivation.nodes, given], ?_⟩
      simp only [Unfolds, Derivation.nodes, Derivation.nesting, given, Node.argumentDerivation,
        Node.operatorsAll] at *
      omega
  | noParameters | someParameters | lastParameter | parameter => trivial
  | closed => exact fun closing => Nat.zero_le _
  | followed _ _ ih ih' =>
      intro closing
      have later := ih' closing
      simp only [Unfolds, Derivation.nodes, Derivation.nesting, Node.sequenceDerivation,
        Node.operatorsAll] at *
      omega
  | _ =>
      simp only [Unfolds, Derivation.node, Derivation.nesting, Node.derivation,
        Node.operators] at *
      omega

theorem Derives.nesting_text_le {closer : TokenKind} {tree : Derivation} {input rest : List Token}
    (derives : Derives (.statements closer) tree input rest) :
    (Node.program tree.nodes).derivation.nesting ≤
      tree.nesting + (Node.program tree.nodes).operators :=
  derives.unfolds .final

/-! ## Trees that have a text -/

/-- Where no name is spelled like a keyword, the tokens of a text are those of
written trees. -/
theorem fits_written {source : String}
    (plain : ∀ token ∈ tokenize source, token.kind = .identifier →
      TokenKind.keyword? token.literal = none) :
    ∀ token ∈ tokenize source, token.Fits .written := by
  intro token member
  have fits := fits_scanned member
  exact ⟨trivial, fun kind => ⟨fits.name kind, plain token member kind⟩, fits.number, fits.unary,
    fits.binary⟩

theorem window_fits_written {source : String}
    (plain : ∀ token ∈ tokenize source, token.kind = .identifier →
      TokenKind.keyword? token.literal = none) :
    (Parser.ofTokens (tokenize source)).window.Fits .written := by
  have fits := fits_written plain
  obtain ⟨token, tail, same⟩ := List.exists_cons_of_ne_nil (lexed_tokenize source).ne_nil
  rw [same] at fits ⊢
  exact fits

/-- **The limit of a rendering.** A text that is accepted under a limit, none of its
names spelled like a keyword, is parsed to a program that has a text. That one is
accepted under every limit that it is not nested deeper than, by a stack that goes
as deep, and under no other; its tree is the program again, lines aside. It is
nested no deeper than the limit of the source allows and the operations of the
program add, one level for each on a path. -/
theorem parseProgram_render_nesting {source : String}
    (plain : ∀ token ∈ tokenize source, token.kind = .identifier →
      TokenKind.keyword? token.literal = none) {limit : Int} {levels : Nat} {program : Node}
    {after : Parser} (clean : Parse.Clean (parseProgram .standard limit levels)
      (.ofTokens (tokenize source)) program after) :
    ∃ text nesting,
      (∀ stack, program.renderWithin stack =
        if program.height ≤ stack then .ok text else .error .stackExhausted) ∧
      nesting ≤ limit.toNat + program.operators ∧
      ∀ (other : Int) (stack : Nat),
        ((∃ again after, Parse.Clean (parseProgram .standard other stack)
            (.ofTokens (tokenize text)) again after) ↔
          nesting ≤ other.toNat ∧ nesting ≤ stack) ∧
        (nesting ≤ other.toNat → nesting ≤ stack → ∃ again after,
          Parse.Clean (parseProgram .standard other stack) (.ofTokens (tokenize text))
            again after ∧ again.alike program = true) := by
  obtain ⟨tree, derives, fits, rfl⟩ := parseProgram_derives (lexed_tokenize source) clean
  have placed : (Node.program tree.nodes).Placed .written .program :=
    parseProgram_placed (window_fits_written plain) clean.1
  have written := Node.derives_text placed
  refine ⟨_, (Node.program tree.nodes).derivation.nesting, Node.renderWithin_eq placed, ?_,
    fun other stack => ⟨?_, fun shallow deep => ?_⟩⟩
  · have added := derives.nesting_text_le
    have shallow := fits.limit
    omega
  · rw [parseProgram_accepts (lexed_tokenize _)]
    constructor
    · rintro ⟨again, derives', fits'⟩
      obtain ⟨rfl, -⟩ := written.unique derives'
      exact ⟨fits'.limit, fits'.stack⟩
    · rintro ⟨shallow, deep⟩
      exact ⟨_, written, shallow, deep⟩
  · obtain ⟨after, clean⟩ := written.parseProgram_of_fits ⟨shallow, deep⟩
    exact ⟨_, after, clean, (Node.alike_iff _ _).2 (Node.erase_program placed)⟩

/-- The tree of a product in a difference. -/
def difference : Node :=
  .program [.expressionStatement 1 (.binary 1 (.integer 1 1) "-"
    (.binary 1 (.identifier ⟨"x", 1⟩) "*" (.integer 1 2)))]

/-- A product in a difference, accepted under a limit of three. Two operations are
two levels more, so five is enough for its text. -/
theorem parseProgram_render_nesting_difference :
    (∀ token ∈ tokenize "1 - x * 2", token.kind = .identifier →
      TokenKind.keyword? token.literal = none) ∧
    (∃ after, Parse.Clean (parseProgram .standard 3 3) (.ofTokens (tokenize "1 - x * 2"))
      difference after) ∧
    difference.renderWithin 5 = .ok "(1 - (x * 2));" ∧
    ∃ again after, Parse.Clean (parseProgram .standard 5 5) (.ofTokens (tokenize "(1 - (x * 2));"))
      again after ∧ again.alike difference = true := by
  have plain : ∀ token ∈ tokenize "1 - x * 2", token.kind = .identifier →
      TokenKind.keyword? token.literal = none := by
    decide +kernel
  have clean : Parse.Clean (parseProgram .standard 3 3) (.ofTokens (tokenize "1 - x * 2"))
      difference (.over [⟨.eof, "", 1⟩] 0 []) := by
    have tokens : tokenize "1 - x * 2" =
        [⟨.int, "1", 1⟩, ⟨.minus, "-", 1⟩, ⟨.identifier, "x", 1⟩, ⟨.product, "*", 1⟩,
          ⟨.int, "2", 1⟩, ⟨.eof, "", 1⟩] := by
      decide +kernel
    rw [tokens]
    exact ⟨rfl, rfl⟩
  obtain ⟨text, nesting, rendered, added, accepted⟩ := parseProgram_render_nesting plain clean
  have counted : difference.operators = 2 := by decide
  have spelled : difference.renderWithin 5 = .ok "(1 - (x * 2));" := by decide +kernel
  have shallow : nesting ≤ 5 := by
    rw [counted] at added
    exact added
  have written := spelled
  rw [rendered 5] at written
  split at written
  · cases written
    exact ⟨plain, ⟨_, clean⟩, spelled, (accepted 5 5).2 shallow shallow⟩
  · cases written

/-- The tree of a sum. -/
def sum : Node :=
  .program [.expressionStatement 1 (.binary 1 (.integer 1 1) "+" (.integer 1 2))]

/-- A sum that is accepted under a limit of two is rendered with parentheses, and
those are one level too many. -/
theorem rendering_exceeds_limit :
    ¬ ∀ (source : String) (limit : Int) (program : Node),
      (∀ token ∈ tokenize source, token.kind = .identifier →
        TokenKind.keyword? token.literal = none) →
      parse limit 500 source = .ok ⟨program, []⟩ →
      ∃ text again, program.renderWithin 500 = .ok text ∧
        parse limit 500 text = .ok ⟨again, []⟩ := by
  intro claimed
  have plain : ∀ token ∈ tokenize "1 + 2", token.kind = .identifier →
      TokenKind.keyword? token.literal = none := by
    decide +kernel
  have clean : parse 2 500 "1 + 2" = .ok ⟨sum, []⟩ := by
    have tokens : tokenize "1 + 2" =
        [⟨.int, "1", 1⟩, ⟨.plus, "+", 1⟩, ⟨.int, "2", 1⟩, ⟨.eof, "", 1⟩] := by
      decide +kernel
    rw [parse, tokens]
    rfl
  obtain ⟨text, again, rendered, parsed⟩ := claimed "1 + 2" 2 sum plain clean
  have spelled : sum.renderWithin 500 = .ok "(1 + 2);" := by decide +kernel
  have problems : (parse 2 500 "(1 + 2);").toOption.map Parsed.diagnostics ≠ some [] := by
    decide +kernel
  cases spelled.symm.trans rendered
  rw [parsed] at problems
  exact problems rfl

end ExprLang
