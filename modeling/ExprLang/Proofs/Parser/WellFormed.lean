/-
# ExprLang.Proofs.Parser.WellFormed — what is left of a text is well-formed

The parser goes on after a statement that fails, and returns what it could keep. What
renders, evaluates or inspects a tree does not ask whether the text was well-formed, so
the tree has to be: every child is there and stands where it belongs, operators and names
are those of the language, lines are lines of the text, and a number is the value of the
digits that it was written with (`Node.WellFormed`). This is said node by node, of every
node that the tree holds.

A node is made of the tokens that were read for it (`Node.Made`), and so is each of its
children. What remains is to look at each form of node once (`Node.Made.wellFormed`).
-/
import Mathlib.Data.Nat.Digits.Defs
import ExprLang.Proofs.Eval.Genuine
import ExprLang.Proofs.Parser.Ascending
import ExprLang.Proofs.Parser.Scanned
import ExprLang.Proofs.Settings

namespace ExprLang

set_option autoImplicit false

/-! ## Numbers -/

namespace Decimal

/-- The text is a row of digits, of whatever script, and the number is their value in
base ten. -/
def Positional (text : String) (value : Int) : Prop :=
  ∃ digits : List Nat, text.toList.map Text.digitValue? = digits.map some ∧
    value = (Nat.ofDigits 10 digits.reverse : Nat)

/-- Reading from the left adds up the positions. -/
theorem ofDigits_eq (values : List Nat) : ofDigits values = Nat.ofDigits 10 values.reverse := by
  rw [Nat.ofDigits_eq_foldr, List.foldr_reverse]
  unfold ofDigits
  congr 1
  funext number value
  exact Nat.add_comm _ _

theorem map_digitValue?_of_run (text : List Char) (digits : ∀ c ∈ text, Text.isDigit c = true) :
    text.map Text.digitValue? = (text.filterMap Text.digitValue?).map some := by
  induction text with
  | nil => rfl
  | cons c rest ih =>
      obtain ⟨value, found⟩ := Option.isSome_iff_exists.1 (digits c (by simp))
      simp [found, ih fun other member => digits other (by simp [member])]

theorem numeral_lt_of_length_le {text : String} {limit : Nat} (run : Run text)
    (short : text.length ≤ limit) : (numeral text : Int) < 10 ^ limit := by
  have small : numeral text < 10 ^ limit :=
    Nat.lt_of_lt_of_le (numeral_lt run) (Nat.pow_le_pow_right (by decide) short)
  exact_mod_cast small

/-- What a run of digits is read as is the value of the digits, and has no more of them
than can be read. -/
theorem positional_of_read? {text : String} {value : Int} (run : Run text)
    (read : read? text = some value) :
    Positional text value ∧ 0 ≤ value ∧ value < 10 ^ digitLimit := by
  rw [read?_of_run run] at read
  split at read
  · next short =>
      cases read
      exact ⟨⟨_, map_digitValue?_of_run _ run.2, congrArg _ (ofDigits_eq _)⟩,
        Int.natCast_nonneg _, numeral_lt_of_length_le run short⟩
  · cases read

end Decimal

/-! ## Nodes -/

/-- A line of a text, given the last one. -/
def OnLine (last line : Int) : Prop := 1 ≤ line ∧ line ≤ last

/-- A name that can be written, on a line of the text. -/
def Name.WellFormed (last : Int) (name : Name) : Prop := OnLine last name.line ∧ IsWord name.text

namespace Node

/-- What holds of a node, apart from what holds of its children by themselves: it is on a
line of the text, its children stand where they belong, and its names, its operator or its
number are those of tokens. -/
def WellFormed (tokens : List Token) (last : Int) : Node → Prop
  | .program statements => ∀ statement ∈ statements, statement.place? = some .statement
  | .block line statements =>
      OnLine last line ∧ ∀ statement ∈ statements, statement.place? = some .statement
  | .letStatement line name value =>
      OnLine last line ∧ name.WellFormed last ∧ value.place? = some .expression
  | .returnStatement line value | .expressionStatement line value =>
      OnLine last line ∧ value.place? = some .expression
  | .identifier name => name.WellFormed last
  | .integer line value =>
      OnLine last line ∧ 0 ≤ value ∧ value < 10 ^ Decimal.digitLimit ∧
        ∃ token ∈ tokens, token.kind = .int ∧ token.line = line ∧
          Decimal.Positional token.literal value
  | .boolean line _ => OnLine last line
  | .prefixed line operator operand =>
      OnLine last line ∧ operator ∈ ["!", "-"] ∧ operand.place? = some .expression
  | .binary line left operator right =>
      OnLine last line ∧ operator ∈ ["+", "-", "*", "/", "<", ">", "<=", ">=", "==", "!="] ∧
        left.place? = some .expression ∧ right.place? = some .expression
  | .ifThen line condition consequence =>
      OnLine last line ∧ condition.place? = some .expression ∧ consequence.place? = some .block
  | .ifElse line condition consequence alternative =>
      OnLine last line ∧ condition.place? = some .expression ∧
        consequence.place? = some .block ∧ alternative.place? = some .block
  | .function line parameters body =>
      OnLine last line ∧ (∀ parameter ∈ parameters, parameter.WellFormed last) ∧
        body.place? = some .block
  | .call line callee arguments =>
      OnLine last line ∧ callee.place? = some .expression ∧
        ∀ argument ∈ arguments, argument.place? = some .expression
  | .sequence _ | .foreign _ => False

namespace Made

variable {tokens : List Token} {place : Place} {node : Node}

theorem place? (made : node.Made tokens place) : node.place? = some place := by
  cases made <;> rfl

/-- The children of a node that is made of tokens are made of them too. -/
theorem child (made : node.Made tokens place) {child : Node} (member : child ∈ node.children) :
    ∃ place, child.Made tokens place := by
  cases made with
  | program each | block _ _ each => exact ⟨_, each child member⟩
  | letStatement _ _ _ inner | returnStatement _ _ inner | expressionStatement _ inner
  | prefixed _ _ inner | function _ _ _ inner =>
      rw [List.mem_singleton.1 member]
      exact ⟨_, inner⟩
  | identifier | integer | boolean => cases member
  | binary _ _ first second | ifThen _ _ first second =>
      rcases List.mem_pair.1 member with rfl | rfl
      · exact ⟨_, first⟩
      · exact ⟨_, second⟩
  | ifElse _ _ test first second =>
      obtain rfl | later := List.mem_cons.1 member
      · exact ⟨_, test⟩
      · rcases List.mem_pair.1 later with rfl | rfl
        · exact ⟨_, first⟩
        · exact ⟨_, second⟩
  | call _ _ target each =>
      obtain rfl | given := List.mem_cons.1 member
      · exact ⟨_, target⟩
      · exact ⟨_, each child given⟩

theorem held (made : node.Made tokens place) {inner : Node} (holds : node.Holds inner) :
    ∃ place, inner.Made tokens place := by
  induction holds with
  | refl => exact ⟨place, made⟩
  | tail _ member ih =>
      obtain ⟨place, made⟩ := ih
      exact made.child member

theorem genuine (made : node.Made tokens place) : node.Genuine := by
  intro inner holds
  obtain ⟨place, made⟩ := made.held holds
  rw [made.place?]
  exact Option.some_ne_none _

/-- A node that is made of the tokens of a text is well-formed. -/
theorem wellFormed {source : String} {last : Int}
    (lines : ∀ token ∈ tokenize source, OnLine last token.line)
    (made : node.Made (tokenize source) place) : node.WellFormed (tokenize source) last := by
  have fits {token : Token} (read : token ∈ tokenize source) := fits_scanned read
  have names {name : Name} (named : name.Made (tokenize source)) : name.WellFormed last := by
    obtain ⟨token, read, kind, rfl⟩ := named
    exact ⟨lines token read, (fits read).name kind⟩
  cases made with
  | program each => exact fun statement member => (each statement member).place?
  | block read _ each =>
      exact ⟨lines _ read, fun statement member => (each statement member).place?⟩
  | letStatement read _ named inner => exact ⟨lines _ read, names named, inner.place?⟩
  | returnStatement read _ inner => exact ⟨lines _ read, inner.place?⟩
  | expressionStatement read inner => exact ⟨lines _ read, inner.place?⟩
  | identifier named => exact names named
  | integer read kind number =>
      obtain ⟨digits, low, high⟩ :=
        Decimal.positional_of_read? (run_of_mem_tokenize read kind) number
      exact ⟨lines _ read, low, high, _, read, kind, rfl, digits⟩
  | boolean read => exact lines _ read
  | prefixed read kind inner => exact ⟨lines _ read, (fits read).unary kind, inner.place?⟩
  | binary read kind first second =>
      exact ⟨lines _ read, (fits read).binary kind, first.place?, second.place?⟩
  | ifThen read _ test first => exact ⟨lines _ read, test.place?, first.place?⟩
  | ifElse read _ test first second =>
      exact ⟨lines _ read, test.place?, first.place?, second.place?⟩
  | function read _ named inner =>
      exact ⟨lines _ read, fun parameter member => names (named parameter member), inner.place?⟩
  | call read _ target each =>
      exact ⟨lines _ read, target.place?, fun argument member => (each argument member).place?⟩

end Made

end Node

/-- The lines of the tokens of a text are counted from one to that of the `eof` token. -/
theorem onLine_of_mem_tokenize (source : String) :
    ∃ eof, (tokenize source).getLast? = some eof ∧ eof.kind = .eof ∧
      ∀ token ∈ tokenize source, OnLine eof.line token.line := by
  obtain ⟨above, ordered⟩ := Token.ofSegmentsOnto_ordered 1 (Segment.scan source.toList)
  obtain ⟨eof, last, kind, below⟩ := (lexed_tokenize source).eof_last ordered
  exact ⟨eof, last, kind, fun token member => ⟨above token member, below token member⟩⟩

/-- **The parser's trees are well-formed.** Whatever a text looks like, under every
nesting limit and on every stack: parsing returns a program, or it is broken off by a
limit that cannot be written. Every node that the program holds is well-formed, and
nothing that is no node is found in it. Rendering it ends in a text or with the stack.
Evaluating it in a scope that leads to genuine functions reaches nodes only, so it does
not come to a value that is none, and the next program can be evaluated there. -/
theorem parseProgram_wellFormed (limit : Int) (levels : Nat) (source : String) :
    ∃ eof, (tokenize source).getLast? = some eof ∧ eof.kind = .eof ∧
      ((∃ program after,
          parseProgram .standard limit levels (.ofSource source) = (.parsed program, after) ∧
          program.place? = some .program ∧
          (∀ node, program.Holds node → node.WellFormed (tokenize source) eof.line) ∧
          (∀ depth, (∃ text, program.renderWithin depth = .ok text) ∨
            program.renderWithin depth = .error .stackExhausted) ∧
          ∀ (evaluator : Evaluator) depth scope machine, machine.heap.Genuine scope →
            (∀ reached, evaluator.Reaches ⟨depth, program, scope, machine⟩ reached →
              reached.node.place? ≠ none) ∧
            (∀ unknown, (evaluator.evaluateWithin depth program scope machine).1 ≠
              .error (.unknownNode unknown)) ∧
            (evaluator.evaluateWithin depth program scope machine).2.heap.Genuine scope) ∨
        ¬ Decimal.Writable limit ∧
          (parseProgram .standard limit levels (.ofSource source)).1 = .fault .tooLong) := by
  obtain ⟨eof, last, kind, lines⟩ := onLine_of_mem_tokenize source
  refine ⟨eof, last, kind, (parseProgram_outcome limit levels (.ofSource source)).imp_left ?_⟩
  rintro ⟨statements, after, parsed⟩
  have made := parseProgram_made parsed
  change Node.Made (Window.ofTokens (tokenize source)).tokens _ _ at made
  rw [Window.tokens_ofTokens (tokenize_ne_nil source)] at made
  refine ⟨_, _, parsed, made.place?, fun node holds => ?_, fun depth => ?_,
    fun evaluator depth scope machine functions =>
      evaluator.evaluate_genuine depth made.genuine functions⟩
  · obtain ⟨place, inner⟩ := made.held holds
    exact inner.wellFormed lines
  · have placed : (Node.program statements).Placed .scanned .program :=
      made.placed fun _ => fits_scanned
    have short (value : Int) (number : Lexicon.scanned.number value) :
        Lexicon.written.number value := number
    have renders := Node.renderWithin_placed short placed depth
    unfold Node.Renders at renders
    split at renders
    · exact .inl ⟨_, renders⟩
    · exact .inr renders

/-- A text that is broken in three places. What is kept of it are pieces of statements that
failed, and a block but for what is wrong in it. -/
theorem parseProgram_wellFormed_broken :
    let source := "let = 1;\nif (f()) \x7b 5 ) -٠٤٢ \x7d fn(a, 1) \x7b \x7d"
    let heap := Heap.empty.add ⟨[("f", .function [] (.block 1 []) 0)], none⟩
    ∃ program after,
      parseProgram .standard 100 50 (.ofSource source) = (.parsed program, after) ∧
      after.diagnostics.length = 7 ∧
      (∀ node, program.Holds node → node.WellFormed (tokenize source) 2) ∧
      (program.renderWithin 20).toOption = some "1; if (f()) \x7b 5; (-42); \x7d; 1;" ∧
      ∀ unknown, ((⟨"<input>", 10, 10⟩ : Evaluator).evaluateWithin 50 program 0
        (.ofHeap heap)).1 ≠ .error (.unknownNode unknown) := by
  intro source heap
  have functions : heap.Genuine 0 := by
    intro place scope name value parameters body link _ here bound closure
    rw [Heap.scope?_add] at here
    split at here
    · cases here
      simp only [Scope.find?, List.lookup_cons, List.lookup_nil] at bound
      split at bound
      · cases bound
        cases closure
        intro node held
        rcases held.cases_head with rfl | ⟨child, member, -⟩
        · exact Option.some_ne_none _
        · cases member
      · cases bound
    · cases here
  have lines : (tokenize source).getLast?.map Token.line = some 2 := by decide +kernel
  have recorded : (parseProgram .standard 100 50 (.ofSource source)).2.diagnostics.length = 7 := by
    decide +kernel
  have texts : (parseProgram .standard 100 50 (.ofSource source)).1.kept.map
      (fun program => (program.renderWithin 20).toOption) =
        [some "1; if (f()) \x7b 5; (-42); \x7d; 1;"] := by decide +kernel
  obtain ⟨eof, last, -, ⟨program, after, parsed, -, formed, -, evaluated⟩ | ⟨long, -⟩⟩ :=
    parseProgram_wellFormed 100 50 source
  swap
  · exact absurd (Settings.standard_writable .nesting) long
  rw [last] at lines
  rw [parsed] at recorded texts
  exact ⟨program, after, parsed, recorded, Option.some.inj lines ▸ formed,
    (List.cons.inj texts).1, (evaluated _ 50 0 (.ofHeap heap) functions).2.1⟩

end ExprLang
