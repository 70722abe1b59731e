/-
# ExprLang.Proofs.Node.Canonical — trees that have a text

A tree that is placed by the rules of the language and has the names, numbers and
operators of the language (`Lexicon.written`) can be rendered: `text` is what it
is rendered to, and rendering fails only where the stack ends, exactly when the
tree is higher than the stack is deep (`renderWithin_eq`). Lines are not rendered,
so trees that are alike have one text (`renderWithin_erase`).
-/
import ExprLang.Node.Alike
import ExprLang.Node.Render
import ExprLang.Proofs.Node.Placed
import ExprLang.Proofs.Token.Spelled

namespace ExprLang

set_option autoImplicit false

/-- The names, numbers and operators of the language. A block is no statement. -/
def Lexicon.written : Lexicon where
  name := IsName
  number value := 0 ≤ value ∧ (toString value).length ≤ Decimal.digitLimit
  unary operator := operator ∈ ["!", "-"]
  binary operator := operator ∈ ["+", "-", "*", "/", "<", ">", "<=", ">=", "==", "!="]
  line _ := True
  blockStatement := False

namespace Node

mutual

/-- How many nodes lie on the longest path from the root to a leaf. A name that is
bound is a leaf, and never deeper than the value or the body beside it. -/
def height : Node → Nat
  | .program statements => heights statements + 1
  | .block _ statements => heights statements + 1
  | .letStatement _ _ value => value.height + 1
  | .returnStatement _ value => value.height + 1
  | .expressionStatement _ expression => expression.height + 1
  | .identifier _ | .integer .. | .boolean .. | .foreign _ => 1
  | .prefixed _ _ operand => operand.height + 1
  | .binary _ left _ right => max left.height right.height + 1
  | .ifThen _ condition consequence => max condition.height consequence.height + 1
  | .ifElse _ condition consequence alternative =>
      max condition.height (max consequence.height alternative.height) + 1
  | .function _ _ body => body.height + 1
  | .call _ callee arguments => max callee.height (heights arguments) + 1
  | .sequence items => heights items + 1

/-- The height of the highest tree of a list. -/
def heights : List Node → Nat
  | [] => 0
  | node :: rest => max node.height (heights rest)

end

mutual

/-- The canonical text, where there is one. -/
def text : Node → String
  | .program statements => " ".intercalate (statementTexts statements)
  | .letStatement _ name value => "let " ++ name.text ++ " = " ++ value.text ++ ";"
  | .returnStatement _ value => "return " ++ value.text ++ ";"
  | .expressionStatement _ expression => expression.text
  | .block _ [] => "\x7b \x7d"
  | .block _ (first :: rest) =>
      "\x7b " ++ " ".intercalate ((first.text ++ first.terminator) :: statementTexts rest) ++ " \x7d"
  | .identifier name => name.text
  | .integer _ value => toString value
  | .boolean _ value => if value then "true" else "false"
  | .prefixed _ operator operand => "(" ++ operator ++ operand.text ++ ")"
  | .binary _ left operator right => "(" ++ left.text ++ " " ++ operator ++ " " ++ right.text ++ ")"
  | .ifThen _ condition consequence => "if (" ++ condition.text ++ ") " ++ consequence.text
  | .ifElse _ condition consequence alternative =>
      "if (" ++ condition.text ++ ") " ++ consequence.text ++ " else " ++ alternative.text
  | .function _ parameters body =>
      "fn(" ++ commaSeparated (parameters.map Name.text) ++ ") " ++ body.text
  | .call _ callee arguments => callee.text ++ "(" ++ commaSeparated (texts arguments) ++ ")"
  | .sequence _ | .foreign _ => ""

/-- The texts of statements inside a sequence. -/
def statementTexts : List Node → List String
  | [] => []
  | statement :: rest => (statement.text ++ statement.terminator) :: statementTexts rest

/-- The texts of a list of trees. -/
def texts : List Node → List String
  | [] => []
  | node :: rest => node.text :: texts rest

end

/-! ## Rendering gives the text -/

/-- What rendering gives over a stack, if all that can fail is the stack. -/
def Renders {α : Type} (levels height : Nat) (text : α) (result : Except RenderFault α) : Prop :=
  result = if height ≤ levels then .ok text else .error .stackExhausted

namespace Renders

variable {α β : Type} {levels height : Nat}

theorem bind {other : Nat} {first : α} {second : β} {result : Except RenderFault α}
    {next : α → Except RenderFault β} (here : Renders levels height first result)
    (later : Renders levels other second (next first)) :
    Renders levels (max height other) second (result >>= next) := by
  unfold Renders at *
  rw [here]
  by_cases fits : height ≤ levels
  · rw [if_pos fits]
    change next first = _
    rw [later]
    by_cases fits' : other ≤ levels
    · rw [if_pos fits', if_pos (Nat.max_le.2 ⟨fits, fits'⟩)]
    · rw [if_neg fits', if_neg fun both => fits' (Nat.max_le.1 both).2]
  · rw [if_neg fits, if_neg fun both => fits (Nat.max_le.1 both).1]
    rfl

theorem done (value : α) : Renders levels 0 value (pure value) := by
  unfold Renders
  rw [if_pos (Nat.zero_le levels)]
  rfl

theorem map {text : α} {result : Except RenderFault α} (here : Renders levels height text result)
    (change : α → β) :
    Renders levels height (change text) (result >>= fun text => pure (change text)) := by
  have whole : Renders levels (max height 0) (change text)
      (result >>= fun text => pure (change text)) := here.bind (.done _)
  rwa [Nat.max_zero] at whole

/-- The trees of a list, one after the other. -/
theorem all {write : Node → Except RenderFault α} {text : Node → α} {nodes : List Node}
    (each : ∀ node ∈ nodes, Renders levels node.height (text node) (write node)) :
    Renders levels (heights nodes) (nodes.map text) (nodes.mapM write) := by
  induction nodes with
  | nil => exact .done []
  | cons node rest ih =>
      rw [List.mapM_cons, heights, List.map_cons]
      refine (each node (by simp)).bind ?_
      exact (ih fun other member => each other (by simp [member])).map _

/-- A node takes one level of the stack. -/
theorem node {node : Node} {text : String}
    (inside : ∀ levels, Renders levels height text (node.renderWithin (levels + 1)))
    (levels : Nat) : Renders levels (height + 1) text (node.renderWithin levels) := by
  cases levels with
  | zero => rfl
  | succ levels =>
      have here := inside levels
      unfold Renders at *
      rw [here]
      simp only [Nat.add_le_add_iff_right]

end Renders

theorem statementTexts_eq (statements : List Node) :
    statementTexts statements =
      statements.map fun statement => statement.text ++ statement.terminator := by
  induction statements with
  | nil => rfl
  | cons statement rest ih => rw [statementTexts, ih, List.map_cons]

theorem texts_eq (nodes : List Node) : texts nodes = nodes.map text := by
  induction nodes with
  | nil => rfl
  | cons node rest ih => rw [texts, ih, List.map_cons]

theorem text_block (line : Int) (statements : List Node) (some_ : statements ≠ []) :
    (block line statements).text =
      "\x7b " ++ " ".intercalate (statementTexts statements) ++ " \x7d" := by
  cases statements with
  | nil => exact absurd rfl some_
  | cons first rest => rw [text, statementTexts]

theorem renders_integer {value : Int} (levels : Nat) (number : Lexicon.written.number value) :
    Renders levels 0 (toString value) (renderInteger value) := by
  have written := Decimal.write?_of_length_le number.1 number.2
  unfold renderInteger
  rw [written]
  exact .done _

theorem renders_sequence {levels : Nat} {statements : List Node}
    (each : ∀ statement ∈ statements,
      Renders levels statement.height statement.text (statement.renderWithin levels)) :
    Renders levels (heights statements) (" ".intercalate (statementTexts statements))
      (renderSequence (renderWithin levels) statements) := by
  rw [statementTexts_eq]
  refine Renders.map (Renders.all fun statement member => ?_) _
  exact (each statement member).map _

/-- Rendering a tree whose numbers are short enough gives its text, or the stack is
not deep enough. -/
theorem renderWithin_placed {lexicon : Lexicon}
    (numbers : ∀ value, lexicon.number value → Lexicon.written.number value) {place : Place}
    {node : Node} (placed : node.Placed lexicon place) (levels : Nat) :
    Renders levels node.height node.text (node.renderWithin levels) := by
  induction placed generalizing levels with
  | program each ih =>
      refine .node (fun levels => ?_) levels
      exact renders_sequence fun statement member => ih statement member levels
  | @block line statements _ each ih =>
      refine .node (fun levels => ?_) levels
      cases statements with
      | nil => exact .done _
      | cons first rest =>
          rw [text_block line _ (by simp)]
          exact (renders_sequence fun s member => ih s member levels).map _
  | blockStatement _ _ ih => exact ih levels
  | letStatement _ _ _ ih => exact .node (fun levels => (ih levels).map _) levels
  | returnStatement _ _ ih => exact .node (fun levels => (ih levels).map _) levels
  | expressionStatement _ _ ih => exact .node ih levels
  | identifier => exact .node (fun levels => .done _) levels
  | @integer line value _ number =>
      have inside (levels : Nat) : Renders levels 0 (toString value)
          ((Node.integer line value).renderWithin (levels + 1)) :=
        renders_integer levels (numbers value number)
      exact .node inside levels
  | boolean => exact .node (fun levels => .done _) levels
  | prefixed _ _ _ ih => exact .node (fun levels => (ih levels).map _) levels
  | binary _ _ _ _ ih ih' =>
      exact .node (fun levels => (ih levels).bind ((ih' levels).map _)) levels
  | ifThen _ _ _ ih ih' =>
      exact .node (fun levels => (ih levels).bind ((ih' levels).map _)) levels
  | ifElse _ _ _ _ ih ih' ih'' =>
      exact .node (fun levels => (ih levels).bind ((ih' levels).bind ((ih'' levels).map _))) levels
  | function _ _ _ ih => exact .node (fun levels => (ih levels).map _) levels
  | call _ _ _ ih ih' =>
      rw [height, Nat.max_comm, text, texts_eq]
      exact .node (fun levels => (Renders.all fun a member => ih' a member levels).bind
        ((ih levels).map _)) levels

/-- Rendering a written tree gives its text, or the stack is not deep enough. -/
theorem renderWithin_eq {place : Place} {node : Node} (placed : node.Placed .written place)
    (levels : Nat) : Renders levels node.height node.text (node.renderWithin levels) :=
  renderWithin_placed (fun _ => id) placed levels

/-! ## Lines are not rendered -/

theorem mapM_eraseAll {write : Node → Except RenderFault String}
    (same : ∀ node : Node, write node.erase = write node) (nodes : List Node) :
    (eraseAll nodes).mapM write = nodes.mapM write := by
  induction nodes with
  | nil => rfl
  | cons node rest ih => rw [eraseAll, List.mapM_cons, List.mapM_cons, same, ih]

theorem terminator_erase (node : Node) : node.erase.terminator = node.terminator := by
  cases node <;> rfl

theorem renderSequence_eraseAll {render : Node → Except RenderFault String}
    (same : ∀ node : Node, render node.erase = render node) (statements : List Node) :
    renderSequence render (eraseAll statements) = renderSequence render statements := by
  unfold renderSequence
  rw [mapM_eraseAll]
  intro node
  unfold renderStatement
  rw [same, terminator_erase]

theorem renderWithin_erase (levels : Nat) (node : Node) :
    node.erase.renderWithin levels = node.renderWithin levels := by
  induction levels generalizing node with
  | zero => rfl
  | succ levels ih =>
      cases node with
      | program statements => exact renderSequence_eraseAll ih statements
      | block line statements =>
          cases statements with
          | nil => rfl
          | cons first rest =>
              change (renderSequence _ (eraseAll (first :: rest)) >>= _) = _
              rw [renderSequence_eraseAll ih]
              rfl
      | function line parameters body =>
          simp [erase, renderWithin, ih, eraseName, Function.comp_def]
      | call line callee arguments => simp [erase, renderWithin, ih, mapM_eraseAll ih]
      | _ => simp [erase, renderWithin, ih, eraseName, typeName]

end Node

end ExprLang
