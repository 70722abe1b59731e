/-
# ExprLang.Node.Alike — equality of trees that does not look at lines

Sources that differ in layout only have trees that differ in lines only. `erase`
sets every line to zero; `alike` compares two trees and passes the lines over.
`alike_iff` says that the two agree: trees are alike exactly when they erase to
the same tree.
-/
import ExprLang.Node

namespace ExprLang.Node

set_option autoImplicit false

/-- A name without its line. -/
def eraseName (name : Name) : Name := ⟨name.text, 0⟩

mutual

/-- The tree with every line set to zero. -/
def erase : Node → Node
  | .program statements => .program (eraseAll statements)
  | .block _ statements => .block 0 (eraseAll statements)
  | .letStatement _ name value => .letStatement 0 (eraseName name) value.erase
  | .returnStatement _ value => .returnStatement 0 value.erase
  | .expressionStatement _ expression => .expressionStatement 0 expression.erase
  | .identifier name => .identifier (eraseName name)
  | .integer _ value => .integer 0 value
  | .boolean _ value => .boolean 0 value
  | .prefixed _ operator operand => .prefixed 0 operator operand.erase
  | .binary _ left operator right => .binary 0 left.erase operator right.erase
  | .ifThen _ condition consequence => .ifThen 0 condition.erase consequence.erase
  | .ifElse _ condition consequence alternative =>
      .ifElse 0 condition.erase consequence.erase alternative.erase
  | .function _ parameters body => .function 0 (parameters.map eraseName) body.erase
  | .call _ callee arguments => .call 0 callee.erase (eraseAll arguments)
  | .sequence items => .sequence (eraseAll items)
  | .foreign value => .foreign value

/-- The trees of a list with every line set to zero. -/
def eraseAll : List Node → List Node
  | [] => []
  | node :: rest => node.erase :: eraseAll rest

end

theorem eraseAll_eq_map (nodes : List Node) : eraseAll nodes = nodes.map erase := by
  induction nodes with
  | nil => rfl
  | cons node nodes ih => rw [eraseAll, ih, List.map_cons]

/-- Whether two parameter lists have the same names. -/
def sameNames : List Name → List Name → Bool
  | [], [] => true
  | first :: firsts, second :: seconds => first.text == second.text && sameNames firsts seconds
  | _, _ => false

mutual

/-- Whether two trees are equal, lines aside. -/
def alike : Node → Node → Bool
  | .program firsts, .program seconds => alikeAll firsts seconds
  | .block _ firsts, .block _ seconds => alikeAll firsts seconds
  | .letStatement _ name value, .letStatement _ name' value' =>
      name.text == name'.text && alike value value'
  | .returnStatement _ value, .returnStatement _ value' => alike value value'
  | .expressionStatement _ inner, .expressionStatement _ inner' => alike inner inner'
  | .identifier name, .identifier name' => name.text == name'.text
  | .integer _ value, .integer _ value' => value == value'
  | .boolean _ value, .boolean _ value' => value == value'
  | .prefixed _ operator operand, .prefixed _ operator' operand' =>
      operator == operator' && alike operand operand'
  | .binary _ left operator right, .binary _ left' operator' right' =>
      alike left left' && operator == operator' && alike right right'
  | .ifThen _ condition consequence, .ifThen _ condition' consequence' =>
      alike condition condition' && alike consequence consequence'
  | .ifElse _ condition consequence alternative, .ifElse _ condition' consequence' alternative' =>
      alike condition condition' && alike consequence consequence' &&
        alike alternative alternative'
  | .function _ parameters body, .function _ parameters' body' =>
      sameNames parameters parameters' && alike body body'
  | .call _ callee arguments, .call _ callee' arguments' =>
      alike callee callee' && alikeAll arguments arguments'
  | .sequence items, .sequence items' => alikeAll items items'
  | .foreign value, .foreign value' => value == value'
  | _, _ => false

/-- Whether two lists of trees are equal, lines aside. -/
def alikeAll : List Node → List Node → Bool
  | [], [] => true
  | first :: firsts, second :: seconds => alike first second && alikeAll firsts seconds
  | _, _ => false

end

theorem sameNames_iff (firsts seconds : List Name) :
    sameNames firsts seconds = true ↔ firsts.map eraseName = seconds.map eraseName := by
  induction firsts generalizing seconds with
  | nil => cases seconds <;> simp [sameNames]
  | cons first firsts ih => cases seconds <;> simp [sameNames, eraseName, ih]

mutual

/-- Two trees are alike exactly when they erase to the same tree. -/
theorem alike_iff : ∀ first second : Node, alike first second = true ↔ first.erase = second.erase
  | .program firsts, second => by
      cases second <;> simp [alike, erase, alikeAll_iff firsts]
  | .block _ firsts, second => by
      cases second <;> simp [alike, erase, alikeAll_iff firsts]
  | .letStatement _ name value, second => by
      cases second <;> simp [alike, erase, eraseName, alike_iff value]
  | .returnStatement _ value, second => by
      cases second <;> simp [alike, erase, alike_iff value]
  | .expressionStatement _ inner, second => by
      cases second <;> simp [alike, erase, alike_iff inner]
  | .identifier name, second => by
      cases second <;> simp [alike, erase, eraseName]
  | .integer _ value, second => by
      cases second <;> simp [alike, erase]
  | .boolean _ value, second => by
      cases second <;> simp [alike, erase]
  | .prefixed _ operator operand, second => by
      cases second <;> simp [alike, erase, alike_iff operand]
  | .binary _ left operator right, second => by
      cases second <;> simp [alike, erase, alike_iff left, alike_iff right, and_assoc]
  | .ifThen _ condition consequence, second => by
      cases second <;> simp [alike, erase, alike_iff condition, alike_iff consequence]
  | .ifElse _ condition consequence alternative, second => by
      cases second <;>
        simp [alike, erase, alike_iff condition, alike_iff consequence, alike_iff alternative,
          and_assoc]
  | .function _ parameters body, second => by
      cases second <;> simp [alike, erase, sameNames_iff, alike_iff body]
  | .call _ callee arguments, second => by
      cases second <;> simp [alike, erase, alike_iff callee, alikeAll_iff arguments]
  | .sequence items, second => by
      cases second <;> simp [alike, erase, alikeAll_iff items]
  | .foreign value, second => by
      cases second <;> simp [alike, erase]

theorem alikeAll_iff :
    ∀ firsts seconds : List Node, alikeAll firsts seconds = true ↔ eraseAll firsts = eraseAll seconds
  | [], seconds => by cases seconds <;> simp [alikeAll, eraseAll]
  | first :: firsts, seconds => by
      cases seconds <;> simp [alikeAll, eraseAll, alike_iff first, alikeAll_iff firsts]

end

end ExprLang.Node
