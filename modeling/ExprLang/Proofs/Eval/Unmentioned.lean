/-
# ExprLang.Proofs.Eval.Unmentioned — names that nothing mentions do not matter

An evaluation asks a scope for the names that its node mentions, and for those that
the functions it calls mention. It finds these functions in the scopes that it can
reach: along the links of scopes, and from a function to the scope that it keeps. So
a name that stands neither in the node nor in any function within reach can be bound
to anything, in any scope, and the evaluation goes the same way
(`evaluate_unmentioned`).

Side by side the two evaluations correspond in the scopes within reach and in those
they make, for every name but the one that was bound. The scopes out of reach are
not written to.
-/
import ExprLang.Proofs.Eval.Correspondence

namespace ExprLang

set_option autoImplicit false

namespace Node

mutual

/-- The names that stand anywhere in a node: identifiers, names of bindings and
parameters. -/
def mentioned : Node → List String
  | .program statements => mentionedAll statements
  | .block _ statements => mentionedAll statements
  | .letStatement _ name value => name.text :: value.mentioned
  | .returnStatement _ value => value.mentioned
  | .expressionStatement _ expression => expression.mentioned
  | .identifier name => [name.text]
  | .prefixed _ _ operand => operand.mentioned
  | .binary _ left _ right => left.mentioned ++ right.mentioned
  | .ifThen _ condition consequence => condition.mentioned ++ consequence.mentioned
  | .ifElse _ condition consequence alternative =>
      condition.mentioned ++ (consequence.mentioned ++ alternative.mentioned)
  | .function _ parameters body => parameters.map Name.text ++ body.mentioned
  | .call _ callee arguments => callee.mentioned ++ mentionedAll arguments
  | .integer .. | .boolean .. | .sequence _ | .foreign _ => []

/-- The names that stand in the nodes of a list. -/
def mentionedAll : List Node → List String
  | [] => []
  | node :: rest => node.mentioned ++ mentionedAll rest

end

theorem mentionedAll_eq_flatMap (nodes : List Node) :
    mentionedAll nodes = nodes.flatMap mentioned := by
  induction nodes with
  | nil => rfl
  | cons node rest ih => rw [mentionedAll, ih, List.flatMap_cons]

/-- What a child of a node mentions, the node mentions. -/
theorem mentioned_of_child {child node : Node} (held : child ∈ node.children) :
    child.mentioned ⊆ node.mentioned := by
  intro name named
  cases node with
  | program | block =>
      rw [mentioned, mentionedAll_eq_flatMap]
      exact List.mem_flatMap.2 ⟨child, held, named⟩
  | call line callee arguments =>
      rw [mentioned, mentionedAll_eq_flatMap, List.mem_append]
      rcases List.mem_cons.1 held with rfl | later
      · exact .inl named
      · exact .inr (List.mem_flatMap.2 ⟨child, later, named⟩)
  | identifier | integer | boolean | sequence | foreign => cases held
  | _ =>
      simp only [children, parts, List.mem_cons, List.not_mem_nil, or_false] at held
      grind [mentioned]

theorem mentioned_of_name {node : Node} {name : Name} (named : name ∈ node.names) :
    name.text ∈ node.mentioned := by
  cases node with
  | function line parameters body =>
      exact List.mem_append_left _ (List.mem_map_of_mem named)
  | _ => simp_all [names, mentioned]

mutual

/-- A name that a node binds stands in it. -/
theorem letNames_subset_mentioned : ∀ node : Node, node.letNames ⊆ node.mentioned
  | .program statements | .block _ statements => letNamesAll_subset_mentionedAll statements
  | .letStatement _ name value =>
      List.cons_subset_cons name.text (letNames_subset_mentioned value)
  | .returnStatement _ inner | .expressionStatement _ inner | .prefixed _ _ inner =>
      letNames_subset_mentioned inner
  | .binary _ left _ right => by
      have first := letNames_subset_mentioned left
      have second := letNames_subset_mentioned right
      grind [letNames, mentioned]
  | .ifThen _ condition consequence => by
      have first := letNames_subset_mentioned condition
      have second := letNames_subset_mentioned consequence
      grind [letNames, mentioned]
  | .ifElse _ condition consequence alternative => by
      have first := letNames_subset_mentioned condition
      have second := letNames_subset_mentioned consequence
      have third := letNames_subset_mentioned alternative
      grind [letNames, mentioned]
  | .call _ callee arguments => by
      have first := letNames_subset_mentioned callee
      have second := letNamesAll_subset_mentionedAll arguments
      grind [letNames, mentioned]
  | .identifier _ | .integer .. | .boolean .. | .function .. | .sequence _ | .foreign _ =>
      List.nil_subset _

theorem letNamesAll_subset_mentionedAll :
    ∀ nodes : List Node, letNamesAll nodes ⊆ mentionedAll nodes
  | [] => List.nil_subset _
  | node :: rest => by
      have first := letNames_subset_mentioned node
      have second := letNamesAll_subset_mentionedAll rest
      grind [letNamesAll, mentionedAll]

end

end Node

/-- The parameters, the body and the scope of a function, also of one that a `return`
carries. -/
def Value.closure? : Value → Option (List Name × Node × ScopeId)
  | .function parameters body scope => some (parameters, body, scope)
  | .returned value => value.closure?
  | _ => none

/-- A name that stands neither among parameters nor in a body. -/
def Unmentioned (text : String) (parameters : List Name) (body : Node) : Prop :=
  text ∉ parameters.map Name.text ∧ text ∉ body.mentioned

namespace Heap

/-- The places within reach of a place, by way of enclosing scopes and of scopes that
bound functions keep. -/
inductive Reaches (heap : Heap) (start : ScopeId) : ScopeId → Prop where
  | start : Reaches heap start start
  | outer {place link : ScopeId} {scope : Scope} (reaches : Reaches heap start place)
      (here : heap.scope? place = some scope) (enclosed : scope.outer = some link) :
      Reaches heap start link
  | kept {place link : ScopeId} {scope : Scope} {name : String} {value : Value}
      {parameters : List Name} {body : Node} (reaches : Reaches heap start place)
      (here : heap.scope? place = some scope) (bound : scope.find? name = some value)
      (closure : value.closure? = some (parameters, body, link)) : Reaches heap start link

/-- No function that is bound within reach of a place mentions the name. -/
def Avoids (heap : Heap) (start : ScopeId) (text : String) : Prop :=
  ∀ {place scope name value parameters body link}, heap.Reaches start place →
    heap.scope? place = some scope → scope.find? name = some value →
    value.closure? = some (parameters, body, link) → Unmentioned text parameters body

/-- The same scopes with the same bindings, but for one name in one place. -/
structure SameBut (place : ScopeId) (text : String) (heap other : Heap) : Prop where
  outer : ∀ spot, (other.scope? spot).map Scope.outer = (heap.scope? spot).map Scope.outer
  bound : ∀ spot name, ¬ (spot = place ∧ name = text) →
    (other.scope? spot).bind (·.find? name) = (heap.scope? spot).bind (·.find? name)

theorem sameBut_set (heap : Heap) (place : ScopeId) (text : String) (value : Value) :
    heap.SameBut place text (heap.set place text value) where
  outer spot := by
    rw [scope?_set]
    split
    · rw [Option.map_map]
      rfl
    · rfl
  bound spot name apart := by
    rw [scope?_set]
    split
    · next here =>
        have different : name ≠ text := fun same => apart ⟨here.symm, same⟩
        cases heap.scope? spot with
        | none => rfl
        | some scope => exact scope.find?_set_of_ne value different
    · rfl

/-- A name that is not written to keeps its value in every scope that was there. -/
theorem Frame.find?_of_not_mem {scope place : ScopeId} {names : List String} {before after : Heap}
    (frame : Frame scope names before after) (existed : place < before.next) {name : String}
    (absent : name ∉ names) :
    (after.scope? place).bind (·.find? name) = (before.scope? place).bind (·.find? name) := by
  by_cases own : place = scope
  · subst own
    obtain ⟨held, here⟩ : ∃ held, before.scope? place = some held :=
      ⟨_, Array.getElem?_eq_getElem existed⟩
    obtain ⟨left, there, extended⟩ := frame.own held here
    rw [here, there]
    exact extended.others name absent
  · rw [frame.others place existed own]

end Heap

/-- A node that does not mention a name matches itself, and nothing in it does. -/
theorem Node.matches_of_unmentioned {text : String} {first second : Node}
    (same : first = second ∧ text ∉ first.mentioned) :
    first.Matches (fun node other => node = other ∧ text ∉ node.mentioned)
      (fun name other => name = other ∧ name.text ≠ text) second := by
  obtain ⟨rfl, absent⟩ := same
  refine .self first (fun child held => ⟨rfl, fun named => ?_⟩) fun name held => ⟨rfl, ?_⟩
  · exact absent (mentioned_of_child held named)
  · rintro rfl
    exact absent (mentioned_of_name held)

namespace Correspondence

/-- Nothing differs but what one name is bound to in one place, and no node or
function in reach of the start mentions the name. -/
def unmentioned (heap : Heap) (start place : ScopeId) (text : String) : Correspondence where
  node first second := first = second ∧ text ∉ first.mentioned
  name first second := first = second ∧ first.text ≠ text
  place spot := heap.Reaches start spot ∨ heap.next ≤ spot
  known spot name := ¬ (spot = place ∧ name = text)
  move spot := spot
  order before := before
  layer := Node.matches_of_unmentioned
  text same := congrArg Name.text same.1
  matter same _ here := same.2 here.2

variable {heap : Heap} {start place : ScopeId} {text : String}

/-- Corresponding values are the same. -/
theorem eq_of_values {first second : Value}
    (values : (unmentioned heap start place text).Values first second) : second = first := by
  induction values with
  | returned _ ih => exact congrArg Value.returned ih
  | @function parameters parameters' body body' scope placed named inner =>
      obtain ⟨rfl, -⟩ := inner
      have same : List.Forall₂ Eq parameters parameters' := named.imp fun _ _ => And.left
      rw [List.forall₂_eq_eq_eq] at same
      rw [same]
      rfl
  | _ => rfl

theorem eq_of_ends {first second : Except EvalFault Value}
    (ends : (unmentioned heap start place text).Ends first second) : second = first := by
  cases ends with
  | ok values => exact congrArg Except.ok (eq_of_values values)
  | error fault => rfl

/-- Where scopes are not moved, a value corresponds to itself if its function, if it
has one, keeps a place that matters and is made of what corresponds to itself. -/
theorem values_self {correspondence : Correspondence}
    (still : ∀ spot, correspondence.move spot = spot) {value : Value}
    (within : ∀ parameters body link, value.closure? = some (parameters, body, link) →
      correspondence.place link ∧ (∀ name ∈ parameters, correspondence.name name name) ∧
        correspondence.node body body) :
    correspondence.Values value value := by
  induction value with
  | returned value ih => exact .returned (ih within)
  | function parameters body scope =>
      obtain ⟨placed, named, inner⟩ := within parameters body scope rfl
      have moved : correspondence.Values (.function parameters body scope)
          (.function parameters body (correspondence.move scope)) :=
        .function placed (List.forall₂_same.2 named) inner
      rwa [still] at moved
  | integer value => exact .integer value
  | boolean value => exact .boolean value
  | null => exact .null
  | object => exact .object
  | error cause => exact .error cause

theorem eq_of_held {first second : Option Value}
    (held : Option.Rel (unmentioned heap start place text).Values first second) :
    second = first := by
  cases held with
  | none => rfl
  | some values => exact congrArg some (eq_of_values values)

/-- Heaps that differ in the name only correspond. -/
theorem heaps_of_sameBut {other : Heap} (avoids : heap.Avoids start text)
    (same : heap.SameBut place text other) (next : heap.next = other.next) :
    (unmentioned heap start place text).Heaps heap other where
  scopes spot placed := by
    have reached {scope : Scope} (here : heap.scope? spot = some scope) :
        heap.Reaches start spot :=
      placed.resolve_right (Nat.not_le.2 (Heap.lt_next_of_scope? here))
    refine rel_scopes_iff.2 ⟨?_, fun scope here link enclosed => ?_, fun name known => ?_⟩
    · simpa [unmentioned] using same.outer spot
    · exact .inl (.outer (reached here) here enclosed)
    · change Option.Rel _ _ ((other.scope? spot).bind _)
      rw [same.bound spot name known]
      cases held : (heap.scope? spot).bind (·.find? name) with
      | none => exact .none
      | some value =>
          obtain ⟨scope, here, found⟩ := Option.bind_eq_some_iff.1 held
          refine .some (values_self (fun _ => rfl) fun parameters body link closure => ?_)
          obtain ⟨absent, absent'⟩ := avoids (reached here) here found closure
          refine ⟨.inl (.kept (reached here) here found closure), fun name member => ⟨rfl, ?_⟩,
            rfl, absent'⟩
          rintro rfl
          exact absent (List.mem_map_of_mem member)
  fresh _ later := .inr later
  next _ := congrArg (· + _) next

/-- Corresponding heaps have the same bindings in the scopes that matter, but for the
name. -/
theorem same_of_heaps {first second : Heap} {spot : ScopeId}
    (heaps : (unmentioned heap start place text).Heaps first second)
    (placed : (unmentioned heap start place text).place spot) :
    (second.scope? spot).map Scope.outer = (first.scope? spot).map Scope.outer ∧
      ∀ name, ¬ (spot = place ∧ name = text) →
        (second.scope? spot).bind (·.find? name) = (first.scope? spot).bind (·.find? name) := by
  obtain ⟨outer, -, bound⟩ := rel_scopes_iff.1 (heaps.scopes spot placed)
  exact ⟨by simpa [unmentioned] using outer, fun name apart => eq_of_held (bound name apart)⟩

end Correspondence

namespace Evaluator

/-- **Names that nothing mentions do not matter.** Whatever the node, the heap, the
limits, the counters and the stack: if a name stands neither in the node nor in any
function within reach of the scope, then binding it to any value in any scope that
exists changes neither the value that the evaluation ends in nor the fault that it
breaks off with. The same scopes are left with the same bindings, but for the name
itself, which in that scope still has the value. -/
theorem evaluate_unmentioned (evaluator : Evaluator) (levels : Nat) (node : Node)
    (scope : ScopeId) (machine : Machine) {text : String} (absent : text ∉ node.mentioned)
    (avoids : machine.heap.Avoids scope text) {place : ScopeId}
    (existed : place < machine.heap.next) (value : Value) :
    let plain := evaluator.evaluateWithin levels node scope machine
    let bound := evaluator.evaluateWithin levels node scope
      { machine with heap := machine.heap.set place text value }
    bound.1 = plain.1 ∧ plain.2.heap.SameBut place text bound.2.heap ∧
      (bound.2.heap.scope? place).bind (·.find? text) = some value := by
  intro plain bound
  let changed : Machine := { machine with heap := machine.heap.set place text value }
  have same := machine.heap.sameBut_set place text value
  have next : changed.heap.next = machine.heap.next := machine.heap.next_set place text value
  let unmentioned := Correspondence.unmentioned machine.heap scope place text
  have machines : unmentioned.Machines machine changed :=
    ⟨Correspondence.heaps_of_sameBut avoids same next.symm, rfl, rfl⟩
  obtain ⟨ends, after⟩ := Correspondence.evaluate_corresponds unmentioned evaluator levels
    (.inl .start) ⟨rfl, absent⟩ _ _ machines
  have frame := evaluator.within_framed levels node scope machine
  have frame' := evaluator.within_framed levels node scope changed
  have kept (spot : ScopeId) :
      (bound.2.heap.scope? spot).map Scope.outer = (plain.2.heap.scope? spot).map Scope.outer ∧
        ∀ name, ¬ (spot = place ∧ name = text) →
          (bound.2.heap.scope? spot).bind (·.find? name) =
            (plain.2.heap.scope? spot).bind (·.find? name) := by
    by_cases placed : unmentioned.place spot
    · exact Correspondence.same_of_heaps after.heap placed
    -- A scope out of reach is not the one that the evaluation writes to.
    · have out : ¬ machine.heap.Reaches scope spot := fun reached => placed (.inl reached)
      have older : spot < machine.heap.next := Nat.not_le.1 fun later => placed (.inr later)
      have other : spot ≠ scope := fun own => out (own ▸ .start)
      rw [frame.others spot older other, frame'.others spot (next ▸ older) other]
      exact ⟨same.outer spot, same.bound spot⟩
  have left : plain.2.heap.SameBut place text bound.2.heap :=
    ⟨fun spot => (kept spot).1, fun spot => (kept spot).2⟩
  refine ⟨Correspondence.eq_of_ends ends, left, ?_⟩
  have unwritten : text ∉ node.letNames := fun named =>
    absent (node.letNames_subset_mentioned named)
  rw [frame'.find?_of_not_mem (next ▸ existed) unwritten, Heap.scope?_set, if_pos rfl]
  obtain ⟨held, here⟩ : ∃ held, machine.heap.scope? place = some held :=
    ⟨_, Array.getElem?_eq_getElem existed⟩
  rw [here]
  exact held.find?_set_self text value

/-- An empty scope in one that binds a function which makes functions. -/
def enclosed : Heap :=
  let sum : Node := .binary 1 (.identifier ⟨"n", 1⟩) "+" (.identifier ⟨"m", 1⟩)
  let made : Node := .function 1 [⟨"m", 1⟩] (.block 1 [.expressionStatement 1 sum])
  let adder : Value := .function [⟨"n", 1⟩] (.block 1 [.expressionStatement 1 made]) 0
  (Heap.empty.add ⟨[("adder", adder)], none⟩).add ⟨[], some 0⟩

theorem enclosed_avoids : enclosed.Avoids 1 "x" := by
  intro place scope name value parameters body link _ here bound closure
  simp only [enclosed, Heap.scope?_add] at here
  split at here
  · cases here
    cases bound
  split at here
  · cases here
    rw [Scope.find?, List.lookup_cons] at bound
    split at bound
    · cases bound
      cases closure
      exact ⟨by decide, by decide⟩
    · cases bound
  · cases here

/-- Two calls through a scope in which an error is bound to a name that nothing
mentions. -/
theorem evaluate_unmentioned_enclosed :
    let add : Node := .call 1 (.identifier ⟨"adder", 1⟩) [.integer 1 2]
    let program : Node := .program [.letStatement 1 ⟨"add", 1⟩ add,
      .expressionStatement 1 (.call 1 (.identifier ⟨"add", 1⟩) [.integer 1 3])]
    let unused : Value := .error (.reported "unused")
    let plain := standard.evaluateWithin 9 program 1 (.ofHeap enclosed)
    let bound := standard.evaluateWithin 9 program 1 (.ofHeap (enclosed.set 0 "x" unused))
    bound.1.toOption.bind (fun value => (value.display 9).toOption) = some "5" ∧
      plain.2.heap.SameBut 0 "x" bound.2.heap ∧
      (bound.2.heap.scope? 0).bind (·.find? "x") = some unused := by
  intro add program unused plain bound
  obtain ⟨ends, same, kept⟩ := standard.evaluate_unmentioned 9 program 1 (.ofHeap enclosed)
    (by decide) enclosed_avoids (show 0 < enclosed.next by decide) unused
  have equal : bound.1 = plain.1 := ends
  refine ⟨?_, same, kept⟩
  rw [equal]
  decide +kernel

end Evaluator

end ExprLang
