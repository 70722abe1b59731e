/-
# ExprLang.Proofs.Eval.Genuine — evaluation among nodes

A value that is no node can stand in a tree that was built by hand, and an evaluation
that comes to it breaks off. A tree without such values may still call a function that
has one in its body, so the functions within reach of the scope have to be free of them
too (`Heap.Genuine`). Nothing else is asked of the scopes: what their names are bound to
may be signals or a host's objects.

Then the evaluation never comes to a value that is no node (`evaluate_genuine`). Each
activation that it reaches has a genuine node, on a heap whose functions are genuine
(`Invariant.genuine`). That the heaps stay so is evaluation on corresponding data, where a
tree corresponds to itself if it is genuine.
-/
import ExprLang.Proofs.Eval.Activation
import ExprLang.Proofs.Eval.Unmentioned
import ExprLang.Proofs.Node.Placed

namespace ExprLang

set_option autoImplicit false

namespace Node

/-- A tree has a node, as itself or somewhere below. -/
abbrev Holds (tree node : Node) : Prop :=
  Relation.ReflTransGen (fun whole child : Node => child ∈ whole.children) tree node

/-- A tree of nodes throughout. -/
def Genuine (tree : Node) : Prop := ∀ node, tree.Holds node → node.place? ≠ none

theorem Genuine.child {whole child : Node} (genuine : whole.Genuine)
    (member : child ∈ whole.children) : child.Genuine :=
  fun node held => genuine node (.head member held)

theorem parts_subset_children (node : Node) : node.parts ⊆ node.children := by
  cases node <;> simp [children, parts]

end Node

/-- Every function that is bound within reach of a place has a genuine body. -/
def Heap.Genuine (heap : Heap) (start : ScopeId) : Prop :=
  ∀ ⦃place scope name value parameters body link⦄, heap.Reaches start place →
    heap.scope? place = some scope → scope.find? name = some value →
    value.closure? = some (parameters, body, link) → body.Genuine

namespace Correspondence

/-- Nothing differs, and the nodes and functions in reach of the start are genuine. -/
def genuine (heap : Heap) (start : ScopeId) : Correspondence where
  node first second := first = second ∧ first.Genuine
  name first second := first = second
  place spot := heap.Reaches start spot ∨ heap.next ≤ spot
  known _ _ := True
  move spot := spot
  order before := before
  layer := by
    rintro node _ ⟨rfl, genuine⟩
    exact .self node (fun _ member => ⟨rfl, genuine.child member⟩) fun _ _ => rfl
  text := congrArg Name.text
  matter _ _ := trivial

/-- A heap whose functions are genuine corresponds to itself. -/
theorem heaps_genuine {heap : Heap} {start : ScopeId} (genuine : heap.Genuine start) :
    (Correspondence.genuine heap start).Heaps heap heap where
  scopes spot placed := by
    have reached {scope : Scope} (here : heap.scope? spot = some scope) :
        heap.Reaches start spot :=
      placed.resolve_right (Nat.not_le.2 (Heap.lt_next_of_scope? here))
    refine rel_scopes_iff.2 ⟨?_, fun scope here link enclosed => ?_, fun name _ => ?_⟩
    · simp [Correspondence.genuine]
    · exact .inl (.outer (reached here) here enclosed)
    · change Option.Rel _ _ ((heap.scope? spot).bind _)
      cases held : (heap.scope? spot).bind (·.find? name) with
      | none => exact .none
      | some value =>
          obtain ⟨scope, here, found⟩ := Option.bind_eq_some_iff.1 held
          refine .some (values_self (fun _ => rfl) fun parameters body link closure => ?_)
          exact ⟨.inl (.kept (reached here) here found closure), fun _ _ => rfl, rfl,
            genuine (reached here) here found closure⟩
  fresh _ later := .inr later
  next _ := rfl

/-- A function that corresponds to itself keeps a place that matters and has a genuine
body. -/
theorem closure_genuine {heap : Heap} {start : ScopeId} {value : Value}
    (same : (Correspondence.genuine heap start).Values value value) {parameters : List Name}
    {body : Node} {link : ScopeId} (closure : value.closure? = some (parameters, body, link)) :
    (Correspondence.genuine heap start).place link ∧ body.Genuine := by
  induction value with
  | returned value ih =>
      cases same with
      | returned inner => exact ih inner closure
  | function =>
      cases closure
      cases same with
      | function placed _ inner => exact ⟨placed, inner.2⟩
  | _ => cases closure

/-- A heap that corresponds to itself has genuine functions, also those that came after
the start. -/
theorem genuine_of_heaps {heap later : Heap} {start : ScopeId}
    (heaps : (Correspondence.genuine heap start).Heaps later later) : later.Genuine start := by
  have values {place : ScopeId} {scope : Scope} {name : String} {value : Value}
      (placed : (Correspondence.genuine heap start).place place)
      (here : later.scope? place = some scope) (bound : scope.find? name = some value) :
      (Correspondence.genuine heap start).Values value value := by
    have held := (rel_scopes_iff.1 (heaps.scopes place placed)).2.2 name trivial
    change Option.Rel _ _ ((later.scope? place).bind _) at held
    rw [here, Option.bind_some, bound] at held
    cases held with
    | some same => exact same
  have matters {place : ScopeId} (reaches : later.Reaches start place) :
      (Correspondence.genuine heap start).place place := by
    induction reaches with
    | start => exact .inl .start
    | outer _ here enclosed ih =>
        exact (rel_scopes_iff.1 (heaps.scopes _ ih)).2.1 _ here _ enclosed
    | kept _ here bound closure ih => exact (closure_genuine (values ih here bound) closure).1
  intro place scope name value parameters body link reaches here bound closure
  exact (closure_genuine (values (matters reaches) here bound) closure).2

end Correspondence

namespace Evaluator

open Correspondence

/-- Evaluation among genuine nodes and functions, as seen from a place of a heap. -/
def Invariant.genuine (heap : Heap) (start : ScopeId) (evaluator : Evaluator) :
    evaluator.Invariant where
  node := Node.Genuine
  place := (Correspondence.genuine heap start).place
  heap later := (Correspondence.genuine heap start).Heaps later later
  value result := (Correspondence.genuine heap start).Values result result
  part {whole _} genuine member := genuine.child (whole.parts_subset_children member)
  evaluated {levels whole scope machine} genuine placed heaps := by
    have follows := evaluate_corresponds (.genuine heap start) evaluator levels placed
      ⟨rfl, genuine⟩ machine machine ⟨heaps, rfl, rfl⟩
    refine ⟨follows.2.heap, fun result ended _ => ?_⟩
    have ends : Correspondence.Ends _ _ (evaluator.evaluateWithin levels whole scope machine).1 :=
      follows.1
    rw [ended] at ends
    cases ends with
    | ok same => exact same
  entered {before _ _ _ _} heaps callee given := by
    cases callee with
    | function keeps named inner =>
        have scopes := scopes_callScope named (List.forall₂_same.2 given) keeps before.next
        exact ⟨inner.2, heaps.fresh _ (Nat.le_refl _), heaps.add scopes⟩

/-- **Among nodes, evaluation comes to nodes only.** In a scope that leads to genuine
functions, all that the evaluation of a genuine tree reaches are nodes, so it is never left
because of a value that is none; and the scope leads to genuine functions afterwards. -/
theorem evaluate_genuine (evaluator : Evaluator) (levels : Nat) {node : Node}
    {scope : ScopeId} {machine : Machine} (whole : node.Genuine)
    (functions : machine.heap.Genuine scope) :
    (∀ reached, evaluator.Reaches ⟨levels, node, scope, machine⟩ reached →
        reached.node.place? ≠ none) ∧
      (∀ unknown, (evaluator.evaluateWithin levels node scope machine).1 ≠
        .error (.unknownNode unknown)) ∧
      (evaluator.evaluateWithin levels node scope machine).2.heap.Genuine scope := by
  have heaps := heaps_genuine functions
  have nodes (reached : Activation)
      (reaches : evaluator.Reaches ⟨levels, node, scope, machine⟩ reached) :
      reached.node.place? ≠ none := by
    have holds : (Invariant.genuine machine.heap scope evaluator).Holds
        ⟨levels, node, scope, machine⟩ := ⟨whole, .inl .start, heaps⟩
    exact (Invariant.reaches reaches holds).node _ .refl
  refine ⟨nodes, fun unknown broken => ?_, ?_⟩
  · have other : EvalFault.unknownNode unknown ≠ .stackExhausted := nofun
    change (evaluator.run ⟨levels, node, scope, machine⟩).1 = _ at broken
    obtain ⟨reached, reaches, refuses⟩ := (run_error_iff other).1 broken
    have here := nodes reached reaches
    generalize named : EvalFault.unknownNode unknown = fault at refuses
    cases refuses with
    | depth | calls => cases named
    | operator room passed failed =>
        rw [(Operator.applyInfix_error_iff.1 failed).1] at named
        cases named
    | sequence room => exact here rfl
    | foreign room => exact here rfl
  · exact genuine_of_heaps
      ((Invariant.genuine machine.heap scope evaluator).evaluated whole (.inl .start) heaps).1

/-- Without the condition on functions this fails: a genuine tree may call one whose body is
no node. -/
example :
    let heap := Heap.empty.add ⟨[("f", .function [] (.foreign (.other "NoneType")) 0)], none⟩
    let call : Node := .call 1 (.identifier ⟨"f", 1⟩) []
    (match ((⟨"<input>", 10, 10⟩ : Evaluator).evaluateWithin 50 call 0 (.ofHeap heap)).1 with
      | .ok _ => none
      | .error fault => some fault.kind) = some "UnknownNodeException" := by
  decide +kernel

end Evaluator

end ExprLang
