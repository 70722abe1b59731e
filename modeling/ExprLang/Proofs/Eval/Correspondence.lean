/-
# ExprLang.Proofs.Eval.Correspondence — two evaluations side by side

Two evaluations go the same way when nothing that evaluation looks at tells them
apart. A correspondence says what may differ: which nodes stand for which, as
long as they have the same form, which scopes matter and which names in them, and
where the scopes of the one heap are found in the other. Scopes may be moved, but
not out of order, since links are followed to earlier places only.

From there values, scopes, heaps and machines correspond when they are made of
corresponding parts. `evaluate_corresponds` says that corresponding nodes,
evaluated in corresponding scopes on corresponding machines, end in corresponding
results, be they values or faults, and leave corresponding machines.
-/
import Mathlib.Data.List.Forall2
import ExprLang.Proofs.Eval.Frame
import ExprLang.Proofs.Eval.Ordered

namespace ExprLang

set_option autoImplicit false

namespace Node

/-- The nodes that a node is made of: its parts, or the body of a function literal. -/
def children : Node → List Node
  | .function _ _ body => [body]
  | node => node.parts

/-- The names that stand in a node itself. -/
def names : Node → List Name
  | .letStatement _ name _ => [name]
  | .identifier name => [name]
  | .function _ parameters _ => parameters
  | _ => []

end Node

/-- Two nodes of the same form with corresponding parts. Lines are free. -/
inductive Node.Matches (node : Node → Node → Prop) (name : Name → Name → Prop) :
    Node → Node → Prop where
  | program {first second : List Node} (each : List.Forall₂ node first second) :
      Matches node name (.program first) (.program second)
  | block {line line' : Int} {first second : List Node} (each : List.Forall₂ node first second) :
      Matches node name (.block line first) (.block line' second)
  | letStatement {line line' : Int} {bound bound' : Name} {value value' : Node}
      (named : name bound bound') (inner : node value value') :
      Matches node name (.letStatement line bound value) (.letStatement line' bound' value')
  | returnStatement {line line' : Int} {value value' : Node} (inner : node value value') :
      Matches node name (.returnStatement line value) (.returnStatement line' value')
  | expressionStatement {line line' : Int} {expression expression' : Node}
      (inner : node expression expression') :
      Matches node name (.expressionStatement line expression)
        (.expressionStatement line' expression')
  | identifier {bound bound' : Name} (named : name bound bound') :
      Matches node name (.identifier bound) (.identifier bound')
  | integer {line line' value : Int} :
      Matches node name (.integer line value) (.integer line' value)
  | boolean {line line' : Int} {value : Bool} :
      Matches node name (.boolean line value) (.boolean line' value)
  | prefixed {line line' : Int} {operator : String} {operand operand' : Node}
      (inner : node operand operand') :
      Matches node name (.prefixed line operator operand) (.prefixed line' operator operand')
  | binary {line line' : Int} {operator : String} {left left' right right' : Node}
      (first : node left left') (second : node right right') :
      Matches node name (.binary line left operator right) (.binary line' left' operator right')
  | ifThen {line line' : Int} {condition condition' consequence consequence' : Node}
      (test : node condition condition') (first : node consequence consequence') :
      Matches node name (.ifThen line condition consequence)
        (.ifThen line' condition' consequence')
  | ifElse {line line' : Int}
      {condition condition' consequence consequence' alternative alternative' : Node}
      (test : node condition condition') (first : node consequence consequence')
      (second : node alternative alternative') :
      Matches node name (.ifElse line condition consequence alternative)
        (.ifElse line' condition' consequence' alternative')
  | function {line line' : Int} {parameters parameters' : List Name} {body body' : Node}
      (named : List.Forall₂ name parameters parameters') (inner : node body body') :
      Matches node name (.function line parameters body) (.function line' parameters' body')
  | call {line line' : Int} {callee callee' : Node} {arguments arguments' : List Node}
      (target : node callee callee') (each : List.Forall₂ node arguments arguments') :
      Matches node name (.call line callee arguments) (.call line' callee' arguments')
  | sequence {items items' : List Node} :
      Matches node name (.sequence items) (.sequence items')
  | foreign {value : Foreign} : Matches node name (.foreign value) (.foreign value)

/-- A node matches itself if its children and the names in it stand for themselves. -/
theorem Node.Matches.self {related : Node → Node → Prop} {named : Name → Name → Prop} (node : Node)
    (each : ∀ child ∈ node.children, related child child)
    (names : ∀ name ∈ node.names, named name name) : node.Matches related named node := by
  have all {items : List Node} (every : ∀ item ∈ items, related item item) :
      List.Forall₂ related items items :=
    List.forall₂_same.2 every
  cases node with
  | program statements => exact .program (all each)
  | block line statements => exact .block (all each)
  | letStatement line name value =>
      exact .letStatement (names name (.head _)) (each value (.head _))
  | returnStatement line value => exact .returnStatement (each value (.head _))
  | expressionStatement line expression => exact .expressionStatement (each expression (.head _))
  | identifier name => exact .identifier (names name (.head _))
  | integer => exact .integer
  | boolean => exact .boolean
  | prefixed line operator operand => exact .prefixed (each operand (.head _))
  | binary line left operator right =>
      exact .binary (each left (.head _)) (each right (.tail _ (.head _)))
  | ifThen line condition consequence =>
      exact .ifThen (each condition (.head _)) (each consequence (.tail _ (.head _)))
  | ifElse line condition consequence alternative =>
      exact .ifElse (each condition (.head _)) (each consequence (.tail _ (.head _)))
        (each alternative (.tail _ (.tail _ (.head _))))
  | function line parameters body =>
      exact .function (List.forall₂_same.2 names) (each body (.head _))
  | call line callee arguments =>
      exact .call (each callee (.head _)) (all fun node member => each node (.tail _ member))
  | sequence => exact .sequence
  | foreign => exact .foreign

/-- What may differ between two evaluations: nodes and names that stand for each
other, the scopes that matter and the names that matter there, and where a scope of
the first heap is found in the second. -/
structure Correspondence where
  node : Node → Node → Prop
  name : Name → Name → Prop
  place : ScopeId → Prop
  known : ScopeId → String → Prop
  move : ScopeId → ScopeId
  order : ∀ {earlier later : ScopeId}, earlier < later → move earlier < move later
  layer : ∀ {first second : Node}, node first second → first.Matches node name second
  text : ∀ {first second : Name}, name first second → first.text = second.text
  matter : ∀ {first second : Name}, name first second → ∀ place, known place first.text

namespace Correspondence

variable (correspondence : Correspondence)

theorem move_lt_iff {first second : ScopeId} :
    correspondence.move first < correspondence.move second ↔ first < second := by
  constructor
  · intro before
    rcases Nat.lt_trichotomy first second with earlier | same | later
    · exact earlier
    · exact absurd before (same ▸ Nat.lt_irrefl _)
    · exact absurd (correspondence.order later) (Nat.lt_asymm before)
  · exact correspondence.order

theorem move_inj {first second : ScopeId} :
    correspondence.move first = correspondence.move second ↔ first = second := by
  refine ⟨fun same => ?_, congrArg _⟩
  have noLess : ¬ first < second := by
    rw [← correspondence.move_lt_iff, same]
    exact Nat.lt_irrefl _
  have noMore : ¬ second < first := by
    rw [← correspondence.move_lt_iff, same]
    exact Nat.lt_irrefl _
  exact Nat.le_antisymm (Nat.not_lt.1 noMore) (Nat.not_lt.1 noLess)

/-- Corresponding values. Functions keep places that matter. -/
inductive Values : Value → Value → Prop where
  | integer (value : Int) : Values (.integer value) (.integer value)
  | boolean (value : Bool) : Values (.boolean value) (.boolean value)
  | null : Values .null .null
  | object : Values .object .object
  | error (cause : EvalError) : Values (.error cause) (.error cause)
  | returned {first second : Value} (inner : Values first second) :
      Values (.returned first) (.returned second)
  | function {parameters parameters' : List Name} {body body' : Node} {scope : ScopeId}
      (placed : correspondence.place scope)
      (named : List.Forall₂ correspondence.name parameters parameters')
      (inner : correspondence.node body body') :
      Values (.function parameters body scope)
        (.function parameters' body' (correspondence.move scope))

/-- Corresponding scopes at a place: enclosed alike by a scope that matters, and the
same for the names that matter there. -/
structure Scopes (place : ScopeId) (first second : Scope) : Prop where
  outer : second.outer = first.outer.map correspondence.move
  encloses : ∀ link, first.outer = some link → correspondence.place link
  bound : ∀ name, correspondence.known place name →
    Option.Rel correspondence.Values (first.find? name) (second.find? name)

/-- Corresponding heaps, on which new scopes will matter and correspond too. -/
structure Heaps (first second : Heap) : Prop where
  scopes : ∀ place, correspondence.place place →
    Option.Rel (correspondence.Scopes place) (first.scope? place)
      (second.scope? (correspondence.move place))
  fresh : ∀ place, first.next ≤ place → correspondence.place place
  next : ∀ later, correspondence.move (first.next + later) = second.next + later

/-- Corresponding machines: the same counters over corresponding heaps. -/
structure Machines (first second : Machine) : Prop where
  heap : correspondence.Heaps first.heap second.heap
  depth : second.depth = first.depth
  callDepth : second.callDepth = first.callDepth

/-- Corresponding results: corresponding values, or the same fault. -/
inductive Ends : Except EvalFault Value → Except EvalFault Value → Prop where
  | ok {first second : Value} (values : correspondence.Values first second) :
      Ends (.ok first) (.ok second)
  | error (fault : EvalFault) : Ends (.error fault) (.error fault)

/-- From corresponding machines the steps end in corresponding results and leave
corresponding machines. -/
def Follows (step step' : Eval Value) : Prop :=
  ∀ machine machine', correspondence.Machines machine machine' →
    correspondence.Ends (step machine).1 (step' machine').1 ∧
      correspondence.Machines (step machine).2 (step' machine').2

variable {correspondence}

namespace Values

variable {first second : Value}

theorem isSignal (values : correspondence.Values first second) :
    second.isSignal = first.isSignal := by
  cases values <;> rfl

theorem truthy (values : correspondence.Values first second) : second.truthy = first.truthy := by
  cases values <;> rfl

theorem type (values : correspondence.Values first second) : second.type = first.type := by
  cases values <;> rfl

theorem arrived (values : correspondence.Values first second) :
    correspondence.Values first.arrived second.arrived := by
  cases values with
  | returned inner => exact inner
  | integer value => exact .integer value
  | boolean value => exact .boolean value
  | null => exact .null
  | object => exact .object
  | error cause => exact .error cause
  | function placed named inner => exact .function placed named inner

end Values

/-- What is said of a number is said the same way. -/
theorem Ends.worded (cause : Int → EvalError) (number : Int) :
    correspondence.Ends (worded cause number) (worded cause number) := by
  rcases worded_cases cause number with same | same <;> rw [same]
  · exact .ok (.error _)
  · exact .error _

theorem Ends.map {first second : Except EvalFault Value} {change change' : Value → Value}
    (ends : correspondence.Ends first second)
    (changed : ∀ {value value'}, correspondence.Values value value' →
      correspondence.Values (change value) (change' value')) :
    correspondence.Ends (first.map change) (second.map change') := by
  cases ends with
  | ok values => exact .ok (changed values)
  | error fault => exact .error fault

theorem getLastD_values {given given' : List Value}
    (values : List.Forall₂ correspondence.Values given given') {last last' : Value}
    (otherwise : correspondence.Values last last') :
    correspondence.Values (given.getLastD last) (given'.getLastD last') := by
  induction values generalizing last last' with
  | nil => exact otherwise
  | cons value _ ih => simpa only [List.getLastD_cons] using ih value

/-! ## Heaps -/

theorem Scopes.set {place : ScopeId} {first second : Scope} {value value' : Value} {name : String}
    (scopes : correspondence.Scopes place first second)
    (values : correspondence.Values value value') :
    correspondence.Scopes place (first.set name value) (second.set name value') where
  outer := scopes.outer
  encloses := scopes.encloses
  bound other known := by
    by_cases same : other = name
    · rw [same, Scope.find?_set_self, Scope.find?_set_self]
      exact .some values
    · rw [Scope.find?_set_of_ne _ _ same, Scope.find?_set_of_ne _ _ same]
      exact scopes.bound other known

/-- Scopes that are or are not there correspond if they are enclosed alike by scopes
that matter and the names that matter have corresponding values. -/
theorem rel_scopes_iff {place : ScopeId} {first second : Option Scope} :
    Option.Rel (correspondence.Scopes place) first second ↔
      second.map Scope.outer = first.map (·.outer.map correspondence.move) ∧
      (∀ scope ∈ first, ∀ link, scope.outer = some link → correspondence.place link) ∧
      ∀ name, correspondence.known place name →
        Option.Rel correspondence.Values (first.bind (·.find? name))
          (second.bind (·.find? name)) := by
  constructor
  · rintro (⟨⟨outer, encloses, bound⟩⟩ | _)
    · exact ⟨congrArg some outer, by rintro _ ⟨⟩; exact encloses, bound⟩
    · exact ⟨rfl, nofun, fun _ _ => .none⟩
  · rintro ⟨outer, encloses, bound⟩
    cases first with
    | none =>
        rw [Option.map_eq_none_iff.1 outer]
        exact .none
    | some scope =>
        obtain ⟨scope', rfl, same⟩ := Option.map_eq_some_iff.1 outer
        exact .some ⟨same, encloses scope rfl, bound⟩

/-- Corresponding arguments make corresponding scopes. -/
theorem scopes_callScope {parameters parameters' : List Name} {values values' : List Value}
    (named : List.Forall₂ correspondence.name parameters parameters')
    (given : List.Forall₂ correspondence.Values values values') {outer : ScopeId}
    (placed : correspondence.place outer) (place : ScopeId) :
    correspondence.Scopes place (Evaluator.callScope parameters values outer)
      (Evaluator.callScope parameters' values' (correspondence.move outer)) := by
  unfold Evaluator.callScope
  -- The bindings are made one after the other, so the scopes made so far are general.
  suffices general : ∀ made made' : Scope, correspondence.Scopes place made made' →
      correspondence.Scopes place
        ((parameters.zip values).foldl (fun scope binding => scope.set binding.1.text binding.2)
          made)
        ((parameters'.zip values').foldl (fun scope binding => scope.set binding.1.text binding.2)
          made') from
    general _ _ ⟨rfl, fun _ same => Option.some.inj same ▸ placed, fun _ _ => .none⟩
  induction named generalizing values values' with
  | nil =>
      intro made made' scopes
      simpa using scopes
  | cons same _ ih =>
      intro made made' scopes
      cases given with
      | nil => simpa using scopes
      | cons value rest =>
          simp only [List.zip_cons_cons, List.foldl_cons, ← correspondence.text same]
          exact ih rest _ _ (scopes.set value)

namespace Heaps

variable {first second : Heap}

/-- A name that matters has corresponding values in corresponding scopes. -/
theorem lookup (heaps : correspondence.Heaps first second) {place : ScopeId}
    (placed : correspondence.place place) {name : String}
    (known : ∀ place, correspondence.known place name) :
    Option.Rel correspondence.Values (first.lookup place name)
      (second.lookup (correspondence.move place) name) := by
  induction place using Nat.strongRecOn with
  | ind place ih =>
      have here := heaps.scopes place placed
      unfold Heap.lookup
      generalize first.scope? place = held at here ⊢
      generalize second.scope? (correspondence.move place) = held' at here ⊢
      cases here with
      | none => exact .none
      | @some scope scope' scopes =>
          have bound := scopes.bound name (known place)
          dsimp only
          generalize scope.find? name = value at bound ⊢
          generalize scope'.find? name = value' at bound ⊢
          cases bound with
          | some values => exact .some values
          | none =>
              dsimp only
              rw [scopes.outer]
              cases link : scope.outer with
              | none => exact .none
              | some outer =>
                  dsimp only [Option.map_some]
                  by_cases earlier : outer < place
                  · rw [if_pos earlier, if_pos (correspondence.order earlier)]
                    exact ih outer earlier (scopes.encloses outer link)
                  · rw [if_neg earlier, if_neg (correspondence.move_lt_iff.not.2 earlier)]
                    exact .none

theorem set (heaps : correspondence.Heaps first second) (place : ScopeId) {name : String}
    {value value' : Value} (values : correspondence.Values value value') :
    correspondence.Heaps (first.set place name value)
      (second.set (correspondence.move place) name value') where
  scopes other placed := by
    have here := heaps.scopes other placed
    simp only [Heap.scope?_set, correspondence.move_inj]
    split
    · generalize first.scope? other = held at here ⊢
      generalize second.scope? (correspondence.move other) = held' at here ⊢
      cases here with
      | none => exact .none
      | some scopes => exact .some (scopes.set values)
    · exact here
  fresh other later := heaps.fresh other (by rwa [Heap.next_set] at later)
  next later := by
    rw [Heap.next_set, Heap.next_set]
    exact heaps.next later

theorem add (heaps : correspondence.Heaps first second) {scope scope' : Scope}
    (scopes : correspondence.Scopes first.next scope scope') :
    correspondence.Heaps (first.add scope) (second.add scope') where
  scopes other placed := by
    have next : second.next = correspondence.move first.next := (heaps.next 0).symm
    simp only [Heap.scope?_add, next, correspondence.move_inj]
    split
    · next same =>
        subst same
        exact .some scopes
    · exact heaps.scopes other placed
  fresh other later := by
    rw [Heap.next_add] at later
    exact heaps.fresh other (Nat.le_of_succ_le later)
  next later := by
    rw [Heap.next_add, Heap.next_add, Nat.add_assoc, heaps.next, Nat.add_assoc]

end Heaps

/-! ## Steps -/

namespace Follows

open Eval

theorem done {value value' : Value} (values : correspondence.Values value value') :
    correspondence.Follows (Eval.done value) (Eval.done value') :=
  fun _ _ machines => ⟨.ok values, machines⟩

theorem breakOff (fault : EvalFault) :
    correspondence.Follows (Eval.breakOff fault) (Eval.breakOff fault) :=
  fun _ _ machines => ⟨.error fault, machines⟩

theorem ofExcept {result result' : Except EvalFault Value}
    (ends : correspondence.Ends result result') :
    correspondence.Follows (Eval.ofExcept result) (Eval.ofExcept result') :=
  fun _ _ machines => ⟨ends, machines⟩

theorem lookup {scope : ScopeId} (placed : correspondence.place scope) {name : String}
    (known : ∀ place, correspondence.known place name) :
    correspondence.Follows (Eval.lookup scope name)
      (Eval.lookup (correspondence.move scope) name) := by
  intro machine machine' machines
  have found := machines.heap.lookup placed known
  unfold Eval.lookup
  generalize machine.heap.lookup scope name = held at found ⊢
  generalize machine'.heap.lookup (correspondence.move scope) name = held' at found ⊢
  cases found with
  | none => exact ⟨.ok (.error _), machines⟩
  | some values => exact ⟨.ok values, machines⟩

theorem bindName (scope : ScopeId) (name : String) {value value' : Value}
    (values : correspondence.Values value value') :
    correspondence.Follows (do Eval.bindName scope name value; return .null)
      (do Eval.bindName (correspondence.move scope) name value'; return .null) := by
  intro machine machine' machines
  exact ⟨.ok .null, machines.heap.set scope values, machines.depth, machines.callDepth⟩

theorem unlessSignal {step step' : Eval Value} {next next' : Value → Eval Value}
    (first : correspondence.Follows step step')
    (second : ∀ value value', correspondence.Values value value' →
      correspondence.Follows (next value) (next' value')) :
    correspondence.Follows (Eval.unlessSignal step next) (Eval.unlessSignal step' next') := by
  intro machine machine' machines
  have started := first machine machine' machines
  rw [unlessSignal_apply, unlessSignal_apply]
  generalize step machine = ended at started ⊢
  generalize step' machine' = ended' at started ⊢
  obtain ⟨result, left⟩ := ended
  obtain ⟨result', left'⟩ := ended'
  obtain ⟨ends, after⟩ := started
  cases ends with
  | error fault => exact ⟨.error fault, after⟩
  | ok values =>
      dsimp only
      rw [values.isSignal]
      split
      · exact ⟨.ok values, after⟩
      · exact second _ _ values left left' after

end Follows

section Forms

open Evaluator

variable {inner : Evaluator.Inner}

/-- Evaluation one level deeper goes the same way on corresponding nodes. -/
def Respects (correspondence : Correspondence) (inner : Evaluator.Inner) : Prop :=
  ∀ {first second : Node} {scope : ScopeId}, correspondence.place scope →
    correspondence.node first second →
    correspondence.Follows (inner first scope) (inner second (correspondence.move scope))

variable (respects : correspondence.Respects inner)

include respects

theorem withArguments_follows {scope : ScopeId} (placed : correspondence.place scope)
    {nodes nodes' : List Node}
    {next next' : List Value → Eval Value} (each : List.Forall₂ correspondence.node nodes nodes')
    (last : ∀ values values', List.Forall₂ correspondence.Values values values' →
      correspondence.Follows (next values) (next' values')) :
    correspondence.Follows (withArguments inner scope nodes next)
      (withArguments inner (correspondence.move scope) nodes' next') := by
  induction each generalizing next next' with
  | nil => exact last [] [] .nil
  | cons node _ ih =>
      refine .unlessSignal (respects placed node) fun value value' values => ih ?_
      exact fun others others' rest => last _ _ (.cons values rest)

theorem enter_follows {parameters parameters' : List Name} {body body' : Node} {outer : ScopeId}
    (placed : correspondence.place outer) {given given' : List Value}
    (named : List.Forall₂ correspondence.name parameters parameters')
    (inside : correspondence.node body body')
    (values : List.Forall₂ correspondence.Values given given') :
    correspondence.Follows (enter inner parameters body outer given)
      (enter inner parameters' body' (correspondence.move outer) given') := by
  intro machine machine' machines
  have next : machine'.heap.next = correspondence.move machine.heap.next :=
    (machines.heap.next 0).symm
  have entered : correspondence.Machines
      { machine with
        heap := machine.heap.add (callScope parameters given outer)
        callDepth := machine.callDepth + 1 }
      { machine' with
        heap := machine'.heap.add (callScope parameters' given' (correspondence.move outer))
        callDepth := machine'.callDepth + 1 } :=
    ⟨machines.heap.add (scopes_callScope named values placed _), machines.depth,
      congrArg (· + 1) machines.callDepth⟩
  have fresh := machines.heap.fresh machine.heap.next (Nat.le_refl _)
  obtain ⟨ends, after⟩ := respects fresh inside _ _ entered
  unfold enter
  rw [next]
  exact ⟨ends.map Values.arrived, after.heap, after.depth, congrArg (· - 1) after.callDepth⟩

theorem apply_follows (evaluator : Evaluator) {callee callee' : Value} {given given' : List Value}
    (target : correspondence.Values callee callee')
    (values : List.Forall₂ correspondence.Values given given') :
    correspondence.Follows (evaluator.apply inner callee given)
      (evaluator.apply inner callee' given') := by
  intro machine machine' machines
  cases target with
  | function placed named inside =>
      unfold Evaluator.apply
      simp only [← values.length_eq, ← named.length_eq, machines.callDepth]
      split
      · exact ⟨.ok (.error _), machines⟩
      split
      · exact ⟨.worded _ _, machines⟩
      · exact enter_follows respects placed named inside values machine machine' machines
  | _ => exact ⟨.ok (.error _), machines⟩

omit respects in
theorem applyPrefix_values (operator : String) {operand operand' : Value}
    (values : correspondence.Values operand operand') :
    correspondence.Values (Operator.applyPrefix operator operand)
      (Operator.applyPrefix operator operand') := by
  by_cases bang : operator = "!"
  · subst bang
    simp only [Operator.applyPrefix, values.truthy]
    exact .boolean _
  by_cases minus : operator = "-"
  · subst minus
    cases values with
    | integer value => exact .integer _
    | _ => exact .error _
  · have unknown (value : Value) :
        Operator.applyPrefix operator value = .error (.unknownPrefix operator value.type) := by
      unfold Operator.applyPrefix
      split <;> first | rfl | contradiction
    rw [unknown, unknown, values.type]
    exact .error _

omit respects in
/-- Operators see of a value no more than what corresponding values share. -/
theorem applyInfix_ends (operator : String) {left left' right right' : Value}
    (first : correspondence.Values left left') (second : correspondence.Values right right') :
    correspondence.Ends (Operator.applyInfix operator left right)
      (Operator.applyInfix operator left' right') := by
  have integers (left right : Int) :
      correspondence.Ends (Operator.applyIntegers operator left right)
        (Operator.applyIntegers operator left right) := by
    unfold Operator.applyIntegers Operator.divide
    repeat' split
    all_goals first
      | exact .ok (.integer _)
      | exact .ok (.boolean _)
      | exact .ok (.error _)
      | exact .worded _ _
  have booleans (left right : Bool) :
      correspondence.Values (Operator.applyBooleans operator left right)
        (Operator.applyBooleans operator left right) := by
    unfold Operator.applyBooleans
    split
    · exact .boolean _
    · exact .boolean _
    · exact .error _
  cases first with
  | integer value =>
      cases second with
      | integer value' => exact integers value value'
      | _ => exact .ok (.error _)
  | boolean value =>
      cases second with
      | boolean value' => exact .ok (booleans value value')
      | _ => exact .ok (.error _)
  | _ => cases second <;> exact .ok (.error _)

theorem finish_follows (evaluator : Evaluator) {first second : Node} {scope : ScopeId}
    (placed : correspondence.place scope) (nodes : correspondence.node first second)
    {given given' : List Value}
    (values : List.Forall₂ correspondence.Values given given') :
    correspondence.Follows (evaluator.finish inner first scope given)
      (evaluator.finish inner second (correspondence.move scope) given') := by
  -- Values that are not as many as the parts are answered with null on both sides.
  cases correspondence.layer nodes with
  | program | block => exact .done (getLastD_values values .null)
  | letStatement named inside =>
      rcases values with _ | ⟨value, _ | ⟨_, _⟩⟩
      · exact .done .null
      · simp only [finish, ← correspondence.text named]
        exact .bindName scope _ value
      · exact .done .null
  | returnStatement inside =>
      rcases values with _ | ⟨value, _ | ⟨_, _⟩⟩
      · exact .done .null
      · exact .done (.returned value)
      · exact .done .null
  | expressionStatement inside =>
      rcases values with _ | ⟨value, _ | ⟨_, _⟩⟩
      · exact .done .null
      · exact .done value
      · exact .done .null
  | identifier named =>
      rcases values with _ | ⟨_, _⟩
      · simp only [finish, ← correspondence.text named]
        exact .lookup placed (correspondence.matter named)
      · exact .done .null
  | integer =>
      rcases values with _ | ⟨_, _⟩
      · exact .done (.integer _)
      · exact .done .null
  | boolean =>
      rcases values with _ | ⟨_, _⟩
      · exact .done (.boolean _)
      · exact .done .null
  | function named inside =>
      rcases values with _ | ⟨_, _⟩
      · exact .done (.function placed named inside)
      · exact .done .null
  | prefixed inside =>
      rcases values with _ | ⟨value, _ | ⟨_, _⟩⟩
      · exact .done .null
      · exact .done (applyPrefix_values _ value)
      · exact .done .null
  | binary =>
      rcases values with _ | ⟨left, _ | ⟨right, _ | ⟨_, _⟩⟩⟩
      · exact .done .null
      · exact .done .null
      · exact .ofExcept (applyInfix_ends _ left right)
      · exact .done .null
  | ifThen test consequence =>
      rcases values with _ | ⟨value, _ | ⟨_, _⟩⟩
      · exact .done .null
      · simp only [finish, value.truthy]
        split
        · exact respects placed consequence
        · exact .done .null
      · exact .done .null
  | ifElse test consequence alternative =>
      rcases values with _ | ⟨value, _ | ⟨_, _⟩⟩
      · exact .done .null
      · simp only [finish, value.truthy]
        split
        · exact respects placed consequence
        · exact respects placed alternative
      · exact .done .null
  | call =>
      rcases values with _ | ⟨callee, given⟩
      · exact .done .null
      · exact apply_follows respects evaluator callee given
  | sequence => exact .breakOff _
  | foreign => exact .breakOff _

omit respects in
/-- Corresponding nodes take corresponding parts in order. -/
theorem ordered_match {first second : Node} (nodes : correspondence.node first second) :
    List.Forall₂ correspondence.node first.ordered second.ordered := by
  cases correspondence.layer nodes with
  | program each | block each => exact each
  | letStatement _ inside | returnStatement inside | expressionStatement inside
  | prefixed inside => exact .cons inside .nil
  | identifier | integer | boolean | function | sequence | foreign => exact .nil
  | binary left right => exact .cons left (.cons right .nil)
  | ifThen test | ifElse test => exact .cons test .nil
  | call target each => exact .cons target each

omit respects in
theorem settle_values {first second : Node} (nodes : correspondence.node first second)
    {value value' : Value} (values : correspondence.Values value value') :
    correspondence.Values (first.settle value) (second.settle value') := by
  cases correspondence.layer nodes with
  | program => exact values.arrived
  | _ => exact values

theorem form_follows (evaluator : Evaluator) {first second : Node} {scope : ScopeId}
    (placed : correspondence.place scope) (nodes : correspondence.node first second) :
    correspondence.Follows (evaluator.form inner first scope)
      (evaluator.form inner second (correspondence.move scope)) := by
  intro machine machine' machines
  have taken := withArguments_follows respects placed (ordered_match nodes)
    (fun _ _ values => finish_follows respects evaluator placed nodes values) machine machine'
    machines
  rw [form_eq, form_eq]
  exact ⟨taken.1.map fun values => settle_values nodes values, taken.2⟩

/-- The depth guard looks at the counters only. -/
theorem visit_follows (evaluator : Evaluator) {first second : Node} {scope : ScopeId}
    (placed : correspondence.place scope) (nodes : correspondence.node first second) :
    correspondence.Follows (evaluator.visit inner first scope)
      (evaluator.visit inner second (correspondence.move scope)) := by
  intro machine machine' machines
  have deeper : correspondence.Machines { machine with depth := machine.depth + 1 }
      { machine' with depth := machine'.depth + 1 } :=
    ⟨machines.heap, congrArg (· + 1) machines.depth, machines.callDepth⟩
  have formed := form_follows respects evaluator placed nodes _ _ deeper
  unfold visit
  rw [machines.depth] at formed ⊢
  split
  · exact ⟨.worded _ _, machines⟩
  · dsimp only
    generalize evaluator.form inner first scope _ = ended at formed ⊢
    generalize evaluator.form inner second (correspondence.move scope) _ = ended' at formed ⊢
    obtain ⟨result, left⟩ := ended
    obtain ⟨result', left'⟩ := ended'
    obtain ⟨ends, after⟩ := formed
    have counted : correspondence.Machines { left with depth := left.depth - 1 }
        { left' with depth := left'.depth - 1 } :=
      ⟨after.heap, congrArg (· - 1) after.depth, after.callDepth⟩
    cases ends with
    | ok values => exact ⟨.ok values, counted⟩
    | error fault =>
        cases fault with
        | stackExhausted =>
            dsimp only
            split
            · exact ⟨.ok (.error _), counted⟩
            · exact ⟨.error _, counted⟩
        | _ => exact ⟨.error _, counted⟩

end Forms

/-- **Evaluation goes the same way on corresponding data.** -/
theorem evaluate_corresponds (correspondence : Correspondence) (evaluator : Evaluator)
    (levels : Nat) : correspondence.Respects (evaluator.evaluateWithin levels) := by
  induction levels with
  | zero => exact fun _ _ => .breakOff .stackExhausted
  | succ levels ih => exact fun placed nodes => visit_follows ih evaluator placed nodes

end Correspondence

end ExprLang
