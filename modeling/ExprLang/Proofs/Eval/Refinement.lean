/-
# ExprLang.Proofs.Eval.Refinement — signals are exceptions

The evaluator agrees with the direct-style one of `Reference`. A datum is read
as the value of the same shape, a thrown `return` as a returned value and a
thrown error as an error value, if it can be worded; if it cannot, the evaluator
breaks off (`answer`). A heap is read scope by scope (`Heap.view`). A heap is clean
when no scope binds a name to a signal and the bodies of its functions are blocks
whose nodes are in their places.

`Agrees` compares a step with a direct-style run from every clean heap. The direct
style knows no stack, so the comparison ends where the stack runs out (`Exhausted`).
Each way of combining steps keeps `Agrees`, so the proof for a node is its rule
written in these combinators, and `within_agrees` is an induction on the levels of
stack. With more levels than the depth limit leaves nodes they are never used up.
-/
import ExprLang.Proofs.Eval.Frame
import ExprLang.Proofs.Eval.Reference
import ExprLang.Proofs.Node.Placed

namespace ExprLang

set_option autoImplicit false

open Reference (Datum Thrown Run)

/-- The integer that an error names. -/
def EvalError.number? : EvalError → Option Int
  | .divisionByZero number | .callDepth number | .evalDepth number => some number
  | _ => none

/-- The error names no integer that is too long to write. -/
def EvalError.Wordable (cause : EvalError) : Prop :=
  ∀ number ∈ cause.number?, Decimal.Writable number

instance (cause : EvalError) : Decidable cause.Wordable :=
  inferInstanceAs (Decidable (∀ number ∈ cause.number?, Decimal.Writable number))

/-! ## Reading values and heaps -/

namespace Value

/-- No signal, and a function's body is a block whose nodes are in their places. -/
def Plain : Value → Prop
  | .returned _ | .error _ => False
  | .function _ body _ => body.Placed .any .block
  | .integer _ | .boolean _ | .null | .object => True

/-- The datum that a value is read as; a signal is none. -/
def datum? : Value → Option Datum
  | .integer value => some (.integer value)
  | .boolean value => some (.boolean value)
  | .null => some .null
  | .function parameters body scope => some (.closure parameters body scope)
  | .object => some .object
  | .returned _ | .error _ => none

end Value

namespace Reference

/-- The value of a datum. -/
def Datum.value : Datum → Value
  | .integer value => .integer value
  | .boolean value => .boolean value
  | .null => .null
  | .closure parameters body scope => .function parameters body scope
  | .object => .object

/-- What the evaluator makes of what a direct-style run comes to: a datum is a value and
what is thrown a signal. An error that cannot be worded breaks it off. -/
def answer : Except Thrown Datum → Except EvalFault Value
  | .ok datum => .ok datum.value
  | .error (.returned datum) => .ok (.returned datum.value)
  | .error (.error cause) => if cause.Wordable then .ok (.error cause) else .error .tooLong

theorem answer_error {cause : EvalError} (wordable : cause.Wordable) :
    answer (.error (.error cause)) = .ok (.error cause) :=
  if_pos wordable

theorem answer_error_cases (cause : EvalError) :
    answer (.error (.error cause)) = .ok (.error cause) ∨
      answer (.error (.error cause)) = .error .tooLong :=
  (Decidable.em cause.Wordable).imp (fun wordable => if_pos wordable) fun long => if_neg long

theorem answer_worded {cause : Int → EvalError} {number : Int}
    (names : (cause number).number? = some number) :
    answer (.error (.error (cause number))) = worded cause number := by
  simp [answer, EvalError.Wordable, worded, names]

@[simp] theorem Datum.datum?_value (datum : Datum) : datum.value.datum? = some datum := by
  cases datum <;> rfl

@[simp] theorem Datum.isSignal_value (datum : Datum) : datum.value.isSignal = false := by
  cases datum <;> rfl

@[simp] theorem Datum.truthy_value (datum : Datum) : datum.value.truthy = datum.truthy := by
  cases datum <;> rfl

@[simp] theorem Datum.type_value (datum : Datum) : datum.value.type = datum.type := by
  cases datum <;> rfl

@[simp] theorem Datum.arrived_value (datum : Datum) : datum.value.arrived = datum.value := by
  cases datum <;> rfl

/-- What a run hands on is plain. -/
def Sound : Except Thrown Datum → Prop
  | .ok datum => datum.value.Plain
  | .error (.returned datum) => datum.value.Plain
  | .error (.error _) => True

end Reference

theorem Value.Plain.exists_datum {value : Value} (plain : value.Plain) :
    ∃ datum : Datum, value = datum.value := by
  cases value with
  | integer value => exact ⟨.integer value, rfl⟩
  | boolean value => exact ⟨.boolean value, rfl⟩
  | null => exact ⟨.null, rfl⟩
  | function parameters body scope => exact ⟨.closure parameters body scope, rfl⟩
  | object => exact ⟨.object, rfl⟩
  | returned value => exact plain.elim
  | error cause => exact plain.elim

/-- A scope as the direct style has it. -/
def Scope.view (scope : Scope) : Reference.Scope :=
  ⟨fun name => (scope.find? name).bind Value.datum?, scope.outer⟩

theorem Scope.view_set (scope : Scope) (name : String) (datum : Datum) :
    (scope.set name datum.value).view = scope.view.bind name datum := by
  unfold Scope.view Reference.Scope.bind
  congr 1
  funext other
  by_cases same : other = name
  · simp [same, scope.find?_set_self]
  · simp [same, scope.find?_set_of_ne datum.value same]

/-- Every value that a scope binds a name to is plain. -/
def Scope.Clean (scope : Scope) : Prop := ∀ name value, scope.find? name = some value → value.Plain

theorem Scope.Clean.set {scope : Scope} (clean : scope.Clean) (name : String) {value : Value}
    (plain : value.Plain) : (scope.set name value).Clean := by
  intro other held found
  by_cases same : other = name
  · rw [same, scope.find?_set_self] at found
    exact Option.some.inj found ▸ plain
  · rw [scope.find?_set_of_ne value same] at found
    exact clean other held found

namespace Heap

/-- A heap as the direct style has it. -/
def view (heap : Heap) : Reference.Heap := heap.scopes.toList.map Scope.view

/-- No scope binds a name to a signal, and every function in the heap has a block
for its body whose nodes are in their places. -/
def Clean (heap : Heap) : Prop := ∀ place scope, heap.scope? place = some scope → scope.Clean

theorem getElem?_view (heap : Heap) (place : ScopeId) :
    heap.view[place]? = (heap.scope? place).map Scope.view := by
  simp [view, scope?]

theorem length_view (heap : Heap) : heap.view.length = heap.next := by
  simp [view, next]

theorem view_set (heap : Heap) (place : ScopeId) (name : String) (datum : Datum) :
    (heap.set place name datum.value).view =
      heap.view.modify place (·.bind name datum) := by
  refine List.ext_getElem? fun other => ?_
  rw [getElem?_view, scope?_set, List.getElem?_modify, getElem?_view]
  split
  · cases heap.scope? other with
    | none => rfl
    | some scope => simp [scope.view_set]
  · simp

theorem view_add (heap : Heap) (scope : Scope) :
    (heap.add scope).view = heap.view ++ [scope.view] := by
  simp [view, add]

theorem Clean.set {heap : Heap} (clean : heap.Clean) (place : ScopeId) (name : String)
    {value : Value} (plain : value.Plain) : (heap.set place name value).Clean := by
  intro other scope found
  rw [scope?_set] at found
  split at found
  · obtain ⟨held, was, rfl⟩ := Option.map_eq_some_iff.1 found
    exact (clean other held was).set name plain
  · exact clean other scope found

theorem Clean.add {heap : Heap} (clean : heap.Clean) {scope : Scope} (fresh : scope.Clean) :
    (heap.add scope).Clean := by
  intro place held found
  rw [scope?_add] at found
  split at found
  · exact Option.some.inj found ▸ fresh
  · exact clean place held found

/-- A heap of one scope without bindings is clean. -/
theorem clean_one (outer : Option ScopeId) : (Heap.empty.add ⟨[], outer⟩).Clean := by
  have nothing : Heap.empty.Clean := by
    intro place scope found
    simp [scope?, empty] at found
  refine nothing.add ?_
  intro name value found
  simp [Scope.find?] at found

/-- A clean heap and its reading bind the same names, and to plain values. -/
theorem Clean.lookup {heap : Heap} (clean : heap.Clean) (place : ScopeId) (name : String) :
    heap.lookup place name = (heap.view.lookup place name).map Datum.value ∧
      ∀ value, heap.lookup place name = some value → value.Plain := by
  induction place using Nat.strongRecOn with
  | ind place ih =>
      unfold Heap.lookup Reference.Heap.lookup
      rw [getElem?_view]
      cases found : heap.scope? place with
      | none => simp
      | some scope =>
          simp only [Option.map_some]
          cases held : scope.find? name with
          | some value =>
              obtain ⟨datum, rfl⟩ := (clean place scope found name value held).exists_datum
              have plain := clean place scope found name _ held
              simp [Scope.view, held, plain]
          | none =>
              simp only [Scope.view, held, Option.bind_none]
              cases scope.outer with
              | none => simp
              | some outer =>
                  by_cases earlier : outer < place
                  · simpa [earlier] using ih outer earlier
                  · simp [earlier]

end Heap

/-! ## Runs -/

namespace Reference

theorem run_bind {α β : Type} (first : Run α) (next : α → Run β) (heap : Heap) :
    (first >>= next) heap =
      match first heap with
      | (.ok result, after) => next result after
      | (.error thrown, after) => (.error thrown, after) := by
  change (match first heap with | (outcome, after) => ExceptT.bindCont next outcome after) = _
  rcases first heap with ⟨outcome, after⟩
  cases outcome <;> rfl

theorem run_getThe {α : Type} (next : Heap → Run α) (heap : Heap) :
    (getThe Heap >>= next) heap = next heap heap :=
  rfl

theorem run_catchReturn (body : Run Datum) (heap : Heap) :
    catchReturn body heap =
      match body heap with
      | (.error (.returned datum), after) => (.ok datum, after)
      | ended => ended := by
  simp only [catchReturn, tryCatch, tryCatchThe, MonadExceptOf.tryCatch, ExceptT.tryCatch,
    ExceptT.mk, bind, StateT.bind]
  rcases body heap with ⟨outcome, after⟩
  rcases outcome with (datum | cause) | datum <;> rfl

/-- The stack ran out; the outermost node makes an error of that. -/
def Exhausted (result : Except EvalFault Value) : Prop :=
  result = .error .stackExhausted ∨ result = .ok (.error .stackExhausted)

/-- Inside of so many nodes and calls, from every clean heap, the step and the run
come to the same and leave the same heap, which is clean again. Or the stack runs out,
where it may be short. -/
def Agrees (short : Prop) (depth calls : Nat) (step : Eval Value) (wanted : Run Datum) : Prop :=
  ∀ heap : ExprLang.Heap, heap.Clean →
    short ∧ Exhausted (step ⟨heap, depth, calls⟩).1 ∨
      ∃ outcome after, Sound outcome ∧ after.Clean ∧ wanted heap.view = (outcome, after.view) ∧
        step ⟨heap, depth, calls⟩ = (answer outcome, ⟨after, depth, calls⟩)

section Combinators

variable {short : Prop} {depth calls : Nat}

theorem Agrees.done (datum : Datum) (plain : datum.value.Plain) :
    Agrees short depth calls (Eval.done datum.value) (pure datum) :=
  fun heap clean => .inr ⟨.ok datum, heap, plain, clean, rfl, rfl⟩

/-- An error that names no integer. -/
theorem Agrees.fail {cause : EvalError} (nameless : cause.number? = none) :
    Agrees short depth calls (Eval.fail cause) (Reference.fail cause) := by
  have wordable : cause.Wordable := by simp [EvalError.Wordable, nameless]
  refine fun heap clean => .inr ⟨.error (.error cause), heap, trivial, clean, rfl, ?_⟩
  rw [answer_error wordable]
  rfl

theorem Agrees.worded {cause : Int → EvalError} {number : Int}
    (names : (cause number).number? = some number) :
    Agrees short depth calls (Eval.ofExcept (worded cause number))
      (Reference.fail (cause number)) := by
  refine fun heap clean => .inr ⟨.error (.error (cause number)), heap, trivial, clean, rfl, ?_⟩
  rw [answer_worded names]
  rfl

/-- Looking at an operand for a signal is what throwing saves. -/
theorem Agrees.unlessSignal {step : Eval Value} {next : Value → Eval Value} {wanted : Run Datum}
    {wantedNext : Datum → Run Datum} (first : Agrees short depth calls step wanted)
    (second : ∀ datum : Datum, datum.value.Plain →
      Agrees short depth calls (next datum.value) (wantedNext datum)) :
    Agrees short depth calls (Eval.unlessSignal step next) (wanted >>= wantedNext) := by
  intro heap clean
  rw [Eval.unlessSignal_apply, run_bind]
  rcases first heap clean with ⟨room, exhausted⟩ | ⟨outcome, after, sound, clean', reached, ended⟩
  · refine .inl ⟨room, ?_⟩
    rcases reached : step ⟨heap, depth, calls⟩ with ⟨result, after⟩
    rw [reached] at exhausted
    rcases exhausted with rfl | rfl
    · exact .inl rfl
    · exact .inr rfl
  · rw [reached, ended]
    rcases outcome with (datum | cause) | datum
    · exact .inr ⟨_, after, sound, clean', rfl, rfl⟩
    · refine .inr ⟨_, after, sound, clean', rfl, ?_⟩
      rcases answer_error_cases cause with same | same
      · rw [same]
        rfl
      · rw [same]
    · simpa [answer] using second datum sound after clean'

theorem Agrees.lookup (scope : ScopeId) (name : String) :
    Agrees short depth calls (Eval.lookup scope name) (Reference.read scope name) := by
  intro heap clean
  obtain ⟨same, plain⟩ := clean.lookup scope name
  unfold Eval.lookup Reference.read
  rw [run_getThe]
  cases found : heap.view.lookup scope name with
  | none =>
      rw [found] at same
      simp only [same, Option.map_none]
      exact Agrees.fail rfl heap clean
  | some datum =>
      rw [found] at same
      simp only [same, Option.map_some]
      exact .inr ⟨.ok datum, heap, plain datum.value same, clean, rfl, rfl⟩

theorem Agrees.bindName (scope : ScopeId) (name : String) {datum : Datum}
    (plain : datum.value.Plain) :
    Agrees short depth calls (do Eval.bindName scope name datum.value; return .null)
      (do assign scope name datum; return .null) := by
  intro heap clean
  refine .inr ⟨.ok .null, heap.set scope name datum.value, trivial, clean.set scope name plain,
    ?_, rfl⟩
  rw [heap.view_set]
  rfl

/-! ## Operators -/

theorem Agrees.prefixed (operator : String) (operand : Datum) :
    Agrees short depth calls (Eval.done (Operator.applyPrefix operator operand.value))
      (unary operator operand) := by
  unfold unary
  by_cases isNot : operator = "!"
  · rw [if_pos isNot, isNot]
    have applied : Operator.applyPrefix "!" operand.value = .boolean (!operand.truthy) := by
      simp [Operator.applyPrefix]
    rw [applied]
    exact .done (.boolean (!operand.truthy)) trivial
  rw [if_neg isNot]
  have unknown (other : operator ≠ "-" ∨ ∀ value, operand ≠ .integer value) :
      Operator.applyPrefix operator operand.value =
        .error (.unknownPrefix operator operand.type) := by
    cases operand <;> simp_all [Operator.applyPrefix, Datum.value, Datum.type, Value.type]
  cases operand with
  | integer value =>
      dsimp only
      by_cases isMinus : operator = "-"
      · rw [if_pos isMinus, isMinus]
        exact .done (.integer (-value)) trivial
      · rw [if_neg isMinus, unknown (.inl isMinus)]
        exact .fail rfl
  | boolean value => rw [unknown (.inr (by simp))]; exact .fail rfl
  | null => rw [unknown (.inr (by simp))]; exact .fail rfl
  | closure parameters body scope =>
      rw [unknown (.inr (by simp))]; exact .fail rfl
  | object => rw [unknown (.inr (by simp))]; exact .fail rfl

theorem Agrees.divide (left right : Int) :
    Agrees short depth calls (Eval.ofExcept (Operator.divide left right))
      (if right = 0 then Reference.fail (.divisionByZero left)
        else return .integer (left.tdiv right)) := by
  unfold Operator.divide
  split
  · exact .worded rfl
  · exact .done (.integer (left.tdiv right)) trivial

theorem Agrees.integers (operator : String) (left right : Int) :
    Agrees short depth calls (Eval.ofExcept (Operator.applyIntegers operator left right))
      (arithmetic operator left right) := by
  unfold Operator.applyIntegers
  split
  · exact .done (.integer (left + right)) trivial
  · exact .done (.integer (left - right)) trivial
  · exact .done (.integer (left * right)) trivial
  · exact .divide left right
  · exact .done (.boolean (left < right)) trivial
  · exact .done (.boolean (left > right)) trivial
  · exact .done (.boolean (left ≤ right)) trivial
  · exact .done (.boolean (left ≥ right)) trivial
  · exact .done (.boolean (left == right)) trivial
  · exact .done (.boolean (left != right)) trivial
  · have unknown : arithmetic operator left right =
        Reference.fail (.unknownInfix .integer operator .integer) := by
      simp [arithmetic, *]
    rw [unknown]
    exact .fail rfl

theorem Agrees.booleans (operator : String) (left right : Bool) :
    Agrees short depth calls (Eval.done (Operator.applyBooleans operator left right))
      (binary operator (.boolean left) (.boolean right)) := by
  unfold Operator.applyBooleans
  split
  · exact .done (.boolean (left == right)) trivial
  · exact .done (.boolean (left != right)) trivial
  · have unknown : binary operator (.boolean left) (.boolean right) =
        Reference.fail (.unknownInfix .boolean operator .boolean) := by
      simp [binary, *]
    rw [unknown]
    exact .fail rfl

theorem Agrees.infixed (operator : String) (left right : Datum) :
    Agrees short depth calls (Eval.ofExcept (Operator.applyInfix operator left.value right.value))
      (binary operator left right) := by
  have mixed : Agrees short depth calls
      (Eval.ofExcept (if left.value.type = right.value.type then
          .ok (.error (.unknownInfix left.value.type operator right.value.type))
        else .ok (.error (.typeMismatch left.value.type operator right.value.type))))
      (if left.type = right.type then Reference.fail (.unknownInfix left.type operator right.type)
        else Reference.fail (.typeMismatch left.type operator right.type)) := by
    simp only [Datum.type_value]
    split
    · exact .fail rfl
    · exact .fail rfl
  cases left with
  | integer leftValue =>
      cases right with
      | integer rightValue => exact .integers operator leftValue rightValue
      | _ => exact mixed
  | boolean leftValue =>
      cases right with
      | boolean rightValue => exact .booleans operator leftValue rightValue
      | _ => exact mixed
  | _ => exact mixed

/-! ## Sequences, arguments and calls -/

/-- Where a `return` arrives is where it is caught. -/
theorem Agrees.arrived {step : Eval Value} {wanted : Run Datum}
    (agrees : Agrees short depth calls step wanted) :
    Agrees short depth calls (fun machine => ((step machine).1.map Value.arrived, (step machine).2))
      (catchReturn wanted) := by
  intro heap clean
  dsimp only
  rw [run_catchReturn]
  rcases agrees heap clean with ⟨room, exhausted⟩ | ⟨outcome, after, sound, clean', reached, ended⟩
  · refine .inl ⟨room, ?_⟩
    rcases exhausted with same | same <;> rw [same]
    · exact .inl rfl
    · exact .inr rfl
  · right
    rw [reached, ended]
    rcases outcome with (datum | cause) | datum
    · exact ⟨.ok datum, after, sound, clean', rfl, rfl⟩
    · refine ⟨.error (.error cause), after, trivial, clean', rfl, ?_⟩
      rcases answer_error_cases cause with same | same
      · rw [same]
        rfl
      · rw [same]
        rfl
    · refine ⟨.ok datum, after, sound, clean', rfl, ?_⟩
      simp [Except.map, answer]

variable {inner : Evaluator.Inner} {scope : ScopeId} {each : Node → Run Datum}

theorem Agrees.runBlock (statements : List Node) (last : Datum) (plain : last.value.Plain)
    (agrees : ∀ statement ∈ statements,
      Agrees short depth calls (inner statement scope) (each statement)) :
    Agrees short depth calls (Evaluator.runBlock inner scope statements last.value)
      (sequence each statements last) := by
  induction statements generalizing last with
  | nil => exact .done last plain
  | cons statement rest ih =>
      refine .unlessSignal (agrees statement (by simp)) fun datum sound => ?_
      exact ih datum sound fun later member => agrees later (by simp [member])

theorem Agrees.runProgram (statements : List Node)
    (agrees : ∀ statement ∈ statements,
      Agrees short depth calls (inner statement scope) (each statement)) :
    Agrees short depth calls (Evaluator.runProgram inner scope statements .null)
      (catchReturn (sequence each statements .null)) := by
  have block := (Agrees.runBlock statements .null trivial agrees).arrived
  rw [funext (Evaluator.runProgram_eq statements .null rfl)]
  exact block

theorem Agrees.withArguments (arguments : List Node) {next : List Value → Eval Value}
    {wanted : List Datum → Run Datum}
    (agrees : ∀ argument ∈ arguments,
      Agrees short depth calls (inner argument scope) (each argument))
    (last : ∀ data : List Datum, (∀ datum ∈ data, datum.value.Plain) →
      Agrees short depth calls (next (data.map Datum.value)) (wanted data)) :
    Agrees short depth calls (Evaluator.withArguments inner scope arguments next)
      (arguments.mapM each >>= wanted) := by
  induction arguments generalizing next wanted with
  | nil =>
      rw [List.mapM_nil, pure_bind]
      exact last [] (by simp)
  | cons argument rest ih =>
      rw [List.mapM_cons, bind_assoc]
      refine .unlessSignal (agrees argument (by simp)) fun datum plain => ?_
      rw [bind_assoc]
      simp only [pure_bind]
      refine ih (fun later member => agrees later (by simp [member])) fun data plains => ?_
      exact last (datum :: data) (by simpa using ⟨plain, plains⟩)

/-- The scope of a call is read as the scope of the same call. -/
theorem callScope_view (parameters : List Name) (data : List Datum) (outer : ScopeId)
    (plain : ∀ datum ∈ data, datum.value.Plain) :
    (Evaluator.callScope parameters (data.map Datum.value) outer).view =
        callScope parameters data outer ∧
      (Evaluator.callScope parameters (data.map Datum.value) outer).Clean := by
  unfold Evaluator.callScope callScope
  -- The bindings are made one after the other, so the scope made so far is general.
  suffices general : ∀ made : ExprLang.Scope, made.Clean →
      ((parameters.zip (data.map Datum.value)).foldl
          (fun scope binding => scope.set binding.1.text binding.2) made).view =
        (parameters.zip data).foldl (fun scope binding => scope.bind binding.1.text binding.2)
          made.view ∧
      ((parameters.zip (data.map Datum.value)).foldl
          (fun scope binding => scope.set binding.1.text binding.2) made).Clean by
    exact general ⟨[], some outer⟩ (by intro name value found; simp [Scope.find?] at found)
  induction data generalizing parameters with
  | nil => intro made clean; simp [clean]
  | cons datum rest ih =>
      intro made clean
      cases parameters with
      | nil => simp [clean]
      | cons name names =>
          have fresh := clean.set name.text (plain datum (by simp))
          simp only [List.map_cons, List.zip_cons_cons, List.foldl_cons]
          rw [← made.view_set]
          exact ih names (fun later member => plain later (by simp [member])) _ fresh

/-- A body in the scope of its call agrees, one call further out. -/
theorem Agrees.enter (parameters : List Name) (body : Node) (outer : ScopeId) (data : List Datum)
    (plains : ∀ datum ∈ data, datum.value.Plain) {wanted : ScopeId → Run Datum}
    (agrees : ∀ scope, Agrees short depth (calls + 1) (inner body scope) (wanted scope)) :
    Agrees short depth calls
      (Evaluator.enter inner parameters body outer (data.map Datum.value))
      (do
        let scope ← allocate (callScope parameters data outer)
        catchReturn (wanted scope)) := by
  intro heap clean
  obtain ⟨viewed, fresh⟩ := callScope_view parameters data outer plains
  let entered := heap.add (Evaluator.callScope parameters (data.map Datum.value) outer)
  have made : (do
      let scope ← allocate (callScope parameters data outer)
      catchReturn (wanted scope) : Run Datum) heap.view =
        catchReturn (wanted heap.next) entered.view := by
    rw [run_bind, heap.view_add, viewed, ← heap.length_view]
    rfl
  rw [made]
  rcases (agrees heap.next).arrived entered (clean.add fresh) with
    exhausted | ⟨outcome, after, sound, clean', reached, ended⟩
  · exact .inl exhausted
  · refine .inr ⟨outcome, after, sound, clean', reached, ?_⟩
    obtain ⟨value, machine⟩ := Prod.mk.inj ended
    unfold Evaluator.enter
    dsimp only
    rw [value, machine]
    rfl

theorem Agrees.apply (evaluator : Evaluator) (wanted : Node → ScopeId → Run Datum)
    (callee : Datum) (plain : callee.value.Plain) (data : List Datum)
    (plains : ∀ datum ∈ data, datum.value.Plain)
    (agrees : ∀ body scope, body.Placed .any .block →
      Agrees short depth (calls + 1) (inner body scope) (wanted body scope)) :
    Agrees short depth calls (evaluator.apply inner callee.value (data.map Datum.value))
      (call evaluator calls wanted callee data) := by
  cases callee with
  | closure parameters body outer =>
      intro heap clean
      unfold Evaluator.apply call
      simp only [Datum.value, List.length_map]
      split
      · exact Agrees.fail rfl heap clean
      split
      · exact Agrees.worded rfl heap clean
      · exact Agrees.enter parameters body outer data plains
          (fun scope => agrees body scope plain) heap clean
  | integer value => exact .fail rfl
  | boolean value => exact .fail rfl
  | null => exact .fail rfl
  | object => exact .fail rfl

end Combinators

/-! ## Nodes -/

/-- A node agrees when what lies deeper does. -/
theorem form_agrees (evaluator : Evaluator) {inner : Evaluator.Inner} {short : Prop}
    {depth left : Nat}
    (deeper : ∀ place node scope calls, node.Placed .any place →
      Agrees short depth calls (inner node scope) (evaluate evaluator left calls node scope))
    {place : Place} {node : Node} (placed : node.Placed .any place) (scope : ScopeId)
    (calls : Nat) :
    Agrees short depth calls (evaluator.form inner node scope)
      (evaluate evaluator (left + 1) calls node scope) := by
  induction placed with
  | program each =>
      exact .runProgram _ fun statement member =>
        deeper .statement statement scope calls (each statement member)
  | block _ each =>
      exact .runBlock _ .null trivial fun statement member =>
        deeper .statement statement scope calls (each statement member)
  | blockStatement _ _ ih => exact ih
  | letStatement _ _ value =>
      exact .unlessSignal (deeper _ _ scope calls value) fun datum plain =>
        .bindName scope _ plain
  | returnStatement _ value =>
      refine .unlessSignal (deeper _ _ scope calls value) fun datum plain => ?_
      exact fun heap clean => .inr ⟨.error (.returned datum), heap, plain, clean, rfl, rfl⟩
  | expressionStatement _ expression => exact deeper _ _ scope calls expression
  | identifier => exact .lookup scope _
  | integer => exact .done (.integer _) trivial
  | boolean => exact .done (.boolean _) trivial
  | prefixed _ _ operand =>
      exact .unlessSignal (deeper _ _ scope calls operand) fun datum _ => .prefixed _ datum
  | binary _ _ first second =>
      refine .unlessSignal (deeper _ _ scope calls first) fun leftDatum _ => ?_
      exact .unlessSignal (deeper _ _ scope calls second) fun rightDatum _ =>
        .infixed _ leftDatum rightDatum
  | ifThen _ test first =>
      refine .unlessSignal (deeper _ _ scope calls test) fun datum _ => ?_
      rw [Datum.truthy_value]
      split
      · exact deeper _ _ scope calls first
      · exact .done .null trivial
  | ifElse _ test first second =>
      refine .unlessSignal (deeper _ _ scope calls test) fun datum _ => ?_
      rw [Datum.truthy_value]
      split
      · exact deeper _ _ scope calls first
      · exact deeper _ _ scope calls second
  | function _ _ body => exact .done (.closure _ _ scope) body
  | call _ target each =>
      refine .unlessSignal (deeper _ _ scope calls target) fun callee plain => ?_
      refine .withArguments _ (fun argument member =>
        deeper _ argument scope calls (each argument member)) fun data plains => ?_
      exact .apply evaluator _ callee plain data plains fun body scope placed =>
        deeper _ body scope (calls + 1) placed

/-- The depth guard counts what is left. -/
theorem visit_agrees (evaluator : Evaluator) {inner : Evaluator.Inner} {short : Prop} {depth : Nat}
    (deeper : (depth : Int) < evaluator.maxDepth → ∀ place node scope calls,
      node.Placed .any place → Agrees short (depth + 1) calls (inner node scope)
        (evaluate evaluator (evaluator.maxDepth - (depth + 1 : Nat)).toNat calls node scope))
    {place : Place} {node : Node} (placed : node.Placed .any place) (scope : ScopeId)
    (calls : Nat) :
    Agrees short depth calls (evaluator.visit inner node scope)
      (evaluate evaluator (evaluator.maxDepth - depth).toNat calls node scope) := by
  intro heap clean
  unfold Evaluator.visit
  dsimp only
  split
  · next reached =>
    have nothing : (evaluator.maxDepth - depth).toNat = 0 := by omega
    rw [nothing]
    exact Agrees.worded rfl heap clean
  · next room =>
    have below := Int.not_le.1 room
    have counted : (evaluator.maxDepth - depth).toNat =
        (evaluator.maxDepth - (depth + 1 : Nat)).toNat + 1 := by omega
    rw [counted]
    rcases form_agrees evaluator (deeper below) placed scope calls heap clean with
      ⟨few, exhausted⟩ | ⟨outcome, after, sound, clean', reached, ended⟩
    · refine .inl ⟨few, ?_⟩
      rcases exhausted with same | same <;> rw [same]
      · dsimp only
        split
        · exact .inr rfl
        · exact .inl rfl
      · exact .inr rfl
    · refine .inr ⟨outcome, after, sound, clean', reached, ?_⟩
      rw [ended]
      rcases outcome with (datum | cause) | datum
      · rfl
      · rcases answer_error_cases cause with same | same <;> rw [same] <;> rfl
      · rfl

theorem within_agrees (evaluator : Evaluator) (levels depth : Nat) {place : Place} {node : Node}
    (placed : node.Placed .any place) (scope : ScopeId) (calls : Nat) :
    Agrees (levels ≤ (evaluator.maxDepth - depth).toNat) depth calls
      (evaluator.evaluateWithin levels node scope)
      (evaluate evaluator (evaluator.maxDepth - depth).toNat calls node scope) := by
  induction levels generalizing depth place node scope calls with
  | zero => exact fun heap clean => .inl ⟨Nat.zero_le _, .inl rfl⟩
  | succ levels ih =>
      refine visit_agrees evaluator (fun below _ node scope calls placed heap clean => ?_) placed
        scope calls
      refine (ih (depth + 1) placed scope calls heap clean).imp_left (And.imp_left fun few => ?_)
      omega

/-- **Signals are exceptions.** Evaluating a tree whose nodes are in their places,
from a clean heap, under any limits and inside of any number of nodes and calls,
comes to the value, the returned value or the error that the direct style comes to
as a datum, a thrown `return` or a thrown error, and breaks off if that error cannot
be worded; it leaves the same scopes behind, clean again, and both counters as they
were. Only if there are no more levels of stack than the depth limit leaves nodes,
the stack may run out. -/
theorem evaluate_eq_reference (evaluator : Evaluator) (levels depth calls : Nat) {place : Place}
    {node : Node} (placed : node.Placed .any place) (scope : ScopeId) {heap : ExprLang.Heap}
    (clean : heap.Clean) :
    levels ≤ (evaluator.maxDepth - depth).toNat ∧
        Exhausted (evaluator.evaluateWithin levels node scope ⟨heap, depth, calls⟩).1 ∨
      ∃ outcome after,
        evaluateAt evaluator depth calls node scope heap.view = (outcome, after.view) ∧
        evaluator.evaluateWithin levels node scope ⟨heap, depth, calls⟩ =
          (answer outcome, ⟨after, depth, calls⟩) ∧
        Sound outcome ∧ after.Clean := by
  rcases within_agrees evaluator levels depth placed scope calls heap clean with
    exhausted | ⟨outcome, after, sound, clean', reached, ended⟩
  · exact .inl exhausted
  · exact .inr ⟨outcome, after, reached, ended, sound, clean'⟩

/-- A call whose body returns before its end, as the program of a session. -/
def earlyReturn : Node :=
  .program [.expressionStatement 1
    (.call 1
      (.function 1 [⟨"x", 1⟩]
        (.block 1 [.returnStatement 1 (.identifier ⟨"x", 1⟩),
          .expressionStatement 1 (.boolean 1 true)]))
      [.integer 1 7])]

theorem earlyReturn_placed : earlyReturn.Placed .any .program := by
  refine .program (List.forall_mem_singleton.2 (.expressionStatement trivial ?_))
  refine .call trivial ?_ (List.forall_mem_singleton.2 (.integer trivial trivial))
  refine .function trivial (fun _ _ => ⟨trivial, trivial⟩) (.block trivial ?_)
  exact List.forall_mem_cons.2
    ⟨.returnStatement trivial (.identifier trivial trivial),
      List.forall_mem_singleton.2 (.expressionStatement trivial (.boolean trivial))⟩

/-- More levels than nodes are allowed: the direct style and the evaluator both come to 7. -/
theorem evaluate_eq_reference_earlyReturn :
    let evaluator : Evaluator := ⟨"<input>", 1, 7⟩
    let heap := Heap.empty.add ⟨[], none⟩
    ∃ after : ExprLang.Heap,
      evaluateAt evaluator 0 0 earlyReturn 0 heap.view = (.ok (.integer 7), after.view) ∧
      evaluator.evaluateWithin 8 earlyReturn 0 ⟨heap, 0, 0⟩ =
        (.ok (.integer 7), ⟨after, 0, 0⟩) ∧ after.Clean := by
  intro evaluator heap
  rcases evaluate_eq_reference evaluator 8 0 0 earlyReturn_placed 0 (Heap.clean_one none) with
    ⟨few, -⟩ | ⟨outcome, after, reached, ended, -, clean⟩
  · exact absurd few (by decide)
  have seven : (evaluateAt evaluator 0 0 earlyReturn 0 heap.view).1 = .ok (.integer 7) := by
    with_unfolding_all rfl
  obtain rfl : outcome = .ok (.integer 7) := by rw [← seven, reached]
  exact ⟨after, reached, ended, clean⟩

end Reference

end ExprLang
