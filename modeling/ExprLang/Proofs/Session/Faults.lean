/-
# ExprLang.Proofs.Session.Faults — the one fault that leaves a run

A run has three ways to break off: a value that is no node, a stack that ran out,
an integer too long to be worded. On a heap whose reachable functions came from
the parser the first does not happen, since every node the parser builds stands
where it belongs; the second ends as a diagnostic or as an error value. The third
happens where a limit is passed that cannot be written. Under limits that can be, and
loaded ones can (`Settings.load_writable`), it happens in one place only, where the
error for a division by zero would have to name a dividend that is too long
(`run_fault_iff`).
-/
import ExprLang.Proofs.Decimal
import ExprLang.Proofs.Eval.Realm
import ExprLang.Proofs.Parser.Builds
import ExprLang.Proofs.Session.Run
import ExprLang.Proofs.Settings

namespace ExprLang

set_option autoImplicit false

/-! ## Trees of the parser -/

namespace Node

/-- A node that another one evaluates in its own scope, or the body of one that is
a function literal. -/
def Child (whole child : Node) : Prop :=
  child ∈ whole.parts ∨ ∃ line parameters, whole = .function line parameters child

/-- A node of some program that the parser made of some tokens. -/
def Parsed (node : Node) : Prop :=
  ∃ limit levels tokens program after,
    parseProgram .standard limit levels (.ofTokens tokens) = (.parsed program, after) ∧
      Relation.ReflTransGen Child program node

/-- The parts of a node that stands where it belongs stand where they belong. -/
theorem Placed.part {lexicon : Lexicon} {place : Place} {whole part : Node}
    (placed : whole.Placed lexicon place) (member : part ∈ whole.parts) :
    ∃ other, part.Placed lexicon other := by
  induction placed with
  | program each | block _ each => exact ⟨.statement, each part member⟩
  | blockStatement _ _ ih => exact ih member
  | letStatement _ _ inner | returnStatement _ inner | expressionStatement _ inner
  | prefixed _ _ inner =>
      rw [List.mem_singleton.1 member]
      exact ⟨.expression, inner⟩
  | identifier | integer | boolean | function => cases member
  | binary _ _ first second =>
      simp only [parts, List.mem_cons, List.not_mem_nil, or_false] at member
      rcases member with rfl | rfl
      · exact ⟨.expression, first⟩
      · exact ⟨.expression, second⟩
  | ifThen _ test first =>
      simp only [parts, List.mem_cons, List.not_mem_nil, or_false] at member
      rcases member with rfl | rfl
      · exact ⟨.expression, test⟩
      · exact ⟨.block, first⟩
  | ifElse _ test first second =>
      simp only [parts, List.mem_cons, List.not_mem_nil, or_false] at member
      rcases member with rfl | rfl | rfl
      · exact ⟨.expression, test⟩
      · exact ⟨.block, first⟩
      · exact ⟨.block, second⟩
  | call _ target each =>
      rcases List.mem_cons.1 member with rfl | member
      · exact ⟨.expression, target⟩
      · exact ⟨.expression, each part member⟩

theorem Placed.body {lexicon : Lexicon} {place : Place} {line : Int} {parameters : List Name}
    {body : Node} (placed : (Node.function line parameters body).Placed lexicon place) :
    body.Placed lexicon .block := by
  cases placed with
  | function _ _ inner => exact inner
  | blockStatement _ inner => cases inner

theorem Parsed.placed {node : Node} (parsed : node.Parsed) : ∃ place, node.Placed .any place := by
  obtain ⟨limit, levels, tokens, program, after, parsed, held⟩ := parsed
  induction held with
  | refl => exact ⟨.program, parseProgram_placed (fun token _ => token.fits_any) parsed⟩
  | tail _ child ih =>
      obtain ⟨place, placed⟩ := ih
      rcases child with member | ⟨line, parameters, rfl⟩
      · exact placed.part member
      · exact ⟨.block, placed.body⟩

end Node

/-! ## What a scope leads to -/

/-- The places that a place leads to, by way of enclosing scopes and of scopes that
bound functions keep. -/
inductive Heap.Leads (heap : Heap) (start : ScopeId) : ScopeId → Prop where
  | start : Leads heap start start
  | outer {place link : ScopeId} {scope : Scope} (leads : Leads heap start place)
      (here : heap.scope? place = some scope) (enclosed : scope.outer = some link) :
      Leads heap start link
  | kept {place link : ScopeId} {scope : Scope} {name : String} {parameters : List Name}
      {body : Node} (leads : Leads heap start place) (here : heap.scope? place = some scope)
      (bound : scope.find? name = some (.function parameters body link)) : Leads heap start link

/-- An integer, a truth value, null, or a function whose body the parser made. -/
def Value.Known : Value → Prop
  | .integer _ | .boolean _ | .null => True
  | .function _ body _ => body.Parsed
  | .returned _ | .error _ | .object => False

/-- Every name of every place that a place leads to has a known value. -/
def Heap.Known (heap : Heap) (start : ScopeId) : Prop :=
  ∀ place scope name value, heap.Leads start place → heap.scope? place = some scope →
    scope.find? name = some value → value.Known

/-- The nodes of the parser, over what a scope of a heap leads to. -/
def Realm.parsed (heap : Heap) (start : ScopeId) : Realm where
  node node := ∃ place, node.Placed .any place
  place place := heap.Leads start place ∨ heap.next ≤ place
  object := False
  part := by
    rintro whole part ⟨place, placed⟩ member
    exact placed.part member
  body := by
    rintro line parameters body ⟨place, placed⟩
    exact ⟨.block, placed.body⟩

theorem Heap.Known.within {heap : Heap} {start : ScopeId} (known : heap.Known start) :
    heap.Within (.parsed heap start) where
  fresh place later := .inr later
  bound place scope name value led here bound := by
    rcases led with leads | later
    · have knows := known place scope name value leads here bound
      cases value with
      | function parameters body link => exact ⟨knows.placed, .inl (.kept leads here bound)⟩
      | _ => exact knows
    · exact absurd (Heap.lt_next_of_scope? here) (Nat.not_lt.2 later)
  outer place scope link led here enclosed _ := by
    rcases led with leads | later
    · exact .inl (.outer leads here enclosed)
    · exact absurd (Heap.lt_next_of_scope? here) (Nat.not_lt.2 later)

/-! ## Where a run breaks off -/

namespace Evaluator

/-- The activation comes to divide an integer by another. -/
inductive Divides (evaluator : Evaluator) : Activation → (dividend divisor : Int) → Prop where
  | operands {levels : Nat} {line : Int} {left right : Node} {scope : ScopeId}
      {machine middle : Machine} {dividend divisor : Int}
      (room : (machine.depth : Int) < evaluator.maxDepth)
      (passed : Passes (evaluator.evaluateWithin levels) scope [left, right] machine.deeper
        [.integer dividend, .integer divisor] middle) :
      Divides evaluator ⟨levels + 1, .binary line left "/" right, scope, machine⟩ dividend divisor

variable {evaluator : Evaluator} {activation : Activation} {fault : EvalFault}

/-- Under limits that can be written, a node that stands where it belongs refuses exactly
such a division. -/
theorem refuses_iff (calls : Decimal.Writable evaluator.maxCallDepth)
    (depth : Decimal.Writable evaluator.maxDepth) {place : Place}
    (placed : activation.node.Placed .any place) :
    evaluator.Refuses activation fault ↔
      fault = .tooLong ∧ ∃ dividend, evaluator.Divides activation dividend 0 ∧
        Decimal.digitLimit < (toString dividend.natAbs).length := by
  constructor
  · intro refuses
    cases refuses with
    | depth full long => exact absurd depth long
    | calls applied arity full long => exact absurd calls long
    | operator room passed failed =>
        obtain ⟨rfl, rfl, dividend, rfl, rfl, long⟩ := Operator.applyInfix_error_iff.1 failed
        rw [Decimal.writable_iff] at long
        exact ⟨rfl, dividend, .operands room passed, Nat.not_le.1 long⟩
    | sequence room =>
        cases placed with
        | blockStatement _ inner => cases inner
    | foreign room =>
        cases placed with
        | blockStatement _ inner => cases inner
  · rintro ⟨rfl, dividend, divides, long⟩
    cases divides with
    | operands room passed =>
        refine .operator room passed (Operator.applyInfix_error_iff.2 ?_)
        have unwritable : ¬ Decimal.Writable dividend := by
          rw [Decimal.writable_iff]
          exact Nat.not_le.2 long
        exact ⟨rfl, rfl, dividend, rfl, rfl, unwritable⟩

/-- A stack that runs out does so inside of the outermost node, which makes an
error of it. -/
theorem run_ne_stackExhausted (evaluator : Evaluator) {activation : Activation}
    (outermost : activation.machine.depth = 0) (some : activation.levels ≠ 0) :
    (evaluator.run activation).1 ≠ .error .stackExhausted := by
  obtain ⟨_, node, scope, machine⟩ := activation
  obtain ⟨levels, rfl⟩ := Nat.exists_eq_succ_of_ne_zero some
  change (evaluator.visit _ node scope machine).1 ≠ _
  replace outermost : machine.depth = 0 := outermost
  unfold visit
  split
  · exact fun broken => nomatch (worded_error_iff.1 broken).1
  · dsimp only
    split
    · rw [outermost]
      nofun
    · next result other => exact other

end Evaluator

namespace Session

variable {session : Session} {levels : Nat} {settings : Settings} {file source : String}
  {program : Node} {fault : EvalFault}

/-- What a run evaluates are nodes of the parser. -/
theorem activation_parsed (known : session.heap.Known session.scope)
    (clean : parse settings.maxNesting levels source = .ok ⟨program, []⟩) :
    (session.activation levels program).Within (.parsed session.heap session.scope) := by
  obtain ⟨after, parsed, -⟩ := parse_eq_ok_iff.1 clean
  exact ⟨⟨.program, parseProgram_placed (fun token _ => token.fits_any) parsed⟩, .inl .start,
    known.within⟩

/-- The evaluation of a run breaks off exactly where it comes to a division by
zero that cannot be worded. -/
theorem evaluation_fault_iff (some : 0 < levels) (writable : settings.Writable)
    (within : (session.activation levels program).Within (.parsed session.heap session.scope)) :
    ((settings.evaluator file).run (session.activation levels program)).1 = .error fault ↔
      fault = .tooLong ∧ ∃ reached dividend,
        (settings.evaluator file).Reaches (session.activation levels program) reached ∧
        (settings.evaluator file).Divides reached dividend 0 ∧
        Decimal.digitLimit < (toString dividend.natAbs).length := by
  have stack : ((settings.evaluator file).run (session.activation levels program)).1 ≠
      .error .stackExhausted := Evaluator.run_ne_stackExhausted _ rfl (Nat.ne_of_gt some)
  by_cases exhausted : fault = .stackExhausted
  · subst exhausted
    exact iff_of_false stack nofun
  have refuses_iff {reached : Activation} {fault : EvalFault}
      (reaches : (settings.evaluator file).Reaches (session.activation levels program) reached) :
      (settings.evaluator file).Refuses reached fault ↔ fault = .tooLong ∧ ∃ dividend,
        (settings.evaluator file).Divides reached dividend 0 ∧
          Decimal.digitLimit < (toString dividend.natAbs).length := by
    obtain ⟨place, placed⟩ := (reaches.within within).node
    exact Evaluator.refuses_iff (writable .callDepth) (writable .evalDepth) placed
  rw [Evaluator.run_error_iff exhausted]
  constructor
  · rintro ⟨reached, reaches, refuses⟩
    obtain ⟨same, dividend, divides, long⟩ := (refuses_iff reaches).1 refuses
    exact ⟨same, reached, dividend, reaches, divides, long⟩
  · rintro ⟨same, reached, dividend, reaches, divides, long⟩
    exact ⟨reached, reaches, (refuses_iff reaches).2 ⟨same, dividend, divides, long⟩⟩

/-- **The one fault of a run.** Where the session's scope leads to integers, truth
values, null and functions of the parser only, the limits can be written and there is
any stack at all, whatever the source: parsing has a result; the run has a report or
breaks off because of an integer too long to be worded; and this happens exactly when
the source has no diagnostics and the evaluation comes to divide such an integer by
zero. -/
theorem run_fault_iff (session : Session) {levels : Nat} (some : 0 < levels) {settings : Settings}
    (writable : settings.Writable) (file source : String)
    (known : session.heap.Known session.scope) :
    (∀ limit levels, Decimal.Writable limit → ∃ program after,
      parseProgram .standard limit levels (.ofSource source) = (.parsed program, after)) ∧
    ((∃ report, (session.run levels settings file source).1 = .ok report) ∨
      (session.run levels settings file source).1 = .error (.evaluation .tooLong)) ∧
    ((session.run levels settings file source).1 = .error (.evaluation .tooLong) ↔
      ∃ program, parse settings.maxNesting levels source = .ok ⟨program, []⟩ ∧
        ∃ reached dividend,
          (settings.evaluator file).Reaches (session.activation levels program) reached ∧
          (settings.evaluator file).Divides reached dividend 0 ∧
          Decimal.digitLimit < (toString dividend.natAbs).length) := by
  refine ⟨fun limit levels named => ?_, ?_⟩
  · obtain ⟨statements, after, parsed⟩ := parseProgram_parsed named levels (.ofSource source)
    exact ⟨_, after, parsed⟩
  rcases run_cases settings levels source with
    ⟨statements, clean⟩ | ⟨parsed, ended, problems⟩ | ⟨-, long⟩
  · have faults {fault : EvalFault} := @evaluation_fault_iff session levels settings file
      (.program statements) fault some writable (activation_parsed known clean)
    rw [run_of_clean session file clean]
    refine ⟨?_, ?_⟩
    · rcases ended : ((settings.evaluator file).run
          (session.activation levels (.program statements))).1 with fault | value
      · obtain ⟨rfl, -⟩ := faults.1 ended
        exact .inr rfl
      · exact .inl ⟨_, rfl⟩
    · rw [Evaluator.map_error_iff, mapError_error_iff]
      constructor
      · rintro ⟨fault, broken, -⟩
        exact ⟨_, clean, (faults.1 broken).2⟩
      · rintro ⟨program, clean', found⟩
        cases clean.symm.trans clean'
        exact ⟨.tooLong, faults.2 ⟨rfl, found⟩, rfl⟩
  · rw [run_of_problems session file ended problems]
    refine ⟨.inl ⟨_, rfl⟩, iff_of_false nofun ?_⟩
    rintro ⟨program, clean, -⟩
    cases ended.symm.trans clean
    exact problems rfl
  · exact absurd (writable .nesting) long

theorem start_known : start.heap.Known start.scope := by
  intro place scope name value _ here found
  rw [find?_start name here] at found
  cases found

/-- Ten is raised to the fourth power seven times, which makes an integer of 16385
digits, and this is divided by zero. -/
def powers : String := "let p = fn(n) \x7b n * n * n * n \x7d; 1 + p(p(p(p(p(p(p(10))))))) / 0"

theorem run_fault_iff_powers :
    start.heap.Known start.scope ∧
      (start.run 100 .standard "<input>" powers).1 = .error (.evaluation .tooLong) ∧
      ∃ program, parse Settings.standard.maxNesting 100 powers = .ok ⟨program, []⟩ ∧
        ∃ reached dividend,
          (Settings.standard.evaluator "<input>").Reaches (start.activation 100 program) reached ∧
          (Settings.standard.evaluator "<input>").Divides reached dividend 0 ∧
          4300 < (toString dividend.natAbs).length := by
  obtain ⟨-, ends, faults⟩ := run_fault_iff start (show 0 < 100 by decide)
    Settings.standard_writable "<input>" powers start_known
  have reported : (start.run 100 .standard "<input>" powers).1.toBool = false := by
    decide +kernel
  have breaks : (start.run 100 .standard "<input>" powers).1 = .error (.evaluation .tooLong) := by
    rcases ends with ⟨report, ended⟩ | broken
    · rw [ended] at reported
      cases reported
    · exact broken
  exact ⟨start_known, breaks, faults.1 breaks⟩

end Session

end ExprLang
