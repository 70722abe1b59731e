/-
# ExprLang.Proofs.Session.Pieces — running in pieces

A program takes its statements one after the other, and between two of them the
machine is told by its heap alone: the counters are back where they were. That is
also all that a session keeps from one run to the next. So a source that is run at
once does what its two halves do one after the other, if the first half ends with
a semicolon and the line feed between them is not cut (`run_pieces`).

Where a statement of the first half interrupts, nothing after it is looked at, and
the second half is as if it were not there.
-/
import ExprLang.Proofs.Eval.Balanced
import ExprLang.Proofs.Eval.Lines
import ExprLang.Proofs.Parser.Joined
import ExprLang.Proofs.Session.Run

namespace ExprLang

set_option autoImplicit false

namespace Evaluator

open Eval

variable {evaluator : Evaluator} {inner : Inner} {levels : Nat} {scope : ScopeId}
  {statements others before rest : List Node} {part : Node} {values : List Value}
  {machine middle : Machine}

/-! ## A program goes on -/

/-- A program goes on where its first statements leave the machine. -/
theorem runProgram_of_passes (passed : Passes inner scope statements machine values middle)
    (last : Value) :
    runProgram inner scope (statements ++ others) last machine =
      runProgram inner scope others (values.getLastD last) middle := by
  induction passed generalizing last with
  | nil => rfl
  | cons ended quiet _ ih =>
      change Eval.andThen _ _ _ = _
      unfold Eval.andThen
      rw [ended, List.getLastD_cons]
      simpa [quiet] using ih _

/-- A program ends with the first statement that interrupts. -/
theorem runProgram_of_interrupts (passed : Passes inner scope before machine values middle)
    (interrupts : Interrupts (inner part scope middle)) (last : Value) :
    runProgram inner scope (before ++ part :: rest) last machine =
      ((inner part scope middle).1.map Value.arrived, (inner part scope middle).2) := by
  rw [runProgram_of_passes passed]
  change Eval.andThen _ _ _ = _
  unfold Eval.andThen
  rcases ended : inner part scope middle with ⟨fault | value, after⟩
  · rfl
  · rw [ended] at interrupts
    simp [interrupts value rfl]
    rfl

/-- The depth guard looks at the depth and at what the form comes to. -/
theorem visit_congr {node other : Node} {machine' : Machine}
    (room : (machine.depth : Int) < evaluator.maxDepth) (level : machine'.depth = machine.depth)
    (same : evaluator.form inner node scope machine.deeper =
      evaluator.form inner other scope machine'.deeper) :
    evaluator.visit inner node scope machine = evaluator.visit inner other scope machine' := by
  unfold Machine.deeper at same
  unfold visit
  rw [level] at same ⊢
  rw [if_neg (Int.not_le.2 room), if_neg (Int.not_le.2 room), same]

/-- What is left of the statements runs like a program of its own, on the heap that
the statements before it leave. -/
theorem program_append_of_passes (room : (machine.depth : Int) < evaluator.maxDepth)
    (passed : Passes (evaluator.evaluateWithin levels) scope statements machine.deeper values
      middle) (more : others ≠ []) :
    (evaluator.evaluateWithin (levels + 1) (.program statements) scope machine).2.heap =
        middle.heap ∧
      evaluator.evaluateWithin (levels + 1) (.program (statements ++ others)) scope machine =
        evaluator.evaluateWithin (levels + 1) (.program others) scope
          { machine with heap := middle.heap } := by
  constructor
  · have ended : runProgram (evaluator.evaluateWithin levels) scope (statements ++ []) .null
        machine.deeper = (.ok (values.getLastD .null), middle) :=
      runProgram_of_passes passed .null
    rw [List.append_nil] at ended
    change evaluator.form _ (.program statements) scope _ = _ at ended
    change (evaluator.visit _ _ scope machine).2.heap = _
    unfold visit
    unfold Machine.deeper at ended
    rw [if_neg (Int.not_le.2 room), ended]
  · refine visit_congr room rfl ?_
    have onward : Machine.deeper { machine with heap := middle.heap } = middle :=
      passed.level.eq_of_heap.symm
    obtain ⟨first, later, rfl⟩ := List.exists_cons_of_ne_nil more
    rw [onward]
    exact runProgram_of_passes passed .null

theorem program_append_of_interrupts (room : (machine.depth : Int) < evaluator.maxDepth)
    (passed : Passes (evaluator.evaluateWithin levels) scope before machine.deeper values middle)
    (interrupts : Interrupts (evaluator.evaluateWithin levels part scope middle)) :
    evaluator.evaluateWithin (levels + 1) (.program (before ++ part :: rest ++ others)) scope
        machine =
      evaluator.evaluateWithin (levels + 1) (.program (before ++ part :: rest)) scope machine := by
  refine visit_congr room rfl ?_
  rw [List.append_assoc, List.cons_append]
  exact (runProgram_of_interrupts passed interrupts .null).trans
    (runProgram_of_interrupts passed interrupts .null).symm

/-- What a program starts are its statements, each after those before it. -/
theorem Starts.of_program {started : Activation}
    (starts : evaluator.Starts ⟨levels + 1, .program statements, scope, machine⟩ started) :
    ∃ before part rest values middle, statements = before ++ part :: rest ∧
      (machine.depth : Int) < evaluator.maxDepth ∧
      Passes (evaluator.evaluateWithin levels) scope before machine.deeper values middle ∧
      started = ⟨levels, part, scope, middle⟩ := by
  cases starts with
  | part room parts passed => exact ⟨_, _, _, _, _, parts, room, passed, rfl⟩
  | branch room passed taken => cases taken
  | body applied => cases applied

theorem within_of_full (full : evaluator.maxDepth ≤ machine.depth) (node : Node) :
    evaluator.evaluateWithin (levels + 1) node scope machine =
      (worded .evalDepth evaluator.maxDepth, machine) :=
  if_pos full

/-- One of the activations that this one starts interrupts it. -/
def Interrupted (evaluator : Evaluator) (activation : Activation) : Prop :=
  ∃ started, evaluator.Starts activation started ∧ Interrupts (evaluator.run started)

/-- **A program in pieces.** Without an interruption, the second piece runs on the
heap that the first one leaves; with one, it does not run. -/
theorem program_pieces (evaluator : Evaluator) (levels : Nat) (scope : ScopeId)
    (machine : Machine) (statements : List Node) {others : List Node} (more : others ≠ []) :
    (¬ evaluator.Interrupted ⟨levels, .program statements, scope, machine⟩ →
      evaluator.evaluateWithin levels (.program (statements ++ others)) scope machine =
        evaluator.evaluateWithin levels (.program others) scope
          { machine with
            heap := (evaluator.evaluateWithin levels (.program statements) scope
              machine).2.heap }) ∧
    (evaluator.Interrupted ⟨levels, .program statements, scope, machine⟩ →
      evaluator.evaluateWithin levels (.program (statements ++ others)) scope machine =
        evaluator.evaluateWithin levels (.program statements) scope machine) := by
  cases levels with
  | zero => exact ⟨fun _ => rfl, fun _ => rfl⟩
  | succ levels =>
      constructor
      · intro quiet
        by_cases full : evaluator.maxDepth ≤ machine.depth
        · rw [within_of_full full, within_of_full full]
          exact (within_of_full full _).symm
        have room := Int.not_le.1 full
        rcases taken_cases (evaluator.evaluateWithin levels) scope statements machine.deeper with
          ⟨before, part, rest, values, middle, parts, passed, interrupts⟩ |
          ⟨values, middle, passed⟩
        · exact absurd ⟨_, .part room parts passed, interrupts⟩ quiet
        · obtain ⟨left, onward⟩ := program_append_of_passes room passed more
          rw [left, onward]
      · rintro ⟨started, starts, interrupts⟩
        obtain ⟨before, part, rest, values, middle, rfl, room, passed, rfl⟩ := starts.of_program
        exact program_append_of_interrupts room passed interrupts

end Evaluator

/-! ## Runs -/

namespace Session

variable {session : Session} {levels : Nat} {settings : Settings} {file source : String}

/-- A statement that the evaluation of a program comes to ends in a signal or in a fault. -/
def Interrupted (session : Session) (levels : Nat) (settings : Settings) (file : String)
    (program : Node) : Prop :=
  (settings.evaluator file).Interrupted (session.activation levels program)

/-- What a run came to: a value, or the fault it broke off with. -/
def outcome (ended : Except RunFault Report × Session) : Except RunFault (Option Value) :=
  ended.1.map Report.value

/-- The evaluation of statements in a session. -/
def evaluated (session : Session) (levels : Nat) (settings : Settings) (file : String)
    (statements : List Node) : Except EvalFault Value × Machine :=
  (settings.evaluator file).evaluateWithin levels (.program statements) session.scope
    (.ofHeap session.heap)

theorem run_of_parsed (session : Session) (file : String) {statements : List Node}
    (parsed : parse settings.maxNesting levels source = .ok ⟨.program statements, []⟩) :
    outcome (session.run levels settings file source) =
        ((session.evaluated levels settings file statements).1.mapError
          RunFault.evaluation).map some ∧
      (session.run levels settings file source).2 =
        { session with heap := (session.evaluated levels settings file statements).2.heap } := by
  have started : (settings.evaluator file).run (session.activation levels (.program statements)) =
      session.evaluated levels settings file statements := rfl
  rw [run_of_clean session file parsed, started]
  refine ⟨?_, rfl⟩
  unfold outcome
  cases (session.evaluated levels settings file statements).1 <;> rfl

/-- In sessions that are alike, lines aside, statements that are come to the same and
leave the same, lines aside. -/
theorem evaluated_of_alike (levels : Nat) (settings : Settings) (file : String)
    {session session' : Session} (scope : session'.scope = session.scope)
    (alike : session.heap.Alike session'.heap) {statements others : List Node}
    (same : Node.eraseAll statements = Node.eraseAll others) :
    (((session.evaluated levels settings file statements).1.mapError
          RunFault.evaluation).map some).map (Option.map Value.erase) =
        (((session'.evaluated levels settings file others).1.mapError
          RunFault.evaluation).map some).map (Option.map Value.erase) ∧
      (session.evaluated levels settings file statements).2.heap.Alike
        (session'.evaluated levels settings file others).2.heap := by
  have programs : (Node.program statements).erase = (Node.program others).erase := by
    rw [Node.erase, Node.erase, same]
  have inside (result : Except EvalFault Value) :
      ((result.mapError RunFault.evaluation).map some).map (Option.map Value.erase) =
        ((result.map Value.erase).mapError RunFault.evaluation).map some := by
    cases result <;> rfl
  obtain ⟨ends, heaps⟩ := (settings.evaluator file).within_alike levels programs session.scope
    (show (Machine.ofHeap session.heap).heap.Alike (Machine.ofHeap session'.heap).heap from alike)
    rfl rfl
  unfold evaluated
  rw [inside, inside, scope]
  exact ⟨congrArg (fun result => (result.mapError RunFault.evaluation).map some) ends, heaps⟩

/-- **Running in pieces.** Two sources that are accepted, the first of them ending
with a semicolon and the second not empty, are accepted one below the other. Run at
once, they come to what they come to one after the other, and leave the same
bindings, lines aside, as long as no statement of the first interrupts. If one
does, they come to what the first comes to alone and leave the same session. -/
theorem run_pieces (session : Session) (levels : Nat) (settings : Settings)
    (file source below : String) {program other : Node}
    (clean : parse settings.maxNesting levels source = .ok ⟨program, []⟩)
    (ended : ∀ last, (tokenize source).dropLast.getLast? = some last → last.kind = .semicolon)
    (clean' : parse settings.maxNesting levels below = .ok ⟨other, []⟩)
    (more : other ≠ .program []) :
    let whole := session.run levels settings file (source ++ "\n" ++ below)
    let alone := session.run levels settings file source
    let apart := alone.2.run levels settings file below
    (∃ joined, parse settings.maxNesting levels (source ++ "\n" ++ below) = .ok ⟨joined, []⟩) ∧
      (¬ session.Interrupted levels settings file program →
        (outcome whole).map (Option.map Value.erase) =
            (outcome apart).map (Option.map Value.erase) ∧
          whole.2.scope = apart.2.scope ∧ whole.2.heap.Alike apart.2.heap) ∧
      (session.Interrupted levels settings file program →
        outcome whole = outcome alone ∧ whole.2 = alone.2) := by
  intro whole alone apart
  obtain ⟨statements, others, lowered, rfl, rfl, joined, same⟩ := parse_joined clean ended clean'
  obtain ⟨wholeOutcome, wholeLeft⟩ := run_of_parsed session file joined
  obtain ⟨aloneOutcome, aloneLeft⟩ := run_of_parsed session file clean
  obtain ⟨apartOutcome, apartLeft⟩ := run_of_parsed alone.2 file clean'
  have more' : lowered ≠ [] := by
    rintro rfl
    cases others with
    | nil => exact more rfl
    | cons other others => cases same
  obtain ⟨onward, cut⟩ := (settings.evaluator file).program_pieces levels session.scope
    (.ofHeap session.heap) statements more'
  refine ⟨⟨_, joined⟩, fun quiet => ?_, fun interrupted => ?_⟩
  · have pieces : session.evaluated levels settings file (statements ++ lowered) =
        alone.2.evaluated levels settings file lowered := by
      have left : alone.2 = _ := aloneLeft
      rw [left]
      exact onward quiet
    obtain ⟨ends, heaps⟩ := evaluated_of_alike levels settings file rfl (.refl alone.2.heap) same
    rw [pieces] at wholeOutcome wholeLeft
    refine ⟨?_, rfl, ?_⟩
    · calc (outcome whole).map (Option.map Value.erase)
        _ = _ := congrArg _ wholeOutcome
        _ = _ := ends
        _ = (outcome apart).map (Option.map Value.erase) := congrArg _ apartOutcome.symm
    · have wholeHeap : whole.2.heap = _ := congrArg Session.heap wholeLeft
      have apartHeap : apart.2.heap = _ := congrArg Session.heap apartLeft
      rw [wholeHeap, apartHeap]
      exact heaps
  · have pieces : session.evaluated levels settings file (statements ++ lowered) =
        session.evaluated levels settings file statements := cut interrupted
    rw [pieces] at wholeOutcome wholeLeft
    exact ⟨wholeOutcome.trans aloneOutcome.symm, wholeLeft.trans aloneLeft.symm⟩

/-- A function that is bound above a comment reads a name that is bound below it. -/
theorem run_pieces_closure :
    let source := "let f = fn() \x7b x \x7d; # x comes later"
    let below := "let x = 5;\nf()"
    let run (session : Session) (source : String) := session.run 50 .standard "<input>" source
    let whole := run start (source ++ "\n" ++ below)
    let apart := run (run start source).2 below
    (outcome whole).toOption.join.bind (fun value => (value.display 50).toOption) = some "5" ∧
      (∃ program, parse Settings.standard.maxNesting 50 source = .ok ⟨program, []⟩ ∧
        ¬ start.Interrupted 50 .standard "<input>" program) ∧
      (outcome whole).map (Option.map Value.erase) =
        (outcome apart).map (Option.map Value.erase) ∧
      whole.2.heap.Alike apart.2.heap := by
  intro source below run whole apart
  have five : (outcome whole).toOption.join.bind (fun value => (value.display 50).toOption) =
      some "5" := by
    decide +kernel
  have null : (outcome (run start source)).toOption.join.bind
      (fun value => (value.display 50).toOption) = some "null" := by
    decide +kernel
  obtain ⟨program, clean⟩ : ∃ program, parse 100 50 source = .ok ⟨program, []⟩ :=
    parse_clean_iff.2 (by decide +kernel)
  obtain ⟨other, clean'⟩ : ∃ other, parse 100 50 below = .ok ⟨other, []⟩ :=
    parse_clean_iff.2 (by decide +kernel)
  have more : other ≠ .program [] := by
    rintro rfl
    have none : (parse 100 50 below).toOption.map (fun parsed =>
        parsed.program.alike (.program [])) = some false := by
      decide +kernel
    rw [clean'] at none
    exact absurd none (by decide)
  obtain ⟨-, onward, cut⟩ := run_pieces start 50 .standard "<input>" source below clean
    (by decide +kernel) clean' more
  have quiet : ¬ start.Interrupted 50 .standard "<input>" program := by
    intro interrupted
    have same : outcome whole = _ := (cut interrupted).1
    rw [same, null] at five
    exact absurd five (by decide)
  obtain ⟨ends, -, heaps⟩ := onward quiet
  exact ⟨five, ⟨program, clean, quiet⟩, ends, heaps⟩

end Session

end ExprLang
