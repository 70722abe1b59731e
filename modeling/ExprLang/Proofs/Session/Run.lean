/-
# ExprLang.Proofs.Session.Run — what a run comes to

Parsing a source comes to a program, or it is broken off by a nesting limit that
cannot be written. So a run is one of three things (`run_cases`): that fault; a
report of what is wrong with the source, which leaves the heap alone; or a single
evaluation, that of the program over the whole stack (`Session.activation`). Runs
that follow on one another are steps from one session to the next (`Session.Next`).
-/
import ExprLang.Proofs.Eval.Activation
import ExprLang.Proofs.Parser.Orderly
import ExprLang.Session

namespace ExprLang

set_option autoImplicit false

namespace Session

variable {session : Session} {levels : Nat} {settings : Settings} {file source : String}
  {program : Node} {parsed : Parsed} {fault : ParseFault}

/-- The evaluation of a program in a session, over so many levels of stack. -/
def activation (session : Session) (levels : Nat) (program : Node) : Activation where
  levels := levels
  node := program
  scope := session.scope
  machine := .ofHeap session.heap

/-- One session is left behind by a run in the other, however the run ends. -/
def Next (earlier later : Session) : Prop :=
  ∃ levels settings file source, later = (earlier.run levels settings file source).2

/-- At the start no name is bound. -/
theorem find?_start {place : ScopeId} {scope : Scope} (name : String)
    (here : start.heap.scope? place = some scope) : scope.find? name = none := by
  simp only [start, Heap.scope?_add] at here
  split at here
  · cases here
    rfl
  · cases here

theorem run_of_clean (session : Session) (file : String)
    (clean : parse settings.maxNesting levels source = .ok ⟨program, []⟩) :
    session.run levels settings file source =
      ((((settings.evaluator file).run (session.activation levels program)).1.mapError
          RunFault.evaluation).map fun value => ⟨program, [], some value⟩,
        { session with heap :=
            ((settings.evaluator file).run (session.activation levels program)).2.heap }) := by
  rw [run, runIn, clean]
  rfl

theorem run_of_problems (session : Session) (file : String)
    (ended : parse settings.maxNesting levels source = .ok parsed)
    (problems : parsed.diagnostics ≠ []) :
    session.run levels settings file source =
      (.ok ⟨parsed.program, parsed.diagnostics, none⟩, session) := by
  rw [run, runIn, ended]
  simp [problems]

theorem run_of_broken (session : Session) (file : String)
    (broken : parse settings.maxNesting levels source = .error fault) :
    session.run levels settings file source = (.error (.parsing fault), session) := by
  rw [run, runIn, broken]

theorem mapError_ok_iff {result : Except EvalFault Value} {value : Value} :
    result.mapError RunFault.evaluation = .ok value ↔ result = .ok value := by
  rcases result with fault | value'
  · exact iff_of_false nofun nofun
  · exact ⟨fun same => congrArg Except.ok (Except.ok.inj same),
      fun same => congrArg Except.ok (Except.ok.inj same)⟩

theorem mapError_error_iff {result : Except EvalFault Value} {cause : RunFault} :
    result.mapError RunFault.evaluation = .error cause ↔
      ∃ fault, result = .error fault ∧ cause = .evaluation fault := by
  rcases result with fault | value
  · constructor
    · rintro ⟨⟩
      exact ⟨fault, rfl, rfl⟩
    · rintro ⟨_, ⟨⟩, rfl⟩
      rfl
  · constructor
    · rintro ⟨⟩
    · rintro ⟨_, ⟨⟩, -⟩

/-- What a run does is told by what its source is parsed to. -/
theorem run_cases (settings : Settings) (levels : Nat) (source : String) :
    (∃ statements, parse settings.maxNesting levels source = .ok ⟨.program statements, []⟩) ∨
      (∃ parsed, parse settings.maxNesting levels source = .ok parsed ∧
        parsed.diagnostics ≠ []) ∨
      parse settings.maxNesting levels source = .error .tooLong ∧
        ¬ Decimal.Writable settings.maxNesting := by
  rcases ended : parse settings.maxNesting levels source with fault | ⟨program, diagnostics⟩
  · obtain ⟨rfl, long⟩ := parse_eq_error ended
    exact .inr (.inr ⟨rfl, long⟩)
  · obtain ⟨statements, rfl⟩ := parse_program ended
    cases diagnostics with
    | nil => exact .inl ⟨statements, rfl⟩
    | cons first later => exact .inr (.inl ⟨_, rfl, List.cons_ne_nil first later⟩)

end Session

end ExprLang
