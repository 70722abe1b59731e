/-
# ExprLang.Proofs.Session.Signals — signals never become data

A `return` and an error travel through everything an evaluation is inside of, and
a block that ends in one may stand wherever an expression may: in a `let`, among
arguments, in a condition, in another `return`. Still none of them is ever kept.
On a heap that binds no signal, no run comes to bind one, however it ends; a
`return` carries data only, and it gets no further than the call or the program
it ends (`run_signals_pass`).

It is the realm of all nodes and all places that says so, since its values are
the data.
-/
import ExprLang.Proofs.Eval.Realm
import ExprLang.Proofs.Session.Run

namespace ExprLang

set_option autoImplicit false

/-- A value that is no signal. A host's plain objects count as data if so
assumed. -/
def Value.Datum (objects : Prop) : Value → Prop
  | .integer _ | .boolean _ | .null | .function .. => True
  | .object => objects
  | .returned _ | .error _ => False

/-- Every name of every scope is bound to a datum. -/
def Heap.Clear (objects : Prop) (heap : Heap) : Prop :=
  ∀ place scope name value, heap.scope? place = some scope → scope.find? name = some value →
    value.Datum objects

/-- The realm of every node and every place. -/
def Realm.free (objects : Prop) : Realm where
  node _ := True
  place _ := True
  object := objects
  part _ _ := trivial
  body _ := trivial

variable {objects : Prop}

theorem Value.within_free {value : Value} :
    value.Within (Realm.free objects) ↔ value.Datum objects := by
  cases value with
  | function => exact ⟨fun _ => trivial, fun _ => ⟨trivial, trivial⟩⟩
  | _ => exact Iff.rfl

theorem Heap.within_free {heap : Heap} :
    heap.Within (Realm.free objects) ↔ heap.Clear objects := by
  constructor
  · intro within place scope name value here found
    exact Value.within_free.1 (within.bound place scope name value trivial here found)
  · intro clear
    exact ⟨fun _ _ => trivial, fun place scope name value _ here found =>
      Value.within_free.2 (clear place scope name value here found), fun _ _ _ _ _ _ _ => trivial⟩

namespace Evaluator

/-- An application of data on a clear heap never ends in a `return`. -/
theorem apply_not_returned (evaluator : Evaluator) (levels : Nat) {callee : Value}
    {values : List Value} {machine : Machine} (known : callee.Within (Realm.free objects))
    (given : ∀ value ∈ values, value.Within (Realm.free objects))
    (heap : machine.heap.Within (Realm.free objects)) (held : Value) :
    (evaluator.apply (evaluator.evaluateWithin levels) callee values machine).1 ≠
      .ok (.returned held) := by
  intro ended
  have settled := (apply_keeps (within_keeps evaluator levels) evaluator known given machine
    heap).2 _ ended
  exact settled.not_returned held rfl

end Evaluator

namespace Session

theorem activation_within (session : Session) (levels : Nat) (program : Node)
    (clear : session.heap.Clear objects) :
    (session.activation levels program).Within (Realm.free objects) :=
  ⟨trivial, trivial, Heap.within_free.2 clear⟩

/-- A run ends on a clear heap, and not in a `return`. -/
theorem run_clear (session : Session) (levels : Nat) (settings : Settings) (file source : String)
    (clear : session.heap.Clear objects) :
    (session.run levels settings file source).2.heap.Clear objects ∧
      ∀ report value, (session.run levels settings file source).1 = .ok report →
        report.value = some value → ∀ held, value ≠ .returned held := by
  rcases run_cases settings levels source with
    ⟨statements, clean⟩ | ⟨parsed, ended, problems⟩ | ⟨broken, -⟩
  · have keeps : Evaluator.Keeps (Realm.free objects) (Value.Settled (Realm.free objects))
        ((settings.evaluator file).evaluateWithin levels (.program statements) session.scope) :=
      Evaluator.program_keeps _ levels trivial trivial
    obtain ⟨heap, settled⟩ := keeps (.ofHeap session.heap) (Heap.within_free.2 clear)
    rw [run_of_clean session file clean]
    refine ⟨Heap.within_free.1 heap, fun report value ended valued held => ?_⟩
    obtain ⟨result, evaluated, rfl⟩ := Evaluator.map_ok_iff.1 ended
    cases valued
    exact (settled value (mapError_ok_iff.1 evaluated)).not_returned held
  · rw [run_of_problems session file ended problems]
    refine ⟨clear, ?_⟩
    rintro _ value ⟨⟩ ⟨⟩
  · rw [run_of_broken session file broken]
    refine ⟨clear, ?_⟩
    rintro _ value ⟨⟩

/-- The heap stays clear from run to run. -/
theorem clear_of_runs {start session : Session} (clear : start.heap.Clear objects)
    (ran : Relation.ReflTransGen Next start session) : session.heap.Clear objects := by
  induction ran with
  | refl => exact clear
  | tail _ next ih =>
      obtain ⟨levels, settings, file, source, rfl⟩ := next
      exact (run_clear _ levels settings file source ih).1

/-- **Signals never become data.** In a session that began on a clear heap, after
any runs whatever and however they ended, every scope is clear; no run from there
has a `return` for its value; whatever the evaluation of a program there comes to
evaluate, it evaluates on a clear heap, a `return` that comes up carries a datum, and
no application ends in a `return`; nor does a call that a host makes. -/
theorem run_signals_pass {start session : Session} (clear : start.heap.Clear objects)
    (ran : Relation.ReflTransGen Next start session) :
    session.heap.Clear objects ∧
    (∀ levels settings file source,
      (∀ report value, (session.run levels settings file source).1 = .ok report →
        report.value = some value → ∀ held, value ≠ .returned held) ∧
      ∀ program reached,
        (settings.evaluator file).Reaches (session.activation levels program) reached →
        reached.machine.heap.Clear objects ∧
        (∀ held, ((settings.evaluator file).run reached).1 = .ok (.returned held) →
          held.Datum objects) ∧
        ∀ callee values middle levels,
          (settings.evaluator file).Applies reached callee values middle →
          ∀ held, ((settings.evaluator file).apply
            ((settings.evaluator file).evaluateWithin levels) callee values middle).1 ≠
              .ok (.returned held)) ∧
    ∀ (evaluator : Evaluator) levels callee values, callee.Datum objects →
      (∀ value ∈ values, value.Datum objects) →
      ∀ held, (evaluator.apply (evaluator.evaluateWithin levels) callee values
        (.ofHeap session.heap)).1 ≠ .ok (.returned held) := by
  have cleared := clear_of_runs clear ran
  refine ⟨cleared, fun levels settings file source => ⟨(run_clear session levels settings file
    source cleared).2, fun program reached reaches => ?_⟩,
    fun evaluator levels callee values known given held => ?_⟩
  · have within := reaches.within (session.activation_within levels program cleared)
    have keeps := Evaluator.within_keeps (settings.evaluator file) reached.levels reached.node
      reached.scope within.node within.place reached.machine within.heap
    refine ⟨Heap.within_free.1 within.heap, fun held ended => ?_, ?_⟩
    · exact Value.within_free.1 (keeps.2 _ ended)
    · intro callee values middle levels applied held
      obtain ⟨known, given, heap⟩ := applied.within within
      exact Evaluator.apply_not_returned _ levels known given heap held
  · exact Evaluator.apply_not_returned evaluator levels (Value.within_free.2 known)
      (fun value member => Value.within_free.2 (given value member)) (Heap.within_free.2 cleared)
      held

theorem start_clear (objects : Prop) : start.heap.Clear objects := by
  intro place scope name value here found
  rw [find?_start name here] at found
  cases found

/-- A session whose run ended in a `return` after a `return` out of a call in a
`let`. -/
def returning : Session := (start.run 50 .standard "<input>"
  "let f = fn(x) \x7b let y = fn() \x7b return x; \x7d(); return y; \x7d; return f(7);").2

/-- Three scopes are left, none of them holds a signal, and none is handed to the
host that calls the function kept in one of them. -/
theorem run_signals_pass_returning :
    returning.heap.next = 3 ∧ returning.heap.Clear False ∧
      ∀ callee, returning.heap.lookup 0 "f" = some callee →
        ∀ held, (Evaluator.standard.apply (Evaluator.standard.evaluateWithin 50) callee
          [.integer 1] (.ofHeap returning.heap)).1 ≠ .ok (.returned held) := by
  have ran : Relation.ReflTransGen Next start returning :=
    .single ⟨50, .standard, "<input>", _, rfl⟩
  obtain ⟨clear, -, calls⟩ := run_signals_pass (start_clear False) ran
  refine ⟨by decide +kernel, clear, fun callee found => calls .standard 50 callee _ ?_ ?_⟩
  · exact Value.within_free.1 ((Heap.within_free.2 clear).lookup trivial found)
  · simp [Value.Datum]

end Session

end ExprLang
