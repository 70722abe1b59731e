/-
# ExprLang.Session — running sources

A run parses a source and, if nothing was wrong with it, evaluates the program
in a scope of a heap. A source with diagnostics is never evaluated, so its
report has no value. Running several sources over one heap and scope keeps their
bindings, also those made before a run that broke off.
-/
import ExprLang.Eval.Evaluate
import ExprLang.Parser.Routine

namespace ExprLang

set_option autoImplicit false

/-- What came of a run. -/
structure Report where
  program : Node
  diagnostics : List Diagnostic
  value : Option Value
  deriving Repr

namespace Report

/-- The diagnostic messages of a run. -/
def errors (report : Report) : List String := report.diagnostics.map Diagnostic.message

/-- Whether the source was evaluated. -/
def ok (report : Report) : Bool := report.diagnostics.isEmpty

end Report

/-- The evaluator of a run. -/
def Settings.evaluator (settings : Settings) (file : String) : Evaluator :=
  ⟨file, settings.maxCallDepth, settings.maxEvalDepth⟩

/-- Why a run broke off without a report. -/
inductive RunFault where
  | parsing (fault : ParseFault)
  | evaluation (fault : EvalFault)
  deriving DecidableEq, Repr

def RunFault.message : RunFault → String
  | .parsing fault => fault.message
  | .evaluation fault => fault.message

/-- The name a fault is shown under. -/
def RunFault.kind : RunFault → String
  | .parsing fault => fault.kind
  | .evaluation fault => fault.kind

/-- Run a source in a scope of a heap, on a stack of so many levels. -/
def runIn (levels : Nat) (settings : Settings) (file source : String) (heap : Heap)
    (scope : ScopeId) : Except RunFault Report × Heap :=
  match parse settings.maxNesting levels source with
  | .error fault => (.error (.parsing fault), heap)
  | .ok parsed =>
      if parsed.diagnostics.isEmpty then
        let ended := (settings.evaluator file).evaluateWithin levels parsed.program scope
          (Machine.ofHeap heap)
        ((ended.1.mapError .evaluation).map fun value => ⟨parsed.program, [], some value⟩,
          ended.2.heap)
      else (.ok ⟨parsed.program, parsed.diagnostics, none⟩, heap)

/-- A heap and the scope that sources are run in. -/
structure Session where
  heap : Heap
  scope : ScopeId
  deriving Repr

namespace Session

/-- A session in an empty scope. -/
def start : Session := ⟨Heap.empty.add ⟨[], none⟩, 0⟩

/-- Run a source. -/
def run (session : Session) (levels : Nat) (settings : Settings) (file source : String) :
    Except RunFault Report × Session :=
  let ended := runIn levels settings file source session.heap session.scope
  (ended.1, { session with heap := ended.2 })

/-- The bindings of the session's scope in the order of their names. -/
def bindings (session : Session) : List (String × Value) :=
  match session.heap.scope? session.scope with
  | some scope => scope.sorted
  | none => []

end Session

end ExprLang
