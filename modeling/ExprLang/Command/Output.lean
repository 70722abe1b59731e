/-
# ExprLang.Command.Output — what a command writes

A command writes lines to standard output and, in debug mode, log lines to
standard error. `Output` collects both; the functions below write a run's log,
the tokens and the tree of a source, and what came of a run.

Writing can end early: a tree or a value may have no text. What was written
before that stays, and the failure is the caller's to show.
-/
import ExprLang.Session

namespace ExprLang

set_option autoImplicit false

/-- What was written to standard output and to standard error. -/
structure Output where
  out : String
  err : String
  deriving DecidableEq, Repr

namespace Output

def empty : Output := ⟨"", ""⟩

instance : Append Output where
  append first second := ⟨first.out ++ second.out, first.err ++ second.err⟩

/-- A text on standard output. -/
def text (written : String) : Output := ⟨written, ""⟩

/-- A line on standard output. -/
def line (written : String) : Output := text (written ++ "\n")

/-- A line of the debug log. -/
def log (source written : String) : Output := ⟨"", "DEBUG " ++ source ++ ": " ++ written ++ "\n"⟩

/-- Outputs one after the other. -/
def all (outputs : List Output) : Output := outputs.foldl (· ++ ·) empty

end Output

/-- A failure as it is shown: the name of its kind and its message. -/
structure Failure where
  kind : String
  message : String
  deriving DecidableEq, Repr

/-- The line that shows a failure. -/
def Failure.output (failure : Failure) : Output :=
  .line (failure.kind ++ ": " ++ failure.message)

/-- What was written, and the failure that ended the writing, if any did. -/
abbrev Written := Output × Option Failure

/-- Write more, unless writing has ended. -/
def Written.andThen (first : Written) (next : Written) : Written :=
  match first.2 with
  | some failure => (first.1, some failure)
  | none => (first.1 ++ next.1, next.2)

namespace Report

/-- The debug log of a run: its diagnostics and that it was not evaluated, or
the error it ended in. -/
def log (report : Report) (file : String) : Output :=
  let diagnostics := report.diagnostics.map fun diagnostic =>
    Output.log "prattlang.parser.parser"
      (file ++ ":" ++ toString diagnostic.line ++ ": " ++ diagnostic.message)
  let skipped :=
    if report.diagnostics.isEmpty then Output.empty
    else
      Output.log "prattlang.runner"
        (file ++ ": " ++ toString report.diagnostics.length ++
          " parser error(s), skipping evaluation")
  let failed :=
    match report.value with
    | some (.error cause) => Output.log "prattlang.evaluator" (file ++ ": " ++ cause.message)
    | _ => Output.empty
  Output.all diagnostics ++ skipped ++ failed

/-- The tokens and the tree of a source. -/
def sourceOutput (report : Report) (levels : Nat) (source : String) : Written :=
  let tokens := Output.line "\nTokens:\n" ++ .line (Token.describeAll (tokenize source)) ++
    .line "\nAST:\n"
  match report.program.renderWithin levels with
  | .ok text => (tokens ++ .line text ++ .line " ", none)
  | .error fault => (tokens, some ⟨fault.kind, fault.message⟩)

/-- The diagnostics of a run, or its value. -/
def resultOutput (report : Report) (levels : Nat) : Written :=
  if report.ok then
    match report.value with
    | none => (.empty, none)
    | some value =>
      match value.display levels with
      | .ok text => (.line text, none)
      | .error fault => (.empty, some ⟨fault.kind, fault.message⟩)
  else
    (Output.line "parser errors:" ++ .all (report.errors.map fun message => .line ("\t" ++ message)),
      none)

/-- Everything a run writes: in debug mode its log, tokens and tree first. -/
def output (report : Report) (levels : Nat) (settings : Settings) (file source : String) :
    Written :=
  if settings.debug then
    Written.andThen (report.log file, none)
      (Written.andThen (report.sourceOutput levels source) (report.resultOutput levels))
  else report.resultOutput levels

end Report

/-- What a run in a session writes, a failure shown as its last line; and
whether all went well: nothing failed and the source had no diagnostics. -/
def Session.runOutput (session : Session) (levels : Nat) (settings : Settings)
    (file source : String) : Output × Bool × Session :=
  match session.run levels settings file source with
  | (.error fault, after) =>
      (Failure.output ⟨fault.kind, fault.message⟩, false, after)
  | (.ok report, after) =>
      match report.output levels settings file source with
      | (written, none) => (written, report.ok, after)
      | (written, some failure) => (written ++ failure.output, false, after)

end ExprLang
