/-
# ExprLang.Lint — running the linters

Two linters are run in turn over the same targets, each with its own options
and then the extra arguments. The result is how many of them failed; a failure
of one does not keep the other from running.
-/

namespace ExprLang.Lint

set_option autoImplicit false

/-- A linter and its options. -/
structure Linter where
  tool : String
  options : List String
  deriving DecidableEq, Repr

/-- What is linted. -/
def targets : List String := ["./prattlang", "./pratt.py", "./vscode/server/main.py"]

def linters : List Linter :=
  [⟨"flake8", ["--exclude=prattlang/tests", "--max-line-length=100"]⟩,
    ⟨"pylint", ["--ignore=tests", "--max-line-length=100"]⟩]

/-- The command line of a linter. -/
def Linter.command (linter : Linter) (extra : List String) : List String :=
  linter.tool :: targets ++ linter.options ++ extra

/-- Whether a linter that ended with a status failed. -/
def failed (status : Int) : Bool := status != 0

/-- What is written about a linter that ended with a status. -/
def Linter.transcript (linter : Linter) (status : Int) : String :=
  "Running " ++ linter.tool ++ "...\n" ++
    (if failed status then linter.tool ++ " exited with status " ++ toString status ++ "\n" else "")

/-- What came of a run: how many linters failed, the commands, and the text. -/
structure Summary where
  failures : Nat
  commands : List (List String)
  transcript : String
  deriving DecidableEq, Repr

/-- Run the linters, given the status each tool ends with. -/
def run (status : String → Int) (extra : List String) : Summary where
  failures := linters.countP fun linter => failed (status linter.tool)
  commands := linters.map fun linter => linter.command extra
  transcript := String.join (linters.map fun linter => linter.transcript (status linter.tool))

end ExprLang.Lint
