/-
# ExprLang.Command.Repl — the interactive loop

Each line is run in one session, so later lines see the bindings of earlier
ones. A line that is `exit` or `quit`, white space aside, leaves the loop; an
empty line does nothing. The loop also ends with the input, or when it is
interrupted.
-/
import ExprLang.Command.Output

namespace ExprLang.Repl

set_option autoImplicit false

/-- What is written when the loop starts. -/
def banner : Output :=
  .line "prattlang Interpreter - REPL" ++ .line "Type `exit` or `quit` to leave."

/-- What is written before each line is read. -/
def prompt : Output := .text ">>> "

/-- The name that lines are run under. -/
def file : String := "<stdin>"

/-- What a line does. -/
inductive Reply where
  | leave
  | again (written : Output) (session : Session)

/-- Run a line. -/
def reply (levels : Nat) (settings : Settings) (session : Session) (line : String) : Reply :=
  let command := Text.trim line
  if command = "exit" ∨ command = "quit" then .leave
  else if command.isEmpty then .again .empty session
  else
    let ended := session.runOutput levels settings file line
    .again ended.1 ended.2.2

/-- How the input can stop. -/
inductive Ending where
  | endOfInput
  | interrupt
  deriving DecidableEq, Repr

/-- What is written when the input stops. -/
def Ending.farewell : Ending → Output
  | .endOfInput => .line ""
  | .interrupt => .line "\nInterrupted."

/-- Run lines until one leaves the loop or the input stops. -/
def converse (levels : Nat) (settings : Settings) (ending : Ending) :
    Session → List String → Output
  | _, [] => prompt ++ ending.farewell
  | session, line :: rest =>
      match reply levels settings session line with
      | .leave => prompt
      | .again written after => prompt ++ written ++ converse levels settings ending after rest

end ExprLang.Repl
