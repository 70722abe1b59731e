/-
# ExprLang.Main — the program

Reads the environment, the script and standard input, and writes what
`Command.perform` says; the interactive loop answers each line as it is typed.

The stack of the host is counted in levels of recursion, the same for parsing,
evaluating and rendering. The limits of the language stay well below it unless they
are raised.
-/
import ExprLang.Command

namespace ExprLang.Main

set_option autoImplicit false

/-- Levels of recursion that are run before the stack counts as exhausted. -/
def stackLevels : Nat := 500

/-- Write to standard output and standard error. -/
def write (output : Output) : IO Unit := do
  (← IO.getStderr).putStr output.err
  let stdout ← IO.getStdout
  stdout.putStr output.out
  stdout.flush

/-- The environment variables that are read. -/
def environment : IO Settings.Variables := do
  let names := [LimitName.nesting.variableName, LimitName.callDepth.variableName,
    LimitName.evalDepth.variableName, Settings.debugVariable]
  let found ← names.mapM fun name => do return (name, ← IO.getEnv name)
  return fun name => (found.lookup name).join

/-- What there is under a file name. -/
def contents (name : String) : IO FileContents := do
  try
    return .octets (← IO.FS.readBinFile name).toList
  catch
    | .noFileOrDirectory .. => return .missing
    | .inappropriateType .. => return .directory
    | problem => throw problem

/-- Answer lines that were typed; whether to go on, and with which session. -/
def answer (settings : Settings) : Session → List String → IO (Option Session)
  | session, [] => return some session
  | session, line :: rest => do
      match Repl.reply stackLevels settings session line with
      | .leave => return none
      | .again written after =>
          write written
          write (if rest.isEmpty then .empty else Repl.prompt)
          answer settings after rest

/-- The interactive loop. -/
partial def converse (settings : Settings) (session : Session) : IO Unit := do
  write Repl.prompt
  let typed ← (← IO.getStdin).getLine
  if typed.isEmpty then write Repl.Ending.endOfInput.farewell
  else
    match ← answer settings session (Text.inputLines typed) with
    | some after => converse settings after
    | none => return

/-- Run the command that the arguments ask for. -/
def run (arguments : List String) : IO UInt32 := do
  let held ← environment
  match Settings.load held, Command.ofArguments arguments with
  | .ok settings, .repl =>
      write Repl.banner
      converse settings Session.start
      return 0
  | _, command =>
      let file ←
        match command with
        | .script name => contents name
        | _ => pure .missing
      let (output, status) :=
        Command.perform stackLevels held (fun _ => file) [] .endOfInput arguments
      write output
      return status.toUInt32

end ExprLang.Main

def main (arguments : List String) : IO UInt32 := ExprLang.Main.run arguments
