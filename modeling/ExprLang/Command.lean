/-
# ExprLang.Command — the command line

Without arguments the command starts the interactive loop, with `-h` or `--help`
alone it shows its usage, with one other argument it runs that script, and with
anything else it shows its usage and fails. Bad settings are reported before any
of that.

`perform` is the command as a function: of the levels of recursion that the host's
stack has room for, the environment variables, the file a script is read from, and
the lines that can be typed.
-/
import ExprLang.Command.Repl
import ExprLang.Text.Lines
import ExprLang.Text.Utf8

namespace ExprLang

set_option autoImplicit false

/-- What there is under a file name. -/
inductive FileContents where
  | missing
  | directory
  | octets (content : List UInt8)

/-- What the arguments ask for. -/
inductive Command where
  | repl
  | help
  | script (name : String)
  | misuse
  deriving DecidableEq, Repr

namespace Command

def ofArguments : List String → Command
  | [] => .repl
  | [argument] => if argument = "-h" ∨ argument = "--help" then .help else .script argument
  | _ => .misuse

/-- The usage text. -/
def usage : Output :=
  .all ([
    "",
    "prattlang Interpreter",
    "",
    "Usage:",
    "    pratt <script>",
    "",
    "Arguments:",
    "    <script>",
    "        Path to a prattlang source file to execute. The value of the",
    "        last top-level statement is printed.",
    "",
    "Example:",
    "    pratt fib.pratt",
    "",
    "Or run with no arguments to enter interactive mode (REPL).",
    "",
    "Options:",
    "    -h, --help",
    "        Show this help message and exit."].map Output.line)

/-- The source text in a file, line ends made one. -/
def sourceOf (name : String) : FileContents → Except Failure String
  | .missing =>
      .error ⟨"FileNotFoundError", "[Errno 2] No such file or directory: " ++ Text.quote name⟩
  | .directory => .error ⟨"IsADirectoryError", "[Errno 21] Is a directory: " ++ Text.quote name⟩
  | .octets content =>
      match Text.Utf8.decode content with
      | .ok text => .ok (String.ofList (Text.unifyNewlines text))
      | .error fault => .error ⟨"UnicodeDecodeError", fault.message⟩

/-- The exit status of a command that went well, or did not. -/
def status (well : Bool) : Nat := if well then 0 else 1

/-- Run a script. -/
def runScript (levels : Nat) (settings : Settings) (name : String) (contents : FileContents) :
    Output × Nat :=
  match sourceOf name contents with
  | .error failure => (failure.output, status false)
  | .ok source =>
      let ended := Session.start.runOutput levels settings name source
      (ended.1, status ended.2.1)

/-- What a command writes and its exit status. -/
def perform (levels : Nat) (environment : Settings.Variables) (contents : String → FileContents)
    (lines : List String) (ending : Repl.Ending) (arguments : List String) : Output × Nat :=
  match Settings.load environment with
  | .error problem => (Failure.output ⟨"ValueError", problem.message⟩, status false)
  | .ok settings =>
      match ofArguments arguments with
      | .repl =>
          (Repl.banner ++ Repl.converse levels settings ending Session.start lines, status true)
      | .help => (usage, status true)
      | .script name => runScript levels settings name (contents name)
      | .misuse => (usage, status false)

end Command

end ExprLang
