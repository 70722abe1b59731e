/-
# ExprLang.Parser.State — a parser at work

A parser stands in a token list, counts how many expressions and blocks it is
inside of, and collects diagnostics: a diagnostic is a problem and the line it was
met on. A parsing step ends in one of three ways: with a result, with a failure
that has been recorded as a diagnostic, or with a fault, which is nobody's
diagnostic: the stack ran out, a table names a rule where it does not fit, or a
nesting limit is passed that is itself too long to be written. However it ends,
the parser it leaves behind is kept.
-/
import ExprLang.Decimal
import ExprLang.Parser.Grammar
import ExprLang.Token.Segment

namespace ExprLang

set_option autoImplicit false

/-! ## The window -/

/-- A window on a token list: the token it stands on and those after it. It moves
only forward and never runs off the end: the last token is its own successor, so a
list closed by `eof` reads as if `eof` followed forever. -/
structure Window where
  curr : Token
  ahead : List Token
  deriving DecidableEq, Repr

namespace Window

/-- The window on the first token; of no tokens, on an `eof` of its own. -/
def ofTokens : List Token → Window
  | [] => ⟨⟨.eof, "", 1⟩, []⟩
  | token :: rest => ⟨token, rest⟩

/-- The token after the current one. -/
def peek (window : Window) : Token := window.ahead.headD window.curr

/-- Move one token on; at the last token, stay. -/
def advance (window : Window) : Window :=
  match window.ahead with
  | [] => window
  | token :: rest => ⟨token, rest⟩

/-- How many tokens lie between an earlier window on a list and a later one. -/
def distance (earlier later : Window) : Nat := earlier.ahead.length - later.ahead.length

theorem advance_curr (window : Window) : window.advance.curr = window.peek := by
  cases window with
  | mk curr ahead => cases ahead <;> rfl

theorem length_advance (window : Window) :
    window.advance.ahead.length = window.ahead.length - 1 := by
  cases window with
  | mk curr ahead => cases ahead <;> rfl

end Window

/-! ## Diagnostics -/

/-- What is wrong. A caller may also report a message of its own. -/
inductive Problem where
  | unexpected (wanted found : TokenKind)
  | noOperand (kind : TokenKind)
  | notAnInteger (literal : String)
  | tooNested (limit : Int)
  | reported (text : String)
  deriving DecidableEq, Repr

def Problem.message : Problem → String
  | .unexpected wanted found =>
      "expected next token to be " ++ wanted.name ++ ", got " ++ found.name ++ " instead"
  | .noOperand kind => "no prefix parse function for " ++ kind.name ++ " found"
  | .notAnInteger literal => "could not parse '" ++ literal ++ "' as integer"
  | .tooNested limit => "maximum nesting depth of " ++ toString limit ++ " exceeded"
  | .reported text => text

/-- A problem and its line. -/
structure Diagnostic where
  problem : Problem
  line : Int
  deriving DecidableEq, Repr

def Diagnostic.message (diagnostic : Diagnostic) : String := diagnostic.problem.message

/-! ## Parsers -/

/-- A parser between two steps. -/
structure Parser where
  window : Window
  depth : Nat
  diagnostics : List Diagnostic
  deriving DecidableEq, Repr

namespace Parser

/-- A parser at the start of a token list. -/
def ofTokens (tokens : List Token) : Parser := ⟨Window.ofTokens tokens, 0, []⟩

/-- A parser at the start of a text. -/
def ofSource (source : String) : Parser := ofTokens (tokenize source)

def curr (parser : Parser) : Token := parser.window.curr

def peek (parser : Parser) : Token := parser.window.peek

/-- The tokens from the current one on. -/
def tokens (parser : Parser) : List Token := parser.curr :: parser.window.ahead

/-- Whether one more expression or block would pass a nesting limit. -/
def atLimit (parser : Parser) (limit : Int) : Bool := decide (limit ≤ parser.depth)

/-- Move one token on. -/
def advance (parser : Parser) : Parser := { parser with window := parser.window.advance }

/-- Record a problem on a line. -/
def record (parser : Parser) (problem : Problem) (line : Int) : Parser :=
  { parser with diagnostics := parser.diagnostics ++ [⟨problem, line⟩] }

/-- Record a problem on the line of the current token. -/
def recordHere (parser : Parser) (problem : Problem) : Parser :=
  parser.record problem parser.curr.line

/-- The diagnostic messages in the order they were recorded. -/
def errors (parser : Parser) : List String := parser.diagnostics.map Diagnostic.message

end Parser

/-- Why a parsing step broke off without a diagnostic. -/
inductive ParseFault where
  | stackExhausted
  | missingOperand (rule : Rule)
  | unwantedOperand (rule : Rule)
  | notALevel (typeName : String)
  | tooLong
  deriving DecidableEq, Repr

def ParseFault.message : ParseFault → String
  | .stackExhausted => "maximum recursion depth exceeded"
  | .missingOperand rule =>
      "Parser." ++ rule.name ++ "() missing 1 required positional argument: '" ++
        rule.parameter?.getD "" ++ "'"
  | .unwantedOperand rule =>
      "Parser." ++ rule.name ++ "() takes 1 positional argument but 2 were given"
  | .notALevel typeName =>
      "'<' not supported between instances of '" ++ typeName ++ "' and 'Priority'"
  | .tooLong => Decimal.tooLongMessage

/-- The name a fault is shown under. -/
def ParseFault.kind : ParseFault → String
  | .stackExhausted => "RecursionError"
  | .tooLong => "ValueError"
  | .missingOperand _ | .unwantedOperand _ | .notALevel _ => "TypeError"

/-- How a parsing step ended. -/
inductive Outcome (α : Type) where
  | parsed (result : α)
  | failed
  | fault (cause : ParseFault)
  deriving DecidableEq, Repr

/-- How a step ended, with its result changed. -/
def Outcome.map {α β : Type} (change : α → β) : Outcome α → Outcome β
  | .parsed result => .parsed (change result)
  | .failed => .failed
  | .fault cause => .fault cause

/-- A parsing step: from a parser to how it ended and the parser it left. -/
def Parse (α : Type) : Type := Parser → Outcome α × Parser

namespace Parse

variable {α β : Type}

/-- End with a result. -/
def done (result : α) : Parse α := fun parser => (.parsed result, parser)

/-- Go on with a result; a failure or a fault ends both steps. -/
def andThen (step : Parse α) (next : α → Parse β) : Parse β := fun parser =>
  match step parser with
  | (.parsed result, after) => next result after
  | (.failed, after) => (.failed, after)
  | (.fault cause, after) => (.fault cause, after)

instance : Monad Parse where
  pure := done
  bind := andThen

/-- Break off with a fault. -/
def breakOff (cause : ParseFault) : Parse α := fun parser => (.fault cause, parser)

/-- Record a problem on the current line and fail. -/
def failHere (problem : Problem) : Parse α := fun parser => (.failed, parser.recordHere problem)

/-- The current token. -/
def current : Parse Token := fun parser => (.parsed parser.curr, parser)

/-- Move one token on. -/
def advance : Parse Unit := fun parser => (.parsed (), parser.advance)

/-- Move on if the next token is of a kind; record a problem on its line and
fail otherwise. -/
def expect (kind : TokenKind) : Parse Unit := fun parser =>
  if parser.peek.kind = kind then (.parsed (), parser.advance)
  else (.failed, parser.record (.unexpected kind parser.peek.kind) parser.peek.line)

/-- Record on the current line that a nesting limit is passed and fail; a limit
that is too long to be written cannot be named, and breaks the step off instead. -/
def overLimit (limit : Int) : Parse α :=
  if Decimal.Writable limit then failHere (.tooNested limit) else breakOff .tooLong

/-- Run a step one level deeper, unless the limit is reached. The depth is
counted back however the step ends. -/
def nested (limit : Int) (step : Parse α) : Parse α := fun parser =>
  if parser.atLimit limit then overLimit limit parser
  else
    let ended := step { parser with depth := parser.depth + 1 }
    (ended.1, { ended.2 with depth := ended.2.depth - 1 })

/-- Run a step and take a semicolon after it, also after a failure. -/
def terminated (step : Parse α) : Parse α := fun parser =>
  match step parser with
  | (.fault cause, after) => (.fault cause, after)
  | (outcome, after) =>
      (outcome, if after.peek.kind = .semicolon then after.advance else after)

end Parse

end ExprLang
