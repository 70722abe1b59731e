import ExprLang.Command
import ExprLang.Command.Output
import ExprLang.Command.Repl
import ExprLang.Decimal
import ExprLang.Eval.Evaluate
import ExprLang.Eval.Machine
import ExprLang.Eval.Operator
import ExprLang.Lint
import ExprLang.Main
import ExprLang.Node
import ExprLang.Node.Alike
import ExprLang.Node.Render
import ExprLang.Parser.Grammar
import ExprLang.Parser.Routine
import ExprLang.Parser.State
import ExprLang.Proofs.Decimal
import ExprLang.Proofs.Eval.Activation
import ExprLang.Proofs.Eval.Balanced
import ExprLang.Proofs.Eval.Correspondence
import ExprLang.Proofs.Eval.Frame
import ExprLang.Proofs.Eval.Genuine
import ExprLang.Proofs.Eval.Height
import ExprLang.Proofs.Eval.Lines
import ExprLang.Proofs.Eval.Ordered
import ExprLang.Proofs.Eval.Raised
import ExprLang.Proofs.Eval.Realm
import ExprLang.Proofs.Eval.Reference
import ExprLang.Proofs.Eval.Refinement
import ExprLang.Proofs.Eval.Reused
import ExprLang.Proofs.Eval.Steps
import ExprLang.Proofs.Eval.Transparent
import ExprLang.Proofs.Eval.Unmentioned
import ExprLang.Proofs.Node.Canonical
import ExprLang.Proofs.Node.Placed
import ExprLang.Proofs.Parser.Accepted
import ExprLang.Proofs.Parser.Agreement
import ExprLang.Proofs.Parser.Ascending
import ExprLang.Proofs.Parser.Builds
import ExprLang.Proofs.Parser.Closing
import ExprLang.Proofs.Parser.Complete
import ExprLang.Proofs.Parser.Congruence
import ExprLang.Proofs.Parser.Contained
import ExprLang.Proofs.Parser.Derivation
import ExprLang.Proofs.Parser.Dropped
import ExprLang.Proofs.Parser.Ending
import ExprLang.Proofs.Parser.Handlers
import ExprLang.Proofs.Parser.Hidden
import ExprLang.Proofs.Parser.Honest
import ExprLang.Proofs.Parser.Joined
import ExprLang.Proofs.Parser.Keywords
import ExprLang.Proofs.Parser.Lines
import ExprLang.Proofs.Parser.Loops
import ExprLang.Proofs.Parser.Nesting
import ExprLang.Proofs.Parser.Orderly
import ExprLang.Proofs.Parser.Raised
import ExprLang.Proofs.Parser.Reads
import ExprLang.Proofs.Parser.Resume
import ExprLang.Proofs.Parser.RoundTrip
import ExprLang.Proofs.Parser.Scanned
import ExprLang.Proofs.Parser.Sound
import ExprLang.Proofs.Parser.Sparing
import ExprLang.Proofs.Parser.Unambiguous
import ExprLang.Proofs.Parser.WellFormed
import ExprLang.Proofs.Parser.Written
import ExprLang.Proofs.Session.Arithmetic
import ExprLang.Proofs.Session.Faults
import ExprLang.Proofs.Session.Lines
import ExprLang.Proofs.Session.Pieces
import ExprLang.Proofs.Session.Run
import ExprLang.Proofs.Session.Signals
import ExprLang.Proofs.Settings
import ExprLang.Proofs.Token.Division
import ExprLang.Proofs.Token.Joined
import ExprLang.Proofs.Token.Layout
import ExprLang.Proofs.Token.Lexed
import ExprLang.Proofs.Token.Spelled
import ExprLang.Proofs.Workspace.Events
import ExprLang.Proofs.Workspace.Index
import ExprLang.Scope
import ExprLang.Session
import ExprLang.Settings
import ExprLang.Text.Classes
import ExprLang.Text.Lines
import ExprLang.Text.Quoted
import ExprLang.Text.Utf8
import ExprLang.Text.Word
import ExprLang.Token
import ExprLang.Token.Segment
import ExprLang.Value
import ExprLang.Workspace
