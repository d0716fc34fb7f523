import Frontend.Binary64.Basic
import Frontend.Binary64.Text
import Frontend.Command.Arguments
import Frontend.Command.Directory
import Frontend.Command.Run
import Frontend.Diagnostic.Basic
import Frontend.Diagnostic.Sink
import Frontend.Diagnostic.Snippet
import Frontend.Diagnostic.Terminal
import Frontend.Event
import Frontend.Expr
import Frontend.Kind
import Frontend.Kind.Operation
import Frontend.Kind.Rules
import Frontend.Main
import Frontend.Method
import Frontend.Numeral
import Frontend.Operator
import Frontend.Proofs.CharClass
import Frontend.Proofs.Comparison
import Frontend.Proofs.Compose
import Frontend.Proofs.Context
import Frontend.Proofs.Cover
import Frontend.Proofs.Diagnosis
import Frontend.Proofs.EvaluationLog
import Frontend.Proofs.Executor
import Frontend.Proofs.Failure
import Frontend.Proofs.Fault
import Frontend.Proofs.FloatText
import Frontend.Proofs.Heading
import Frontend.Proofs.Integer
import Frontend.Proofs.Label
import Frontend.Proofs.Layout
import Frontend.Proofs.LetterRun
import Frontend.Proofs.Linear
import Frontend.Proofs.Listing
import Frontend.Proofs.Literal
import Frontend.Proofs.Munch
import Frontend.Proofs.Offset
import Frontend.Proofs.Operation
import Frontend.Proofs.PlainText
import Frontend.Proofs.Position
import Frontend.Proofs.Promotion
import Frontend.Proofs.Readability
import Frontend.Proofs.Rebuild
import Frontend.Proofs.Report
import Frontend.Proofs.Respacing
import Frontend.Proofs.Rule
import Frontend.Proofs.Scanner
import Frontend.Proofs.Separator
import Frontend.Proofs.Shift
import Frontend.Proofs.Shortest
import Frontend.Proofs.Site
import Frontend.Proofs.Slice
import Frontend.Proofs.Soundness
import Frontend.Proofs.Spelling
import Frontend.Proofs.Stability
import Frontend.Proofs.Start
import Frontend.Proofs.Unstyled
import Frontend.Proofs.Verdict
import Frontend.Proofs.Winner
import Frontend.Proofs.Wrapping
import Frontend.Source.Line
import Frontend.Source.Position
import Frontend.Text.Escape
import Frontend.Text.Styled
import Frontend.Text.Unicode
import Frontend.Token
import Frontend.Token.Lexeme
import Frontend.Token.Lossless
import Frontend.Token.Pattern
import Frontend.Token.Stream
import Frontend.TypeError
import Frontend.TypeError.Diagnostic
import Frontend.Value
