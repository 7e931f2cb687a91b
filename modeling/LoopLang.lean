import LoopLang.Text.Alphabetic
import LoopLang.Text.DecimalDigit
import LoopLang.Text.Recent
import LoopLang.Text.Unprintable
import LoopLang.Text.Quoted
import LoopLang.Text.Utf8
import LoopLang.Text.Numeral
import LoopLang.Text.Source
import LoopLang.Operator
import LoopLang.Ty
import LoopLang.Token
import LoopLang.Fault
import LoopLang.Diagnostic
import LoopLang.Diagnostic.Report
import LoopLang.Value
import LoopLang.Scope
import LoopLang.Token.Lexeme
import LoopLang.Token.Stream
import LoopLang.Expr
import LoopLang.Expr.Precedence
import LoopLang.Stmt
import LoopLang.Grammar.Kinds
import LoopLang.Grammar.Cursor
import LoopLang.Grammar.Expression
import LoopLang.Grammar.Statement
import LoopLang.Grammar.Program
import LoopLang.Typing
import LoopLang.Machine.Input
import LoopLang.Machine.Output
import LoopLang.Machine.Eval
import LoopLang.Machine.Exec
import LoopLang.Run
import LoopLang.CommandLine
import LoopLang.Main
import LoopLang.Proofs.Grammar.Derivation
import LoopLang.Proofs.Expr.Reference
import LoopLang.Proofs.Expr.Precedence
import LoopLang.Proofs.Expr.Brackets
import LoopLang.Proofs.Expr.Verdict
import LoopLang.Proofs.Token.Spelling
import LoopLang.Proofs.Grammar.Tree
import LoopLang.Proofs.Grammar.Reading
import LoopLang.Proofs.Grammar.Soundness
import LoopLang.Proofs.Grammar.Separators
import LoopLang.Proofs.Grammar.Completeness
import LoopLang.Proofs.Grammar.Formed
import LoopLang.Proofs.Grammar.Recovery
import LoopLang.Proofs.Token.Scanning
import LoopLang.Proofs.Token.StringLiteral
import LoopLang.Proofs.Token.Spans
import LoopLang.Proofs.Token.Slices
import LoopLang.Proofs.Grammar.Printing
import LoopLang.Proofs.Grammar.RoundTrip
import LoopLang.Proofs.Machine.Logic
import LoopLang.Proofs.Machine.Frame
import LoopLang.Proofs.Expr.Shape
import LoopLang.Proofs.Grammar.Confinement
import LoopLang.Proofs.Grammar.Resumption
import LoopLang.Proofs.Grammar.Recovered
import LoopLang.Proofs.Typing.Rules
import LoopLang.Proofs.Machine.Evaluation
import LoopLang.Proofs.Typing.Agreement
import LoopLang.Proofs.Machine.Safety
import LoopLang.Proofs.Machine.Events
import LoopLang.Proofs.Text.Lines
import LoopLang.Proofs.Diagnostic.Anchors
import LoopLang.Proofs.Diagnostic.Caret
import LoopLang.Proofs.Machine.Store
import LoopLang.Proofs.Typing.Rejection
import LoopLang.Proofs.Diagnostic.Order
import LoopLang.Proofs.Run.Stages
import LoopLang.Proofs.Expr.Places
import LoopLang.Proofs.Grammar.Places
import LoopLang.Proofs.Grammar.Layout
import LoopLang.Proofs.Typing.Places
import LoopLang.Proofs.Machine.Places
import LoopLang.Proofs.Run.Formatting
import LoopLang.Proofs.Scope.History
import LoopLang.Proofs.Typing.Blame
import LoopLang.Proofs.Machine.Words
import LoopLang.Proofs.Grammar.LoopHead
import LoopLang.Proofs.Grammar.Quotation
import LoopLang.Proofs.Machine.Rounds
import LoopLang.Proofs.Machine.Fresh
import LoopLang.Proofs.Machine.Arithmetic
import LoopLang.Proofs.Text.RoundTrip
import LoopLang.Proofs.Machine.ReadBack
import LoopLang.Proofs.Machine.Truncation
import LoopLang.Proofs.Grammar.Moves
import LoopLang.Proofs.Grammar.Progress
import LoopLang.Proofs.Grammar.Starters
