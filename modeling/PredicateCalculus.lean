import PredicateCalculus.CommandLine
import PredicateCalculus.CommandLine.Request
import PredicateCalculus.Expr
import PredicateCalculus.Expr.Binding
import PredicateCalculus.Expr.Equality
import PredicateCalculus.Expr.Evaluation
import PredicateCalculus.Expr.Outline
import PredicateCalculus.Expr.ParseError
import PredicateCalculus.Expr.Parser
import PredicateCalculus.Expr.Printer
import PredicateCalculus.Expr.Sorting
import PredicateCalculus.Formula
import PredicateCalculus.Json
import PredicateCalculus.Main
import PredicateCalculus.Model
import PredicateCalculus.NameTable
import PredicateCalculus.Proofs.Evaluation.ByName
import PredicateCalculus.Proofs.Evaluation.Meaning
import PredicateCalculus.Proofs.Evaluation.Outcome
import PredicateCalculus.Proofs.Evaluation.Safety
import PredicateCalculus.Proofs.Formula
import PredicateCalculus.Proofs.Grammar.Completeness
import PredicateCalculus.Proofs.Grammar.Derivation
import PredicateCalculus.Proofs.Grammar.Soundness
import PredicateCalculus.Proofs.Grammar.Steps
import PredicateCalculus.Proofs.Grammar.Unambiguity
import PredicateCalculus.Proofs.Named
import PredicateCalculus.Proofs.Occurrence
import PredicateCalculus.Proofs.RoundTrip.Built
import PredicateCalculus.Proofs.RoundTrip.Levels
import PredicateCalculus.Proofs.RoundTrip.Parse
import PredicateCalculus.Proofs.RoundTrip.Spelling
import PredicateCalculus.Proofs.RoundTrip.Written
import PredicateCalculus.Proofs.Signature
import PredicateCalculus.Proofs.Sorting
import PredicateCalculus.Proofs.Token.Decomposition
import PredicateCalculus.Proofs.Token.Name
import PredicateCalculus.Reading
import PredicateCalculus.Run
import PredicateCalculus.Signature
import PredicateCalculus.Signature.Json
import PredicateCalculus.Symbol
import PredicateCalculus.Text.Blank
import PredicateCalculus.Text.Hidden
import PredicateCalculus.Text.Quoted
import PredicateCalculus.Text.Span
import PredicateCalculus.Token
import PredicateCalculus.Token.Cursor
import PredicateCalculus.Token.Lexer
import PredicateCalculus.Proofs.Equality.Alike
import PredicateCalculus.Proofs.Equality.Alpha
import PredicateCalculus.Proofs.Evaluation.Alike
import PredicateCalculus.Proofs.Equality.Congruence
import PredicateCalculus.Proofs.Scoping
import PredicateCalculus.Proofs.Session
import PredicateCalculus.Proofs.Grammar.Lookahead
import PredicateCalculus.Proofs.Grammar.Viability
import PredicateCalculus.Proofs.Respelling
import PredicateCalculus.Proofs.RoundTrip.Brackets
import PredicateCalculus.Proofs.RoundTrip.Minimal
import PredicateCalculus.Proofs.Json
import PredicateCalculus.Proofs.Signature.Json
import PredicateCalculus.Proofs.RoundTrip.Accepted
import PredicateCalculus.Proofs.CommandLine
import PredicateCalculus.Proofs.Signature.Extension
import PredicateCalculus.Proofs.Signature.Order
import PredicateCalculus.Proofs.Sorting.FirstViolation
import PredicateCalculus.Proofs.Evaluation.Duality
import PredicateCalculus.Proofs.Evaluation.Relevance
import PredicateCalculus.Proofs.Evaluation.Reordering
import PredicateCalculus.Proofs.CommandLine.Assignment
import PredicateCalculus.Proofs.CommandLine.Verdict
import PredicateCalculus.Proofs.Token.Concatenation
import PredicateCalculus.Proofs.Position
import PredicateCalculus.Proofs.Grammar.Yield
import PredicateCalculus.Proofs.Evaluation.Trace
import PredicateCalculus.Proofs.Binding
import PredicateCalculus.Proofs.Grammar.Descent
import PredicateCalculus.Proofs.Grammar.Progress
