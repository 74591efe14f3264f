import PredicateCalculus.Expr.Evaluation
import PredicateCalculus.Expr.Outline
import PredicateCalculus.Expr.ParseError
import PredicateCalculus.Expr.Sorting

/-! # Formulas

A text is accepted as a formula when it can be read, is well sorted, and agrees with the signature.
Only an accepted formula can change the signature. Every step leaves a log entry.

* `FormulaOptions`: first-order or propositional use, and the policy for names without an arity.
* `Rejection`: which of the three steps failed.
* `Formula`: an accepted tree with its text.
* `Formula.accept`: the steps in order, with the log, the signature afterwards, and the result.
-/

set_option autoImplicit false

namespace PredicateCalculus

structure FormulaOptions where
  firstOrder : Bool
  policy : Policy
  deriving Repr, DecidableEq

inductive Rejection where
  | parse (error : ParseError)
  | sorting (error : SortError)
  | signature (error : SignatureError)

structure Formula where
  source : String
  expr : Expr

inductive LogEntry where
  | token (t : Token)
  | parsed (source : String) (e : Expr)
  | misplaced (error : SortError)
  | learned (use : Use)
  | accepted (e : Expr)

structure Acceptance where
  log : List LogEntry
  signature : Signature
  result : Except Rejection Formula

namespace FormulaOptions

def default : FormulaOptions :=
  ⟨true, .learn⟩

end FormulaOptions

namespace Rejection

def message : Rejection → String
  | .parse error => error.message
  | .sorting error => error.message
  | .signature error => error.message

end Rejection

namespace LogEntry

/-- The level of the entry and its text. -/
def text : LogEntry → String
  | .token t => "TRACE token " ++ t.display
  | .parsed source e => "DEBUG parsed '" ++ source ++ "' as " ++ e.print
  | .misplaced error =>
    "DEBUG structure check failed at '" ++ error.subtree.print ++ "': " ++ error.violation.text
  | .learned use =>
    "DEBUG learned " ++ use.kind.name ++ " " ++ use.name ++ "/" ++ toString use.arity
  | .accepted e => "INFO accepted formula " ++ e.print

def isTrace : LogEntry → Bool
  | .token _ => true
  | _ => false

end LogEntry

namespace Formula

/-- The last two steps, for the tree of the text. -/
def acceptExpr (options : FormulaOptions) (σ : Signature) (source : String) (e : Expr) :
    Acceptance :=
  match e.formulaError options.firstOrder with
  | some error => ⟨[.misplaced error], σ, .error (.sorting error)⟩
  | none =>
    let survey := σ.survey options.policy e
    let learned := survey.learned.map LogEntry.learned
    match survey.result with
    | .error error => ⟨learned, σ, .error (.signature error)⟩
    | .ok τ => ⟨learned ++ [.accepted e], τ, .ok ⟨source, e⟩⟩

def accept (options : FormulaOptions) (σ : Signature) (source : String) : Acceptance :=
  let tokens := (Lexer.scan 0 source.toList).tokens.map LogEntry.token
  match Expr.parse source with
  | .error error => ⟨tokens, σ, .error (.parse error)⟩
  | .ok e =>
    let rest := acceptExpr options σ source e
    ⟨tokens ++ .parsed source e :: rest.log, rest.signature, rest.result⟩

/-- Acceptance as a first-order formula of a signature of its own. -/
def ofText (source : String) : Except Rejection Formula :=
  (accept .default .empty source).result

def evaluate {α : Type} [BEq α] (M : Model α) (v : Assignment α) (formula : Formula) :
    Except EvalError Bool :=
  (formula.expr.truth M v).outcome

end Formula

end PredicateCalculus
