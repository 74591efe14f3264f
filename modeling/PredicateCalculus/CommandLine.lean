import PredicateCalculus.CommandLine.Request
import PredicateCalculus.Formula
import PredicateCalculus.Signature.Json

/-! # The command line

A request is answered by the accepted formula, its outline on demand, the signature if there is
anything in it, and, when there are assignments, the truth value of the formula in the domain of the
two truth values.

On demand the log of the acceptance, without its traces, is among what is said about errors. Left
out are the times and places in front of its lines, and the lines of the evaluation, which are the
records of `Expr.truth`.

* `Outcome`: exit code, output, and what is said about errors.
* `Request.answer`: the outcome of a request.
* `CommandLine.run`: the outcome of a list of arguments.
-/

set_option autoImplicit false

namespace PredicateCalculus

structure Outcome where
  code : Nat
  output : String
  complaints : String
  deriving Repr, DecidableEq

namespace Request

def options (request : Request) : FormulaOptions :=
  ⟨!request.propositional, if request.strict then .refuse else .learn⟩

def startingSignature? (request : Request) : Option Signature :=
  match request.language with
  | none => some .empty
  | some text => Signature.ofJson? text

def assignment (request : Request) : Assignment Bool :=
  .ofList (request.assignments.map fun (name, truth) => (name, .truth truth))

/-- The lines about the formula itself. -/
def report (request : Request) (formula : Formula) (σ : Signature) : String :=
  formula.expr.print ++ "\n" ++ (if request.tree then formula.expr.outline else "")
    ++ (if σ.isEmpty then "" else σ.toJson ++ "\n")

def logLines (request : Request) (log : List LogEntry) : String :=
  if request.verbose then
    String.join ((log.filter (!·.isTrace)).map fun entry => entry.text ++ "\n")
  else ""

def answer (request : Request) : Outcome :=
  match request.startingSignature? with
  | none => ⟨1, "", "Error: invalid --language JSON\n"⟩
  | some σ =>
    let acceptance := Formula.accept request.options σ request.formula
    let log := request.logLines acceptance.log
    match acceptance.result with
    | .error rejection => ⟨1, "", log ++ "Error: " ++ rejection.message ++ "\n"⟩
    | .ok formula =>
      let output := request.report formula acceptance.signature
      if request.assignments.isEmpty then ⟨0, output, log⟩
      else
        match formula.evaluate (Model.ofDomain [false, true]) request.assignment with
        | .error error => ⟨1, output, log ++ "Error: " ++ error.message ++ "\n"⟩
        | .ok truth => ⟨0, output ++ toString truth ++ "\n", log⟩

end Request

namespace CommandLine

def usage : String :=
  "Usage: formula [-pstv] [-l JSON] [-a NAME=BOOL]... [--] FORMULA\n"

def run (arguments : List String) : Outcome :=
  match Request.ofArguments arguments with
  | none => ⟨2, "", usage⟩
  | some request => request.answer

end CommandLine

end PredicateCalculus
