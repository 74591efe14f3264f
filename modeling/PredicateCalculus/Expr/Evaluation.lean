import PredicateCalculus.Expr.Printer
import PredicateCalculus.Model
import PredicateCalculus.Run

/-! # Evaluation

A tree is evaluated in a model under an assignment to its free variables and a list of elements for
the quantifiers around it, innermost first. Operands are all evaluated, from left to right; a
quantifier takes the elements of the domain in order and stops at the first that decides.

* `EvalError`: why there is no value.
* `Record`: what is noted when evaluation comes to a node and when it has its value.
* `Expr.evaluate`: the run of the evaluation.
* `Expr.value`, `Expr.truth`, `Expr.element`: runs for a closed context, the last two for a tree
  that is meant as a formula or as a term.
-/

set_option autoImplicit false

namespace PredicateCalculus

inductive EvalError where
  | unboundVariable (name : String)
  | danglingReference (name : String) (distance : Nat)
  | missingOperation (kind : HeadKind) (name : String)
  | arityMismatch (name : String) (expected found : Nat)
  | truthExpected (subtree : String)
  | elementExpected (subtree : String)
  deriving Repr, DecidableEq

namespace EvalError

def message : EvalError → String
  | .unboundVariable name => "Variable '" ++ name ++ "' has no value in the valuation"
  | .danglingReference name distance =>
    "Variable '" ++ name ++ "' refers to binder " ++ toString distance ++ " which is not in scope"
  | .missingOperation kind name => "Model has no " ++ kind.name ++ " '" ++ name ++ "'"
  | .arityMismatch name expected found =>
    "Model implements '" ++ name ++ "' with " ++ toString expected ++ " arguments, called with "
      ++ toString found
  | .truthExpected subtree =>
    "Expected a truth value, but '" ++ subtree ++ "' evaluates to something else"
  | .elementExpected subtree =>
    "Expected an element of the universe, but '" ++ subtree ++ "' evaluates to something else"

end EvalError

/-- The depth of a visit is the number of quantifiers around the node. -/
inductive Record (α : Type) where
  | visit (e : Expr) (depth : Nat)
  | evaluated (e : Expr) (value : Value α)

abbrev Evaluation (α β : Type) := Run (Record α) EvalError β

namespace Connective

def apply : Connective → Bool → Bool → Bool
  | .and, left, right => left && right
  | .or, left, right => left || right
  | .implies, left, right => !left || right

end Connective

namespace Comparison

def apply {α : Type} [BEq α] : Comparison → Value α → Value α → Bool
  | .equal, left, right => left == right
  | .unequal, left, right => !(left == right)

end Comparison

namespace Quantifier

/-- The truth value over an empty domain; the other one decides. -/
def neutral : Quantifier → Bool
  | .universal => true
  | .existential => false

def sweep {α : Type} (quantifier : Quantifier) (test : α → Evaluation α Bool) :
    List α → Evaluation α Bool
  | [] => pure quantifier.neutral
  | x :: rest => do
    let holds ← test x
    if holds = quantifier.neutral then sweep quantifier test rest else pure holds

end Quantifier

namespace Operation

/-- The lookup of an operation by name and its application. -/
def call {α β : Type} (kind : HeadKind) (name : String) (found : Option (Operation α β))
    (arguments : List α) : Except EvalError β :=
  match found with
  | none => .error (.missingOperation kind name)
  | some operation =>
    match operation.arity with
    | some expected =>
      if expected = arguments.length then .ok (operation.apply arguments)
      else .error (.arityMismatch name expected arguments.length)
    | none => .ok (operation.apply arguments)

end Operation

namespace Model

variable {α : Type}

def applyHead (M : Model α) (kind : HeadKind) (name : String) (arguments : List α) :
    Except EvalError (Value α) :=
  match kind with
  | .function => (Operation.call kind name (M.functions.find? name) arguments).map Value.element
  | .predicate => (Operation.call kind name (M.predicates.find? name) arguments).map Value.truth

end Model

namespace Value

variable {α : Type}

/-- The truth value that the value of `e` has to be. -/
def asTruth (e : Expr) : Value α → Except EvalError Bool
  | .truth b => .ok b
  | .element _ => .error (.truthExpected e.print)

/-- The element that the value of `e` has to be. -/
def asElement (e : Expr) : Value α → Except EvalError α
  | .element x => .ok x
  | .truth _ => .error (.elementExpected e.print)

end Value

namespace Reference

variable {α : Type}

def resolve (v : Assignment α) (frames : List α) (token : Token) :
    Reference → Except EvalError (Value α)
  | .free name =>
    match v.find? name with
    | some value => .ok value
    | none => .error (.unboundVariable name)
  | .bound distance =>
    match frames[distance]? with
    | some x => .ok (.element x)
    | none => .error (.danglingReference token.text distance)

end Reference

namespace Evaluation

variable {α β : Type}

def lift (outcome : Except EvalError β) : Evaluation α β :=
  ⟨[], outcome⟩

/-- Notes the visit of a node before its evaluation and its value after it. -/
def noted (e : Expr) (depth : Nat) (inner : Evaluation α (Value α)) : Evaluation α (Value α) := do
  Run.record (.visit e depth)
  let value ← inner
  Run.record (.evaluated e value)
  return value

end Evaluation

namespace Expr

variable {α : Type} [BEq α]

open Evaluation

mutual

def evaluate (M : Model α) (v : Assignment α) (frames : List α) (e : Expr) :
    Evaluation α (Value α) :=
  match e with
  | .var token reference =>
    noted (.var token reference) frames.length (lift (reference.resolve v frames token))
  | .app kind head arguments =>
    noted (.app kind head arguments) frames.length do
      let elements ← evaluateAll M v frames arguments
      lift (M.applyHead kind head.text elements)
  | .connect op token left right =>
    noted (.connect op token left right) frames.length do
      let leftTruth ← lift ((← evaluate M v frames left).asTruth left)
      let rightTruth ← lift ((← evaluate M v frames right).asTruth right)
      return .truth (op.apply leftTruth rightTruth)
  | .compare op token left right =>
    noted (.compare op token left right) frames.length do
      let leftValue ← evaluate M v frames left
      let rightValue ← evaluate M v frames right
      return .truth (op.apply leftValue rightValue)
  | .neg token operand =>
    noted (.neg token operand) frames.length do
      let truth ← lift ((← evaluate M v frames operand).asTruth operand)
      return .truth !truth
  | .quant quantifier token bound body =>
    noted (.quant quantifier token bound body) frames.length do
      let truth ← quantifier.sweep
        (fun x => do lift ((← evaluate M v (x :: frames) body).asTruth body)) M.domain
      return .truth truth

def evaluateAll (M : Model α) (v : Assignment α) (frames : List α) (arguments : List Expr) :
    Evaluation α (List α) :=
  match arguments with
  | [] => pure []
  | e :: rest => do
    let x ← lift ((← evaluate M v frames e).asElement e)
    return x :: (← evaluateAll M v frames rest)

end

def value (M : Model α) (v : Assignment α) (e : Expr) : Evaluation α (Value α) :=
  e.evaluate M v []

def truth (M : Model α) (v : Assignment α) (e : Expr) : Evaluation α Bool := do
  lift ((← e.evaluate M v []).asTruth e)

def element (M : Model α) (v : Assignment α) (e : Expr) : Evaluation α α := do
  lift ((← e.evaluate M v []).asElement e)

end Expr

end PredicateCalculus
