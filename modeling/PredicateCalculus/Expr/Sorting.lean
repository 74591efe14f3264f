import PredicateCalculus.Expr.Printer

/-! # Terms and formulas in their places

In first-order use connectives, negations and quantifiers work on formulas, comparisons and
applications on terms, and the whole is a formula. In propositional use there are variables,
connectives and negations only, and nothing else is asked of them.

* `Violation`: the ways to break this.
* `Expr.ownViolation`: what a root does wrong with its own children.
* `Expr.sortError`: what is wrong at the root, else in the first child in which something is wrong.
* `Expr.formulaError`: the same for a tree that is meant as a whole formula.
-/

set_option autoImplicit false

namespace PredicateCalculus

inductive Violation where
  | operandNotFormula
  | operandNotTerm
  | firstOrderOnly
  | termAsFormula
  deriving Repr, DecidableEq

structure SortError where
  violation : Violation
  subtree : Expr

namespace Violation

def text : Violation → String
  | .operandNotFormula => "operands must be formulas"
  | .operandNotTerm => "operands must be terms"
  | .firstOrderOnly => "only allowed in first-order formulas"
  | .termAsFormula => "a term is not a formula"

end Violation

namespace SortError

def message (error : SortError) : String :=
  "Invalid formula, " ++ error.violation.text ++ ": " ++ error.subtree.print

end SortError

namespace Expr

def ownViolation (firstOrder : Bool) (e : Expr) : Option Violation :=
  match e with
  | .var _ _ => none
  | .connect _ _ _ _ | .neg _ _ =>
    if firstOrder && !e.children.all isFormula then some .operandNotFormula else none
  | .compare _ _ _ _ | .app _ _ _ =>
    if !firstOrder then some .firstOrderOnly
    else if !e.children.all isTerm then some .operandNotTerm
    else none
  | .quant _ _ _ _ =>
    if !firstOrder then some .firstOrderOnly
    else if !e.children.all isFormula then some .operandNotFormula
    else none

def ownSortError (firstOrder : Bool) (e : Expr) : Option SortError :=
  (e.ownViolation firstOrder).map fun violation => ⟨violation, e⟩

mutual

def sortError (firstOrder : Bool) (e : Expr) : Option SortError :=
  match e with
  | .var _ _ => none
  | .app kind head arguments =>
    (ownSortError firstOrder (.app kind head arguments)).or (sortErrorAll firstOrder arguments)
  | .connect op token left right =>
    (ownSortError firstOrder (.connect op token left right)).or
      ((sortError firstOrder left).or (sortError firstOrder right))
  | .compare op token left right =>
    (ownSortError firstOrder (.compare op token left right)).or
      ((sortError firstOrder left).or (sortError firstOrder right))
  | .neg token operand =>
    (ownSortError firstOrder (.neg token operand)).or (sortError firstOrder operand)
  | .quant quantifier token bound body =>
    (ownSortError firstOrder (.quant quantifier token bound body)).or (sortError firstOrder body)

def sortErrorAll (firstOrder : Bool) (arguments : List Expr) : Option SortError :=
  match arguments with
  | [] => none
  | e :: rest => (sortError firstOrder e).or (sortErrorAll firstOrder rest)

end

def formulaError (firstOrder : Bool) (e : Expr) : Option SortError :=
  if firstOrder && e.isTerm then some ⟨.termAsFormula, e⟩ else e.sortError firstOrder

end Expr

end PredicateCalculus
