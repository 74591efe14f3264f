import PredicateCalculus.Expr

/-! # Writing expressions

The written form puts an operand in brackets only where the grammar would otherwise read it
differently. Bound variables are written with the name that they were read with.

* `Place`: where an operand stands.
* `Expr.needsBrackets`: whether a tree in that place is written in brackets.
* `Expr.print`: the written form.
-/

set_option autoImplicit false

namespace PredicateCalculus

inductive Place where
  | leftOf (op : Connective)
  | rightOf (op : Connective)
  | elsewhere
  deriving Repr, DecidableEq

namespace Expr

/-- Chains of one connective lean to the left and do not mix `^` with `v`; implications lean to the
right; a quantifier reaches as far to the right as it can. -/
def needsBrackets (place : Place) : Expr → Bool
  | .var _ _ => false
  | .app _ _ _ => false
  | .neg _ _ => false
  | .quant _ _ _ _ => true
  | .compare _ _ _ _ => place == .elsewhere
  | .connect op _ _ _ =>
    match place with
    | .leftOf .implies => op == .implies
    | .leftOf outer => op != outer
    | .rightOf .implies => false
    | .rightOf _ => true
    | .elsewhere => true

def bracketed (brackets : Bool) (text : String) : String :=
  if brackets then "(" ++ text ++ ")" else text

mutual

/-- A negation is always written `~`, whatever its token. -/
def print : Expr → String
  | .var token _ => token.text
  | .app _ head arguments => head.text ++ "(" ++ printAll arguments ++ ")"
  | .connect op token left right =>
    bracketed (left.needsBrackets (.leftOf op)) (print left) ++ " " ++ token.text ++ " "
      ++ bracketed (right.needsBrackets (.rightOf op)) (print right)
  | .compare _ token left right =>
    bracketed (left.needsBrackets .elsewhere) (print left) ++ " " ++ token.text ++ " "
      ++ bracketed (right.needsBrackets .elsewhere) (print right)
  | .neg _ operand => "~" ++ bracketed (operand.needsBrackets .elsewhere) (print operand)
  | .quant _ token bound body => token.text ++ " " ++ bound.text ++ ". " ++ print body

def printAll : List Expr → String
  | [] => ""
  | [e] => bracketed (e.needsBrackets .elsewhere) (print e)
  | e :: rest => bracketed (e.needsBrackets .elsewhere) (print e) ++ ", " ++ printAll rest

end

end Expr

end PredicateCalculus
