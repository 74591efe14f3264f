import PredicateCalculus.Expr

/-! # Equality of expressions

Two trees are equal for `==` when they have the same shape, the same tokens and the same references.
A variable is compared by its reference alone and a quantifier by its kind and body alone, so the
names of bound variables do not count.
-/

set_option autoImplicit false

namespace PredicateCalculus.Expr

mutual

def beq : Expr → Expr → Bool
  | .var _ reference, .var _ reference' => reference == reference'
  | .app kind head arguments, .app kind' head' arguments' =>
    kind == kind' && head == head' && beqAll arguments arguments'
  | .connect op token left right, .connect op' token' left' right' =>
    op == op' && token == token' && beq left left' && beq right right'
  | .compare op token left right, .compare op' token' left' right' =>
    op == op' && token == token' && beq left left' && beq right right'
  | .neg token operand, .neg token' operand' => token == token' && beq operand operand'
  | .quant quantifier _ _ body, .quant quantifier' _ _ body' =>
    quantifier == quantifier' && beq body body'
  | _, _ => false

def beqAll : List Expr → List Expr → Bool
  | [], [] => true
  | e :: rest, e' :: rest' => beq e e' && beqAll rest rest'
  | _, _ => false

end

instance : BEq Expr := ⟨beq⟩

end PredicateCalculus.Expr
