import PredicateCalculus.Expr

/-! # Outlines

An outline shows a tree with one line for each node, children below their parent and two columns
further in. After its token a bound variable shows its distance and a quantifier the name it binds.

* `Expr.outlineLines`: the lines, for a root at a given depth.
* `Expr.outline`: the outline of a tree.
-/

set_option autoImplicit false

namespace PredicateCalculus.Expr

def outlineDetail : Expr → String
  | .var _ (.bound distance) => " #" ++ toString distance
  | .quant _ _ bound _ => " " ++ bound.text
  | _ => ""

def outlineLine (depth : Nat) (e : Expr) : String :=
  String.ofList (List.replicate (2 * depth) ' ') ++ e.token.display ++ e.outlineDetail ++ "\n"

mutual

def outlineLines (depth : Nat) : Expr → List String
  | .var token reference => [outlineLine depth (.var token reference)]
  | .app kind head arguments =>
    outlineLine depth (.app kind head arguments) :: outlineAll (depth + 1) arguments
  | .connect op token left right =>
    outlineLine depth (.connect op token left right)
      :: (outlineLines (depth + 1) left ++ outlineLines (depth + 1) right)
  | .compare op token left right =>
    outlineLine depth (.compare op token left right)
      :: (outlineLines (depth + 1) left ++ outlineLines (depth + 1) right)
  | .neg token operand =>
    outlineLine depth (.neg token operand) :: outlineLines (depth + 1) operand
  | .quant quantifier token bound body =>
    outlineLine depth (.quant quantifier token bound body) :: outlineLines (depth + 1) body

def outlineAll (depth : Nat) : List Expr → List String
  | [] => []
  | e :: rest => outlineLines depth e ++ outlineAll depth rest

end

def outline (e : Expr) : String :=
  String.join (outlineLines 0 e)

theorem outlineAll_eq (depth : Nat) (arguments : List Expr) :
    outlineAll depth arguments = arguments.flatMap (outlineLines depth) := by
  induction arguments with
  | nil => rfl
  | cons e rest ih => simp [outlineAll, ih]

theorem outlineLines_eq (depth : Nat) (e : Expr) :
    e.outlineLines depth =
      outlineLine depth e :: e.children.flatMap (outlineLines (depth + 1)) := by
  cases e <;> simp [outlineLines, outlineAll_eq, children]

end PredicateCalculus.Expr
