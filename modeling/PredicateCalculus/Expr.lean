import PredicateCalculus.Token

/-! # Expressions

Terms and formulas are the same kind of tree, so that a tree which mixes the two badly can be built,
printed and reported. Every node keeps the token it was read from.

* `Reference`: what a variable stands for. A free variable has a name; a bound one has the number of
  quantifiers between it and its own, the innermost being `0`.
* `Expr`: the trees. A quantifier also keeps the token of the name that it binds.
* `Expr.isTerm`, `Expr.isFormula`, `Expr.isAtomic`: what a tree is at its root.
* `Expr.left`, `Expr.right`, `Expr.child`: operands, for a root with the right number of them.
* `Expr.preorder`, `Expr.descend`: all subtrees, and the one at the end of a path.
-/

set_option autoImplicit false

namespace PredicateCalculus

inductive Reference where
  | free (name : String)
  | bound (distance : Nat)
  deriving Repr, DecidableEq

/-- The two kinds of symbols that take arguments. -/
inductive HeadKind where
  | function
  | predicate
  deriving Repr, DecidableEq

inductive Connective where
  | and
  | or
  | implies
  deriving Repr, DecidableEq

inductive Comparison where
  | equal
  | unequal
  deriving Repr, DecidableEq

inductive Quantifier where
  | universal
  | existential
  deriving Repr, DecidableEq

inductive Expr where
  | var (token : Token) (reference : Reference)
  | app (kind : HeadKind) (head : Token) (arguments : List Expr)
  | connect (op : Connective) (token : Token) (left right : Expr)
  | compare (op : Comparison) (token : Token) (left right : Expr)
  | neg (token : Token) (operand : Expr)
  | quant (quantifier : Quantifier) (token bound : Token) (body : Expr)

namespace HeadKind

def name : HeadKind → String
  | .function => "function"
  | .predicate => "predicate"

end HeadKind

namespace Connective

def symbol : Connective → Symbol
  | .and => .and
  | .or => .or
  | .implies => .implies

end Connective

namespace Comparison

def symbol : Comparison → Symbol
  | .equal => .equal
  | .unequal => .unequal

end Comparison

namespace Quantifier

def symbol : Quantifier → Symbol
  | .universal => .forAll
  | .existential => .forSome

end Quantifier

/-- An operand was asked for at a root that has another number of operands. -/
structure OperandError where
  operand : String
  arity : Nat
  deriving Repr, DecidableEq

namespace OperandError

def message (error : OperandError) : String :=
  "Cannot access '" ++ error.operand ++ "' of a node with " ++ toString error.arity ++ " children"

end OperandError

namespace Expr

/-- The variable that a token names, free. -/
def named (token : Token) : Expr :=
  .var token (.free token.text)

def token : Expr → Token
  | .var token _ => token
  | .app _ head _ => head
  | .connect _ token _ _ => token
  | .compare _ token _ _ => token
  | .neg token _ => token
  | .quant _ token _ _ => token

def children : Expr → List Expr
  | .var _ _ => []
  | .app _ _ arguments => arguments
  | .connect _ _ left right => [left, right]
  | .compare _ _ left right => [left, right]
  | .neg _ operand => [operand]
  | .quant _ _ _ body => [body]

/-- The token of the name that a quantifier binds. -/
def bound? : Expr → Option Token
  | .quant _ _ bound _ => some bound
  | _ => none

def isTerm : Expr → Bool
  | .var _ _ => true
  | .app .function _ _ => true
  | _ => false

def isFormula (e : Expr) : Bool :=
  !e.isTerm

def isAtomic : Expr → Bool
  | .var _ _ => true
  | .app _ _ _ => true
  | _ => false

/-! ## Operands -/

def left (e : Expr) : Except OperandError Expr :=
  match e.children with
  | [left, _] => .ok left
  | children => .error ⟨"left", children.length⟩

def right (e : Expr) : Except OperandError Expr :=
  match e.children with
  | [_, right] => .ok right
  | children => .error ⟨"right", children.length⟩

def child (e : Expr) : Except OperandError Expr :=
  match e.children with
  | [child] => .ok child
  | children => .error ⟨"child", children.length⟩

/-! ## Subtrees -/

mutual

/-- The tree and its subtrees, each before its own children, children from left to right. -/
def preorder : Expr → List Expr
  | .var token reference => [.var token reference]
  | .app kind head arguments => .app kind head arguments :: preorderAll arguments
  | .connect op token left right =>
    .connect op token left right :: (preorder left ++ preorder right)
  | .compare op token left right =>
    .compare op token left right :: (preorder left ++ preorder right)
  | .neg token operand => .neg token operand :: preorder operand
  | .quant quantifier token bound body => .quant quantifier token bound body :: preorder body

def preorderAll : List Expr → List Expr
  | [] => []
  | e :: rest => preorder e ++ preorderAll rest

end

/-- The subtree reached by going to the child of each number in turn. -/
def descend : List Nat → Expr → Option Expr
  | [], e => some e
  | index :: path, e => e.children[index]?.bind (descend path)

theorem preorderAll_eq (arguments : List Expr) :
    preorderAll arguments = arguments.flatMap preorder := by
  induction arguments with
  | nil => rfl
  | cons e rest ih => simp [preorderAll, ih]

theorem preorder_eq (e : Expr) : e.preorder = e :: e.children.flatMap preorder := by
  cases e <;> simp [preorder, preorderAll_eq, children]

end Expr

end PredicateCalculus
