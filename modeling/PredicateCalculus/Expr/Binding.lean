import PredicateCalculus.Expr

/-! # Binding

A quantifier binds by name when it is built: the free occurrences of its name become references to
it. References that are bound already are left alone.

* `Expr.bind`: turns the free occurrences of a name into references over a number of quantifiers.
* `Expr.quantify`: a quantifier over a tree.
* `Expr.freeVariables`: the free names in the order in which they first occur.
* `Expr.isFresh`: whether a name is not among them.
-/

set_option autoImplicit false

namespace PredicateCalculus

namespace Reference

def bind (name : String) (depth : Nat) : Reference → Reference
  | .free other => if other = name then .bound depth else .free other
  | .bound distance => .bound distance

end Reference

namespace Expr

mutual

/-- The depth counts the quantifiers passed on the way down. -/
def bind (name : String) (depth : Nat) : Expr → Expr
  | .var token reference => .var token (reference.bind name depth)
  | .app kind head arguments => .app kind head (bindAll name depth arguments)
  | .connect op token left right =>
    .connect op token (bind name depth left) (bind name depth right)
  | .compare op token left right =>
    .compare op token (bind name depth left) (bind name depth right)
  | .neg token operand => .neg token (bind name depth operand)
  | .quant quantifier token bound body =>
    .quant quantifier token bound (bind name (depth + 1) body)

def bindAll (name : String) (depth : Nat) : List Expr → List Expr
  | [] => []
  | e :: rest => bind name depth e :: bindAll name depth rest

end

def quantify (quantifier : Quantifier) (token bound : Token) (body : Expr) : Expr :=
  .quant quantifier token bound (body.bind bound.text 0)

/-! ## Free variables -/

mutual

/-- The names of the free occurrences from left to right, with repetitions. -/
def freeOccurrences : Expr → List String
  | .var _ (.free name) => [name]
  | .var _ (.bound _) => []
  | .app _ _ arguments => freeOccurrencesAll arguments
  | .connect _ _ left right => freeOccurrences left ++ freeOccurrences right
  | .compare _ _ left right => freeOccurrences left ++ freeOccurrences right
  | .neg _ operand => freeOccurrences operand
  | .quant _ _ _ body => freeOccurrences body

def freeOccurrencesAll : List Expr → List String
  | [] => []
  | e :: rest => freeOccurrences e ++ freeOccurrencesAll rest

end

def freeVariables (e : Expr) : List String :=
  e.freeOccurrences.eraseDups

mutual

def isFresh (name : String) : Expr → Bool
  | .var _ (.free other) => other != name
  | .var _ (.bound _) => true
  | .app _ _ arguments => isFreshAll name arguments
  | .connect _ _ left right => isFresh name left && isFresh name right
  | .compare _ _ left right => isFresh name left && isFresh name right
  | .neg _ operand => isFresh name operand
  | .quant _ _ _ body => isFresh name body

def isFreshAll (name : String) : List Expr → Bool
  | [] => true
  | e :: rest => isFresh name e && isFreshAll name rest

end

/-! ## Argument lists -/

theorem bindAll_eq (name : String) (depth : Nat) (arguments : List Expr) :
    bindAll name depth arguments = arguments.map (bind name depth) := by
  induction arguments with
  | nil => rfl
  | cons e rest ih => simp [bindAll, ih]

theorem freeOccurrencesAll_eq (arguments : List Expr) :
    freeOccurrencesAll arguments = arguments.flatMap freeOccurrences := by
  induction arguments with
  | nil => rfl
  | cons e rest ih => simp [freeOccurrencesAll, ih]

theorem isFreshAll_eq (name : String) (arguments : List Expr) :
    isFreshAll name arguments = arguments.all (isFresh name) := by
  induction arguments with
  | nil => rfl
  | cons e rest ih => simp [isFreshAll, ih]

end Expr

end PredicateCalculus
