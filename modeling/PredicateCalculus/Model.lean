import PredicateCalculus.Signature
import PredicateCalculus.Text.Quoted

/-! # Models

A model has a finite domain, listed in an order and perhaps with repetitions, and operations for
some function and predicate names. An operation takes a fixed number of arguments or any number.

* `Operation`: a map from argument lists, with its arity if that is fixed.
* `Model`: the domain and the operations.
* `Model.signature`: the arities that are fixed.
* `Value`, `Assignment`: elements or truth values, and what the free variables stand for.
-/

set_option autoImplicit false

namespace PredicateCalculus

structure Operation (α β : Type) where
  arity : Option Nat
  apply : List α → β

structure Model (α : Type) where
  domain : List α
  functions : NameTable (Operation α α)
  predicates : NameTable (Operation α Bool)

namespace Model

variable {α : Type}

def ofDomain (elements : List α) : Model α :=
  ⟨elements, .empty, .empty⟩

def withFunction (M : Model α) (name : String) (operation : Operation α α) : Model α :=
  { M with functions := M.functions.insert name operation }

def withPredicate (M : Model α) (name : String) (operation : Operation α Bool) : Model α :=
  { M with predicates := M.predicates.insert name operation }

def signature (M : Model α) : Signature :=
  ⟨M.functions.filterMap Operation.arity, M.predicates.filterMap Operation.arity⟩

/-- The domain, each element as `showElement` has it, and the names of the operations. -/
def describe (showElement : α → String) (M : Model α) : String :=
  "Model \x7b universe: [" ++ ", ".intercalate (M.domain.map showElement)
    ++ "], functions: [" ++ ", ".intercalate (M.functions.names.map Text.quoted)
    ++ "], predicates: [" ++ ", ".intercalate (M.predicates.names.map Text.quoted) ++ "] \x7d"

end Model

inductive Value (α : Type) where
  | element (x : α)
  | truth (b : Bool)
  deriving Repr

namespace Value

variable {α : Type}

/-- An element never equals a truth value. -/
def beq [BEq α] : Value α → Value α → Bool
  | .element left, .element right => left == right
  | .truth left, .truth right => left == right
  | _, _ => false

instance [BEq α] : BEq (Value α) := ⟨beq⟩

def describe (showElement : α → String) : Value α → String
  | .element x => "Element(" ++ showElement x ++ ")"
  | .truth b => "Truth(" ++ toString b ++ ")"

end Value

abbrev Assignment (α : Type) := NameTable (Value α)

end PredicateCalculus
