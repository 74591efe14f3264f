import PredicateCalculus.Expr
import PredicateCalculus.NameTable

/-! # Signatures

A signature gives arities to function names and to predicate names, which do not clash with each
other. A tree can be checked against a signature and can extend it.

* `Signature`: the two tables of arities.
* `Expr.uses`: the applications in a tree with the number of their arguments, in preorder.
* `Policy`: whether a name without an arity is learned or refused.
* `Signature.survey`: goes through all uses of a tree, also after a failure, with what it learned
  on the way and the first failure.
* `Signature.absorb`: the signature after a tree without failure, else the first failure.
-/

set_option autoImplicit false

namespace PredicateCalculus

structure Signature where
  functions : NameTable Nat
  predicates : NameTable Nat
  deriving DecidableEq

/-- An application of a function or predicate to so many arguments. -/
structure Use where
  kind : HeadKind
  name : String
  arity : Nat
  deriving Repr, DecidableEq

inductive Policy where
  | learn
  | refuse
  deriving Repr, DecidableEq

inductive SignatureError where
  | unknownSymbol (use : Use)
  | arityMismatch (use : Use) (expected : Nat)
  deriving Repr, DecidableEq

namespace SignatureError

def use : SignatureError → Use
  | .unknownSymbol use => use
  | .arityMismatch use _ => use

def name (error : SignatureError) : String :=
  error.use.name

def message : SignatureError → String
  | .unknownSymbol use =>
    "Unknown " ++ use.kind.name ++ " '" ++ use.name ++ "' (used with " ++ toString use.arity
      ++ " arguments)"
  | .arityMismatch use expected =>
    use.kind.name ++ " '" ++ use.name ++ "' has arity " ++ toString expected
      ++ " but is used with " ++ toString use.arity ++ " arguments"

def help : SignatureError → Option String
  | .unknownSymbol _ => some "Declare the symbol in the language, or validate in fill-in mode"
  | .arityMismatch _ _ => none

end SignatureError

namespace Expr

/-- The use that a root makes of its own head. -/
def ownUse : Expr → Option Use
  | .app kind head arguments => some ⟨kind, head.text, arguments.length⟩
  | _ => none

def uses (e : Expr) : List Use :=
  e.preorder.filterMap ownUse

end Expr

namespace Signature

def empty : Signature :=
  ⟨.empty, .empty⟩

def isEmpty (σ : Signature) : Bool :=
  σ.functions.isEmpty && σ.predicates.isEmpty

def table (σ : Signature) : HeadKind → NameTable Nat
  | .function => σ.functions
  | .predicate => σ.predicates

def arity (σ : Signature) (kind : HeadKind) (name : String) : Option Nat :=
  (σ.table kind).find? name

def declare (σ : Signature) (kind : HeadKind) (name : String) (arity : Nat) : Signature :=
  match kind with
  | .function => { σ with functions := σ.functions.insert name arity }
  | .predicate => { σ with predicates := σ.predicates.insert name arity }

/-! ## Going through the uses of a tree -/

structure Survey where
  signature : Signature
  learned : List Use
  failure : Option SignatureError

namespace Survey

def start (σ : Signature) : Survey :=
  ⟨σ, [], none⟩

/-- Only the first failure is kept. -/
def fail (survey : Survey) (error : SignatureError) : Survey :=
  { survey with failure := survey.failure.or (some error) }

def learn (survey : Survey) (use : Use) : Survey :=
  { survey with
    signature := survey.signature.declare use.kind use.name use.arity
    learned := survey.learned ++ [use] }

def step (policy : Policy) (survey : Survey) (use : Use) : Survey :=
  match survey.signature.arity use.kind use.name with
  | some expected =>
    if expected = use.arity then survey else survey.fail (.arityMismatch use expected)
  | none =>
    match policy with
    | .learn => survey.learn use
    | .refuse => survey.fail (.unknownSymbol use)

def result (survey : Survey) : Except SignatureError Signature :=
  match survey.failure with
  | none => .ok survey.signature
  | some error => .error error

end Survey

def survey (policy : Policy) (σ : Signature) (e : Expr) : Survey :=
  e.uses.foldl (Survey.step policy) (.start σ)

def absorb (policy : Policy) (σ : Signature) (e : Expr) : Except SignatureError Signature :=
  (σ.survey policy e).result

/-! ## Declarations -/

theorem arity_declare (σ : Signature) (kind kind' : HeadKind) (name name' : String) (n : Nat) :
    (σ.declare kind name n).arity kind' name' =
      if kind = kind' ∧ name = name' then some n else σ.arity kind' name' := by
  cases kind <;> cases kind' <;> simp [declare, arity, table, NameTable.find?_insert]

theorem ext_arity {σ τ : Signature} (h : ∀ kind name, σ.arity kind name = τ.arity kind name) :
    σ = τ := by
  cases σ
  cases τ
  congr 1
  · exact NameTable.ext (h .function)
  · exact NameTable.ext (h .predicate)

end Signature

end PredicateCalculus
