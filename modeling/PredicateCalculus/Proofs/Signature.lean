import PredicateCalculus.Model

/-! # Uses and arities

The uses of a tree are those of its root and of its children, in this order. A signature can give a
use its arity, and can keep what another one gives. The signature of a model has the operations of
the model that have a fixed number of arguments.

* `Expr.uses_eq`: the uses of a tree from those of its children.
* `Signature.Gives`, `Signature.Keeps`: a signature agrees with a use, or with another signature.
* `Model.arity_signature`: the signature of a model gives the fixed arities of its operations.
-/

set_option autoImplicit false

namespace PredicateCalculus

/-! ## Uses -/

namespace Expr

theorem uses_eq (e : Expr) : e.uses = e.ownUse.toList ++ e.children.flatMap uses := by
  rw [uses, preorder_eq, List.filterMap_cons, List.filterMap_flatMap]
  cases e.ownUse <;> rfl

theorem mem_uses_of_child {e child : Expr} (isChild : child ∈ e.children) {use : Use}
    (member : use ∈ child.uses) : use ∈ e.uses := by
  rw [uses_eq]
  exact List.mem_append_right _ (List.mem_flatMap.mpr ⟨child, isChild, member⟩)

theorem mem_uses_app (kind : HeadKind) (head : Token) (arguments : List Expr) :
    ⟨kind, head.text, arguments.length⟩ ∈ (Expr.app kind head arguments).uses := by
  rw [uses_eq]
  exact List.mem_append_left _ List.mem_cons_self

end Expr

namespace Signature

def Gives (σ : Signature) (use : Use) : Prop :=
  σ.arity use.kind use.name = some use.arity

/-- All arities of the first signature are in the second. -/
def Keeps (σ τ : Signature) : Prop :=
  ∀ kind name n, σ.arity kind name = some n → τ.arity kind name = some n

theorem Keeps.refl (σ : Signature) : σ.Keeps σ :=
  fun _ _ _ given => given

theorem Keeps.trans {σ τ υ : Signature} (h : σ.Keeps τ) (h' : τ.Keeps υ) : σ.Keeps υ :=
  fun kind name n given => h' kind name n (h kind name n given)

theorem Keeps.gives {σ τ : Signature} (h : σ.Keeps τ) {use : Use} (given : σ.Gives use) :
    τ.Gives use :=
  h use.kind use.name use.arity given

end Signature

/-! ## The signature of a model -/

namespace NameTable

variable {β γ : Type}

theorem lookup_filterMap (f : β → Option γ) (name : String) {entries : List (String × β)}
    (ordered : entries.Pairwise fun left right => left.1 < right.1) :
    lookup name (entries.filterMap fun (other, value) => (f value).map (other, ·)) =
      (lookup name entries).bind f := by
  induction entries with
  | nil => rfl
  | cons head rest ih =>
    obtain ⟨other, value⟩ := head
    obtain ⟨below, ordered⟩ := List.pairwise_cons.mp ordered
    cases made : f value with
    | some result =>
      rw [List.filterMap_cons_some (by simp only [made, Option.map_some]; rfl), lookup, lookup,
        ih ordered]
      by_cases same : other = name
      · rw [if_pos same, if_pos same, Option.bind_some, made]
      · rw [if_neg same, if_neg same]
    | none =>
      rw [List.filterMap_cons_none (by simp only [made, Option.map_none]), lookup, ih ordered]
      by_cases same : other = name
      · rw [if_pos same, ← same, lookup_eq_none_of_forall_lt below, Option.bind_some, made,
          Option.bind_none]
      · rw [if_neg same]

theorem find?_filterMap (f : β → Option γ) (table : NameTable β) (name : String) :
    (table.filterMap f).find? name = (table.find? name).bind f :=
  lookup_filterMap f name table.ordered

end NameTable

namespace Model

variable {α : Type}

/-- What the model says about the number of arguments of an operation, if it has the operation. -/
def arity? (M : Model α) (kind : HeadKind) (name : String) : Option (Option Nat) :=
  match kind with
  | .function => (M.functions.find? name).map Operation.arity
  | .predicate => (M.predicates.find? name).map Operation.arity

def Lacks (M : Model α) : HeadKind → String → Prop
  | .function, name => M.functions.find? name = none
  | .predicate, name => M.predicates.find? name = none

theorem arity?_eq_none_iff {M : Model α} {kind : HeadKind} {name : String} :
    M.arity? kind name = none ↔ M.Lacks kind name := by
  cases kind <;> exact Option.map_eq_none_iff

theorem arity_signature (M : Model α) (kind : HeadKind) (name : String) :
    M.signature.arity kind name = (M.arity? kind name).join := by
  cases kind with
  | function =>
    show (M.functions.filterMap Operation.arity).find? name = _
    rw [NameTable.find?_filterMap, arity?]
    cases M.functions.find? name <;> rfl
  | predicate =>
    show (M.predicates.filterMap Operation.arity).find? name = _
    rw [NameTable.find?_filterMap, arity?]
    cases M.predicates.find? name <;> rfl

end Model

end PredicateCalculus
