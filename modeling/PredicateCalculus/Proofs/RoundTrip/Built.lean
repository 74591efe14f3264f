import PredicateCalculus.Proofs.Grammar.Derivation
import PredicateCalculus.Proofs.Occurrence

/-! # Trees that can be built

Trees are built by the constructors from names and from the usual symbols. Where subtrees may be
taken out and used again, a bound variable can lose its quantifier or come under another one. What
remains true is that free variables stand for themselves.

* `Expr.Usual`: every token is one that the grammar has in its place.
* `Expr.Built`: the trees that can be built, with or without a second use of subtrees.
* `Expr.Built.usual`, `Expr.Built.freeInNames`: what all of them have in common.
* `Expr.Built.resolved`: without a second use, all names are resolved.
-/

set_option autoImplicit false

namespace PredicateCalculus

namespace Expr

/-! ## Tokens in their places -/

inductive Usual : Expr → Prop where
  | var (name : Name) (reference : Reference) : Usual (.var name.token reference)
  | app (kind : HeadKind) (head : Name) (suits : kind.Suits head.token.text)
      (arguments : List Expr) (each : ∀ e ∈ arguments, Usual e) :
      Usual (.app kind head.token arguments)
  | connect (op : Connective) (sign : Mark op.symbol) (left right : Expr) (first : Usual left)
      (second : Usual right) : Usual (.connect op sign.token left right)
  | compare (op : Comparison) (sign : Mark op.symbol) (left right : Expr) (first : Usual left)
      (second : Usual right) : Usual (.compare op sign.token left right)
  | neg (sign : Mark .not) (operand : Expr) (inner : Usual operand) :
      Usual (.neg sign.token operand)
  | quant (quantifier : Quantifier) (sign : Mark quantifier.symbol) (bound : Name) (body : Expr)
      (inner : Usual body) : Usual (.quant quantifier sign.token bound.token body)

theorem Usual.bind {e : Expr} (h : e.Usual) (name : String) (depth : Nat) :
    (e.bind name depth).Usual := by
  induction h generalizing depth with
  | var token reference => exact .var token _
  | app kind head suits arguments each ih =>
    rw [Expr.bind, bindAll_eq]
    refine .app kind head suits _ fun e member => ?_
    obtain ⟨argument, mem, rfl⟩ := List.mem_map.mp member
    exact ih argument mem depth
  | connect op sign left right _ _ ihLeft ihRight =>
    exact .connect op sign _ _ (ihLeft depth) (ihRight depth)
  | compare op sign left right _ _ ihLeft ihRight =>
    exact .compare op sign _ _ (ihLeft depth) (ihRight depth)
  | neg sign operand _ ih => exact .neg sign _ (ih depth)
  | quant quantifier sign bound body _ ih => exact .quant quantifier sign bound _ (ih (depth + 1))

theorem Usual.child {e child : Expr} (h : e.Usual) (member : child ∈ e.children) :
    child.Usual := by
  cases h with
  | var => cases member
  | app kind head suits arguments each => exact each child member
  | connect op sign left right first second =>
    rcases List.mem_pair.mp member with rfl | rfl
    · exact first
    · exact second
  | compare op sign left right first second =>
    rcases List.mem_pair.mp member with rfl | rfl
    · exact first
    · exact second
  | neg sign operand inner => exact List.mem_singleton.mp member ▸ inner
  | quant quantifier sign bound body inner => exact List.mem_singleton.mp member ▸ inner

/-! ## Building -/

inductive Built (reuse : Prop) : Expr → Prop where
  | var (name : Name) : Built reuse (.named name.token)
  | app (kind : HeadKind) (head : Name) (suits : kind.Suits head.token.text)
      (arguments : List Expr) (each : ∀ e ∈ arguments, Built reuse e) :
      Built reuse (.app kind head.token arguments)
  | connect (op : Connective) (sign : Mark op.symbol) (left right : Expr)
      (first : Built reuse left) (second : Built reuse right) :
      Built reuse (.connect op sign.token left right)
  | compare (op : Comparison) (sign : Mark op.symbol) (left right : Expr)
      (first : Built reuse left) (second : Built reuse right) :
      Built reuse (.compare op sign.token left right)
  | neg (sign : Mark .not) (operand : Expr) (inner : Built reuse operand) :
      Built reuse (.neg sign.token operand)
  | quant (quantifier : Quantifier) (sign : Mark quantifier.symbol) (bound : Name) (body : Expr)
      (inner : Built reuse body) : Built reuse (.quantify quantifier sign.token bound.token body)
  /-- A subtree of a tree that was built before. -/
  | part (allowed : reuse) (whole part : Expr) (built : Built reuse whole)
      (member : part ∈ whole.preorder) : Built reuse part

theorem Built.usual {reuse : Prop} {e : Expr} (h : Built reuse e) : e.Usual := by
  induction h with
  | var name => exact .var name _
  | app kind head suits arguments each ih => exact .app kind head suits arguments ih
  | connect op sign left right _ _ first second => exact .connect op sign left right first second
  | compare op sign left right _ _ first second => exact .compare op sign left right first second
  | neg sign operand _ ih => exact .neg sign operand ih
  | quant quantifier sign bound body _ ih =>
    exact .quant quantifier sign bound _ (ih.bind bound.token.text 0)
  | part allowed whole part built member ih =>
    exact of_mem_preorder (fun e usual child isChild => usual.child isChild) ih member

end Expr

/-! ## Variables of trees that are built -/

theorem Occurrence.FreeInName.of_under {o : Occurrence} {outer : List String}
    (h : (o.under outer).FreeInName) : o.FreeInName := by
  intro name free
  obtain ⟨same, outside⟩ := h name free
  exact ⟨same, fun inside => outside (List.mem_append_left outer inside)⟩

namespace Expr

def FreeInNames (e : Expr) : Prop :=
  ∀ o ∈ e.occurrences [], o.FreeInName

theorem FreeInNames.child {e child : Expr} (h : e.FreeInNames) (isChild : child ∈ e.children) :
    child.FreeInNames := by
  intro o occurs
  have inside : o.under (e.innerScope []) ∈ child.occurrences (e.innerScope []) := by
    rw [← List.nil_append (e.innerScope []), occurrences_append, List.nil_append]
    exact List.mem_map_of_mem occurs
  exact (h _ (mem_occurrences_of_child isChild inside)).of_under

theorem Built.freeInNames {reuse : Prop} {e : Expr} (h : Built reuse e) : e.FreeInNames := by
  induction h with
  | var name =>
    exact fun o member => (o.resolved_iff.mp (resolved_named name.token o member)).2
  | app kind head suits arguments each ih =>
    intro o member
    rw [occurrences_app] at member
    obtain ⟨argument, mem, occurs⟩ := List.mem_flatMap.mp member
    exact ih argument mem o occurs
  | connect op sign left right _ _ first second =>
    exact fun o member => (List.mem_append.mp member).elim (first o) (second o)
  | compare op sign left right _ _ first second =>
    exact fun o member => (List.mem_append.mp member).elim (first o) (second o)
  | neg sign operand _ ih => exact ih
  | quant quantifier sign bound body _ ih =>
    intro o member
    rw [occurrences_quantify] at member
    obtain ⟨inner, occurs, rfl⟩ := List.mem_map.mp member
    exact (ih inner occurs).bind_under bound.token.text
  | part allowed whole part built member ih =>
    exact of_mem_preorder (fun e free child isChild => free.child isChild) ih member

theorem Built.resolved {reuse : Prop} {e : Expr} (h : Built reuse e) (once : ¬reuse) :
    e.Resolved [] := by
  induction h with
  | var name => exact resolved_named name.token
  | app kind head suits arguments each ih => exact resolved_app.mpr ih
  | connect op sign left right _ _ first second => exact resolved_connect.mpr ⟨first, second⟩
  | compare op sign left right _ _ first second => exact resolved_compare.mpr ⟨first, second⟩
  | neg sign operand _ ih => exact resolved_neg.mpr ih
  | quant quantifier sign bound body _ ih => exact ih.quantify quantifier sign.token bound.token
  | part allowed => exact absurd allowed once

/-- In such a tree only the bound variables can fail to be resolved. -/
theorem FreeInNames.resolved_iff {e : Expr} (h : e.FreeInNames) :
    e.Resolved [] ↔ ∀ o ∈ e.occurrences [], o.BoundToNearest :=
  forall₂_congr fun o member => by rw [o.resolved_iff, and_iff_left (h o member)]

end Expr

end PredicateCalculus
