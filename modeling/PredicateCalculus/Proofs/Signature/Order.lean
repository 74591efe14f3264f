import PredicateCalculus.Proofs.Signature.Extension

/-! # Trees offered in any order

Trees are offered to a signature one after the other. When all of them are absorbed, the signature
at the end is the one at the start with all their uses added, so neither their order counts nor
whether they come one by one or joined into one tree.

* `Signature.offer`: the signature after trees in order, and their failures.
* `Expr.Joins`: trees joined into one by conjunctions.
* `Signature.extends_congr`: the same uses in another order.
* `Signature.offer_eq_iff`: what it means that all are absorbed.
* `Signature.offer_unordered`: other orders, and a single tree.
-/

set_option autoImplicit false

namespace PredicateCalculus

/-! ## Conjunctions of trees -/

/-- The tree joins the trees of the list, in this order and with any nesting. -/
inductive Expr.Joins : List Expr → Expr → Prop where
  | single (e : Expr) : Joins [e] e
  | join {es fs : List Expr} {left right : Expr} (token : Token) (first : Joins es left)
      (second : Joins fs right) : Joins (es ++ fs) (.connect .and token left right)

theorem Expr.Joins.uses_eq {es : List Expr} {e : Expr} (h : Joins es e) :
    e.uses = es.flatMap uses := by
  induction h with
  | single e => rw [List.flatMap_singleton]
  | join token first second ihFirst ihSecond =>
    rw [Expr.uses_eq, List.flatMap_append, ← ihFirst, ← ihSecond]
    simp [ownUse, children]

namespace Signature

/-! ## One tree after the other -/

structure Round where
  signature : Signature
  failures : List SignatureError

/-- A tree that fails leaves the signature as it was for those after it. -/
def offer (σ : Signature) : List Expr → Round
  | [] => ⟨σ, []⟩
  | e :: rest =>
    match σ.absorb .learn e with
    | .ok τ => τ.offer rest
    | .error error => ⟨(σ.offer rest).signature, error :: (σ.offer rest).failures⟩

variable {σ τ : Signature} {uses more : List Use}

/-- Only which uses there are counts, and not their order. -/
theorem extends_congr (same : ∀ use, use ∈ uses ↔ use ∈ more) :
    τ.Extends σ uses ↔ τ.Extends σ more := by
  simp only [Extends, Assigns, same]

theorem Consistent.left (h : σ.Consistent (uses ++ more)) : σ.Consistent uses := by
  intro kind name m n first second
  exact h kind name m n (first.imp_right (List.mem_append_left more))
    (second.imp_right (List.mem_append_left more))

/-- All trees are absorbed if and only if the signature at the end adds all their uses. -/
theorem offer_eq_iff {es : List Expr} :
    σ.offer es = ⟨τ, []⟩ ↔ τ.Extends σ (es.flatMap Expr.uses) := by
  induction es generalizing σ with
  | nil =>
    rw [offer, List.flatMap_nil, extends_nil_iff, Round.mk.injEq, and_iff_left rfl, eq_comm]
  | cons e rest ih =>
    rw [offer, List.flatMap_cons]
    split
    · next υ absorbed =>
      rw [ih, extends_append_iff (absorb_eq_ok_iff.mp absorbed).1]
    · next error failed =>
      refine iff_of_false (by simp) fun adds => ?_
      obtain ⟨υ, absorbed⟩ := exists_absorb_iff.mpr adds.consistent.left
      rw [absorbed] at failed
      cases failed

theorem offer_perm {es fs : List Expr} (reordered : es.Perm fs) :
    σ.offer es = ⟨τ, []⟩ ↔ σ.offer fs = ⟨τ, []⟩ := by
  rw [offer_eq_iff, offer_eq_iff]
  apply extends_congr
  intro use
  simp only [List.mem_flatMap, reordered.mem_iff]

/-- If trees are all absorbed in one order, they are in every order, with the same signature at the
end; so if one order has a failure, every order has one. A single tree that joins them, again in any
order, is absorbed if and only if all of them are, and with the same signature afterwards. -/
theorem offer_unordered (σ : Signature) {es fs : List Expr} (reordered : es.Perm fs) :
    (∀ τ, σ.offer es = ⟨τ, []⟩ → σ.offer fs = ⟨τ, []⟩) ∧
    ((σ.offer es).failures ≠ [] → (σ.offer fs).failures ≠ []) ∧
    ∀ joined, Expr.Joins fs joined →
      ∀ τ, σ.absorb .learn joined = .ok τ ↔ σ.offer es = ⟨τ, []⟩ := by
  refine ⟨fun τ => (offer_perm reordered).mp, fun failed noneFailed => ?_,
    fun joined joins τ => ?_⟩
  · have absorbed : σ.offer fs = ⟨(σ.offer fs).signature, []⟩ := by rw [← noneFailed]
    rw [(offer_perm reordered).mpr absorbed] at failed
    exact failed rfl
  · rw [offer_perm reordered, offer_eq_iff, ← joins.uses_eq, absorb_eq_ok_iff, and_iff_left nofun]

/-- `P(x)` and `Q(f(x))` are absorbed in either order and as `Q(f(x)) ^ P(x)`. The trees `P(x)` and
`P(x, x)` are not, whichever comes first. -/
theorem offer_unordered_of_two :
    let x := Expr.named (.ofName "x")
    let one := Expr.app .predicate (.ofName "P") [x]
    let two := Expr.app .predicate (.ofName "P") [x, x]
    let other := Expr.app .predicate (.ofName "Q") [.app .function (.ofName "f") [x]]
    (∃ τ, Signature.empty.offer [one, other] = ⟨τ, []⟩ ∧
      Signature.empty.offer [other, one] = ⟨τ, []⟩ ∧
      Signature.empty.absorb .learn (.connect .and (.ofSymbol .and) other one) = .ok τ) ∧
    (Signature.empty.offer [one, two]).failures ≠ [] ∧
      (Signature.empty.offer [two, one]).failures ≠ [] := by
  intro x one two other
  have noneFailed : (Signature.empty.offer [one, other]).failures = [] := by decide +kernel
  have someFailed : (Signature.empty.offer [one, two]).failures ≠ [] := by decide +kernel
  obtain ⟨anyOrder, -, asOne⟩ := offer_unordered .empty (List.Perm.swap other one [])
  obtain ⟨-, anyFailure, -⟩ := offer_unordered .empty (List.Perm.swap two one [])
  have absorbed : Signature.empty.offer [one, other] =
      ⟨(Signature.empty.offer [one, other]).signature, []⟩ := by rw [← noneFailed]
  have joins : Expr.Joins [other, one] (.connect .and (.ofSymbol .and) other one) :=
    .join _ (.single other) (.single one)
  exact ⟨⟨_, absorbed, anyOrder _ absorbed, (asOne _ joins _).mpr absorbed⟩, someFailed,
    anyFailure someFailed⟩

end Signature

end PredicateCalculus
