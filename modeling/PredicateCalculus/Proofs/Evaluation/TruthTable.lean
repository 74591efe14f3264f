import PredicateCalculus.Proofs.Evaluation.Outcome
import PredicateCalculus.Proofs.Sorting

/-! # Truth tables

A propositional tree is true or false once its variables are, by the connectives of classical logic.
Evaluation comes to this truth value. As all operands are evaluated, a variable without a value
stops it wherever it stands, also where the other operand has decided already.

* `Expr.Satisfied`: the truth of a propositional tree.
* `Expr.Propositional.outcome_of_given`: evaluation when all variables have a truth value.
* `Expr.Propositional.outcome_of_missing`: evaluation when one of them has no value.
-/

set_option autoImplicit false

namespace PredicateCalculus.Expr

/-- A tree that is not propositional is not satisfied. -/
def Satisfied (ρ : String → Bool) : Expr → Prop
  | .var _ (.free name) => ρ name = true
  | .connect .and _ left right => left.Satisfied ρ ∧ right.Satisfied ρ
  | .connect .or _ left right => left.Satisfied ρ ∨ right.Satisfied ρ
  | .connect .implies _ left right => left.Satisfied ρ → right.Satisfied ρ
  | .neg _ operand => ¬operand.Satisfied ρ
  | _ => False

instance decidableSatisfied (ρ : String → Bool) : (e : Expr) → Decidable (e.Satisfied ρ)
  | .var _ (.free name) => inferInstanceAs (Decidable (ρ name = true))
  | .var _ (.bound _) => .isFalse not_false
  | .app _ _ _ => .isFalse not_false
  | .connect .and _ left right =>
    @instDecidableAnd _ _ (decidableSatisfied ρ left) (decidableSatisfied ρ right)
  | .connect .or _ left right =>
    @instDecidableOr _ _ (decidableSatisfied ρ left) (decidableSatisfied ρ right)
  | .connect .implies _ left right =>
    @instDecidableForall _ _ (decidableSatisfied ρ left) (decidableSatisfied ρ right)
  | .compare _ _ _ _ => .isFalse not_false
  | .neg _ operand => @instDecidableNot _ (decidableSatisfied ρ operand)
  | .quant _ _ _ _ => .isFalse not_false

theorem satisfied_connect (ρ : String → Bool) (op : Connective) (token : Token)
    (left right : Expr) :
    decide ((Expr.connect op token left right).Satisfied ρ) =
      op.apply (decide (left.Satisfied ρ)) (decide (right.Satisfied ρ)) := by
  rw [Bool.eq_iff_iff, decide_eq_true_iff]
  cases op <;> simp [Satisfied, Connective.apply, imp_iff_not_or]

theorem satisfied_neg (ρ : String → Bool) (token : Token) (operand : Expr) :
    decide ((Expr.neg token operand).Satisfied ρ) = !decide (operand.Satisfied ρ) := by
  rw [Bool.eq_iff_iff, decide_eq_true_iff]
  simp [Satisfied]

namespace Propositional

variable {α : Type} [BEq α] {v : Assignment α} {e : Expr}

theorem outcome_of_given (h : Propositional e) (M : Model α) (resolved : e.Resolved [])
    {ρ : String → Bool} (given : ∀ name ∈ e.freeOccurrences, v.find? name = some (.truth (ρ name))) :
    (e.evaluate M v []).outcome = .ok (.truth (decide (e.Satisfied ρ))) := by
  induction h with
  | var token reference =>
    have free : reference = .free token.text :=
      (resolved_var.mp resolved).trans (Reference.ofName_of_not_mem List.not_mem_nil)
    subst free
    have truth : decide ((Expr.var token (.free token.text)).Satisfied ρ) = ρ token.text := by
      rw [Bool.eq_iff_iff, decide_eq_true_iff]
      simp [Satisfied]
    rw [outcome_evaluate_var, Reference.resolve, given token.text List.mem_cons_self, truth]
  | connect op token left right _ _ first second =>
    obtain ⟨resolvedLeft, resolvedRight⟩ := resolved_connect.mp resolved
    have givenLeft := first resolvedLeft fun name free => given name (List.mem_append_left _ free)
    have givenRight :=
      second resolvedRight fun name free => given name (List.mem_append_right _ free)
    rw [outcome_evaluate_connect, givenLeft, givenRight, satisfied_connect]
    rfl
  | neg token operand _ ih =>
    rw [outcome_evaluate_neg, ih (resolved_neg.mp resolved) given, satisfied_neg]
    rfl

theorem outcome_of_missing (h : Propositional e) (M : Model α) {name : String}
    (free : name ∈ e.freeOccurrences) (missing : v.find? name = none) :
    ∃ error, (e.evaluate M v []).outcome = .error error := by
  induction h with
  | var token reference =>
    cases reference with
    | bound distance => cases free
    | free other =>
      obtain rfl := List.mem_singleton.mp free
      exact ⟨.unboundVariable name, by rw [outcome_evaluate_var, Reference.resolve, missing]⟩
  | connect op token left right _ _ first second =>
    rw [outcome_evaluate_connect]
    rcases List.mem_append.mp free with inLeft | inRight
    · obtain ⟨error, eq⟩ := first inLeft
      exact ⟨error, by rw [eq]; rfl⟩
    · -- The left operand may fail first, but it does not keep the right one from being evaluated.
      obtain ⟨error, eq⟩ := second inRight
      rw [eq]
      cases (left.evaluate M v []).outcome with
      | error error => exact ⟨error, rfl⟩
      | ok value =>
        cases value with
        | element x => exact ⟨.truthExpected left.print, rfl⟩
        | truth b => exact ⟨error, rfl⟩
  | neg token operand _ ih =>
    obtain ⟨error, eq⟩ := ih free
    exact ⟨error, by rw [outcome_evaluate_neg, eq]; rfl⟩

end Propositional

end PredicateCalculus.Expr
