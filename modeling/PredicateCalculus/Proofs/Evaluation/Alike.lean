import PredicateCalculus.Proofs.Equality.Alike
import PredicateCalculus.Proofs.Evaluation.Outcome

/-! # Evaluation of equal trees

Trees that are alike come to the same value in every model and under every assignment, or to errors
with the same cause. An error can show a variable or a subtree as it is written, and written forms
differ in the names of bound variables; this is all that can differ.

* `EvalError.SameCause`: the same error, but for what is written of variables and subtrees.
* `Agree`: results with the same value, or errors with the same cause.
* `Expr.Alike.agree_evaluate`: the results of trees that are alike, under any quantifiers.
-/

set_option autoImplicit false

namespace PredicateCalculus

variable {α β γ : Type}

/-- Subtrees that are shown are equal as trees. -/
inductive EvalError.SameCause : EvalError → EvalError → Prop where
  | refl (error : EvalError) : SameCause error error
  | danglingReference (name name' : String) (distance : Nat) :
      SameCause (.danglingReference name distance) (.danglingReference name' distance)
  | truthExpected {e e' : Expr} (subtrees : (e == e') = true) :
      SameCause (.truthExpected e.print) (.truthExpected e'.print)
  | elementExpected {e e' : Expr} (subtrees : (e == e') = true) :
      SameCause (.elementExpected e.print) (.elementExpected e'.print)

def Agree : Except EvalError β → Except EvalError β → Prop
  | .ok value, .ok value' => value = value'
  | .error error, .error error' => error.SameCause error'
  | _, _ => False

namespace Agree

theorem refl (result : Except EvalError β) : Agree result result := by
  cases result with
  | ok value => exact rfl
  | error error => exact EvalError.SameCause.refl error

theorem bind {result result' : Except EvalError β} {next next' : β → Except EvalError γ}
    (h : Agree result result') (hnext : ∀ value, Agree (next value) (next' value)) :
    Agree (result >>= next) (result' >>= next') := by
  cases result with
  | error error =>
    cases result' with
    | error error' => exact h
    | ok value' => exact h.elim
  | ok value =>
    cases result' with
    | error error' => exact h.elim
    | ok value' =>
      have same : value = value' := h
      subst same
      exact hnext value

theorem toOption_eq {result result' : Except EvalError β} (h : Agree result result') :
    result.toOption = result'.toOption := by
  cases result with
  | error error =>
    cases result' with
    | error error' => rfl
    | ok value' => exact h.elim
  | ok value =>
    cases result' with
    | error error' => exact h.elim
    | ok value' => exact congrArg some h

theorem asTruth {e e' : Expr} (h : (e == e') = true) (value : Value α) :
    Agree (value.asTruth e) (value.asTruth e') := by
  cases value with
  | element x => exact .truthExpected h
  | truth b => exact rfl

theorem asElement {e e' : Expr} (h : (e == e') = true) (value : Value α) :
    Agree (value.asElement e) (value.asElement e') := by
  cases value with
  | element x => exact rfl
  | truth b => exact .elementExpected h

theorem resolve (v : Assignment α) (frames : List α) (token token' : Token)
    (reference : Reference) :
    Agree (reference.resolve v frames token) (reference.resolve v frames token') := by
  cases reference with
  | free name => exact refl _
  | bound distance =>
    rw [Reference.resolve, Reference.resolve]
    cases frames[distance]? with
    | some x => exact rfl
    | none => exact .danglingReference token.text token'.text distance

theorem search (quantifier : Quantifier) {test test' : α → Except EvalError Bool}
    (h : ∀ x, Agree (test x) (test' x)) (elements : List α) :
    Agree (quantifier.search test elements) (quantifier.search test' elements) := by
  induction elements with
  | nil => exact rfl
  | cons x rest ih =>
    refine (h x).bind fun holds => ?_
    split
    · exact ih
    · exact rfl

end Agree

namespace Expr

variable [BEq α] {M : Model α} {v : Assignment α}

theorem agree_evaluateAll {frames : List α} {arguments arguments' : List Expr}
    (h : List.Forall₂ (fun e e' => Alike e e' ∧
      Agree (e.evaluate M v frames).outcome (e'.evaluate M v frames).outcome)
      arguments arguments') :
    Agree (evaluateAll M v frames arguments).outcome
      (evaluateAll M v frames arguments').outcome := by
  induction h with
  | nil => exact Agree.refl _
  | cons first _ ih =>
    obtain ⟨alike, agree⟩ := first
    rw [outcome_evaluateAll_cons, outcome_evaluateAll_cons]
    refine agree.bind fun value => ?_
    refine (Agree.asElement alike.beq value).bind fun x => ?_
    exact ih.bind fun elements => Agree.refl _

theorem Alike.agree_evaluate {e e' : Expr} (h : Alike e e') (frames : List α) :
    Agree (e.evaluate M v frames).outcome (e'.evaluate M v frames).outcome := by
  induction h generalizing frames with
  | var token token' reference =>
    rw [outcome_evaluate_var, outcome_evaluate_var]
    exact Agree.resolve v frames token token' reference
  | app kind head head' arguments arguments' heads lengths each ih =>
    have names : head.text = head'.text := Token.text_eq_of_beq (Token.beq_iff.mpr heads)
    have elements : Agree (evaluateAll M v frames arguments).outcome
        (evaluateAll M v frames arguments').outcome := by
      apply agree_evaluateAll
      exact List.forall₂_iff_get.mpr ⟨lengths, fun i h h' => ⟨each i h h', ih i h h' frames⟩⟩
    rw [outcome_evaluate_app, outcome_evaluate_app, names]
    exact elements.bind fun elements => Agree.refl _
  | connect op token token' left left' right right' tokens alikeLeft alikeRight first second =>
    rw [outcome_evaluate_connect, outcome_evaluate_connect]
    refine (first frames).bind fun leftValue => ?_
    refine (Agree.asTruth alikeLeft.beq leftValue).bind fun leftTruth => ?_
    refine (second frames).bind fun rightValue => ?_
    exact (Agree.asTruth alikeRight.beq rightValue).bind fun rightTruth => Agree.refl _
  | compare op token token' left left' right right' tokens _ _ first second =>
    rw [outcome_evaluate_compare, outcome_evaluate_compare]
    refine (first frames).bind fun leftValue => ?_
    exact (second frames).bind fun rightValue => Agree.refl _
  | neg token token' operand operand' tokens alike inner =>
    rw [outcome_evaluate_neg, outcome_evaluate_neg]
    refine (inner frames).bind fun value => ?_
    exact (Agree.asTruth alike.beq value).bind fun truth => Agree.refl _
  | quant quantifier token token' bound bound' body body' alike inner =>
    rw [outcome_evaluate_quant, outcome_evaluate_quant]
    -- The bodies are tested with the same elements, so the searches stop at the same one.
    have instances : ∀ x, Agree
        ((body.evaluate M v (x :: frames)).outcome >>= Value.asTruth body)
        ((body'.evaluate M v (x :: frames)).outcome >>= Value.asTruth body') := by
      intro x
      exact (inner (x :: frames)).bind (Agree.asTruth alike.beq)
    exact (Agree.search quantifier instances M.domain).bind fun truth => Agree.refl _

variable {e e' : Expr}

theorem Alike.agree_value (h : Alike e e') :
    Agree (e.value M v).outcome (e'.value M v).outcome :=
  h.agree_evaluate []

theorem Alike.agree_truth (h : Alike e e') :
    Agree (e.truth M v).outcome (e'.truth M v).outcome := by
  rw [outcome_truth, outcome_truth]
  exact (h.agree_evaluate []).bind (Agree.asTruth h.beq)

theorem Alike.agree_element (h : Alike e e') :
    Agree (e.element M v).outcome (e'.element M v).outcome := by
  rw [outcome_element, outcome_element]
  exact (h.agree_evaluate []).bind (Agree.asElement h.beq)

end Expr

end PredicateCalculus
