import PredicateCalculus.Proofs.Evaluation.Outcome

/-! # The laws of duality

Connectives, negations, comparisons and quantifiers work on the truth values of their operands, and
an operand without one stops them all in the same way. So a negation can be moved inwards, where it
turns conjunctions into disjunctions and universal quantifiers into existential ones, and neither
value nor error changes.

* `Quantifier.search_not`: a search for the other truth value.
* `Expr.truthUnder`: the truth value of a tree that is meant as a formula, under any quantifiers.
* `Expr.truthUnder_connect` and the equations for the other nodes.
* `Expr.outcome_evaluate_of_isFormula`: the value of a formula is its truth value.
* `Expr.truthUnder_neg_connect` and the other laws, under any quantifiers.
* `Expr.outcome_dual`: the laws for whole trees.
-/

set_option autoImplicit false

namespace PredicateCalculus

variable {α : Type}

/-! ## Searches -/

namespace Quantifier

def dual : Quantifier → Quantifier
  | .universal => .existential
  | .existential => .universal

/-- The element that decides is the same, and so is the one at which the search fails. -/
theorem search_not (quantifier : Quantifier) (test : α → Except EvalError Bool)
    (elements : List α) :
    quantifier.search (fun x => not <$> test x) elements =
      not <$> quantifier.dual.search test elements := by
  induction elements with
  | nil => cases quantifier <;> rfl
  | cons x rest ih =>
    rw [search, search]
    cases test x with
    | error error => rfl
    | ok holds =>
      show (if (!holds) = quantifier.neutral then quantifier.search _ rest else .ok !holds) =
        not <$> (if holds = quantifier.dual.neutral then quantifier.dual.search test rest
          else .ok holds)
      rw [ih]
      cases quantifier <;> cases holds <;> rfl

end Quantifier

namespace Expr

variable [BEq α]

/-! ## Truth values under quantifiers -/

def truthUnder (M : Model α) (v : Assignment α) (frames : List α) (e : Expr) :
    Except EvalError Bool :=
  (e.evaluate M v frames).outcome >>= Value.asTruth e

section

variable {M : Model α} {v : Assignment α} {frames : List α}

theorem truthUnder_of_outcome {e : Expr} {result : Except EvalError Bool}
    (h : (e.evaluate M v frames).outcome = Value.truth <$> result) :
    e.truthUnder M v frames = result := by
  rw [truthUnder, h]
  cases result <;> rfl

theorem truthUnder_connect (op : Connective) (token : Token) (left right : Expr) :
    (Expr.connect op token left right).truthUnder M v frames = do
      let leftTruth ← left.truthUnder M v frames
      let rightTruth ← right.truthUnder M v frames
      return op.apply leftTruth rightTruth := by
  apply truthUnder_of_outcome
  rw [outcome_evaluate_connect]
  simp [truthUnder]

theorem truthUnder_compare (op : Comparison) (token : Token) (left right : Expr) :
    (Expr.compare op token left right).truthUnder M v frames = do
      let leftValue ← (left.evaluate M v frames).outcome
      let rightValue ← (right.evaluate M v frames).outcome
      return op.apply leftValue rightValue := by
  apply truthUnder_of_outcome
  rw [outcome_evaluate_compare]
  simp

theorem truthUnder_neg (token : Token) (operand : Expr) :
    (Expr.neg token operand).truthUnder M v frames = not <$> operand.truthUnder M v frames := by
  apply truthUnder_of_outcome
  rw [outcome_evaluate_neg]
  simp [truthUnder]

theorem truthUnder_quant (quantifier : Quantifier) (token bound : Token) (body : Expr) :
    (Expr.quant quantifier token bound body).truthUnder M v frames =
      quantifier.search (fun x => body.truthUnder M v (x :: frames)) M.domain := by
  apply truthUnder_of_outcome
  rw [outcome_evaluate_quant]
  simp [truthUnder]

theorem truthUnder_predicate (head : Token) (arguments : List Expr) :
    (Expr.app .predicate head arguments).truthUnder M v frames =
      (evaluateAll M v frames arguments).outcome >>=
        Operation.call .predicate head.text (M.predicates.find? head.text) := by
  apply truthUnder_of_outcome
  rw [outcome_evaluate_app, map_bind]
  rfl

theorem outcome_evaluate_of_isFormula {e : Expr} (h : e.isFormula = true) :
    (e.evaluate M v frames).outcome = Value.truth <$> e.truthUnder M v frames := by
  cases e with
  | var token reference => cases h
  | app kind head arguments =>
    cases kind with
    | function => cases h
    | predicate =>
      rw [truthUnder_predicate, outcome_evaluate_app, map_bind]
      rfl
  | connect op token left right =>
    rw [truthUnder_connect, outcome_evaluate_connect]
    simp [truthUnder]
  | compare op token left right =>
    rw [truthUnder_compare, outcome_evaluate_compare]
    simp
  | neg token operand =>
    rw [truthUnder_neg, outcome_evaluate_neg]
    simp [truthUnder]
  | quant quantifier token bound body =>
    rw [truthUnder_quant, outcome_evaluate_quant]
    simp [truthUnder]

theorem outcome_evaluate_eq {e e' : Expr} (h : e.isFormula = true) (h' : e'.isFormula = true)
    (same : e.truthUnder M v frames = e'.truthUnder M v frames) :
    (e.evaluate M v frames).outcome = (e'.evaluate M v frames).outcome := by
  rw [outcome_evaluate_of_isFormula h, outcome_evaluate_of_isFormula h', same]

/-! ## The laws -/

theorem truthUnder_neg_neg (outer inner : Token) (e : Expr) :
    (Expr.neg outer (.neg inner e)).truthUnder M v frames = e.truthUnder M v frames := by
  rw [truthUnder_neg, truthUnder_neg]
  cases e.truthUnder M v frames with
  | error error => rfl
  | ok truth => exact congrArg Except.ok (Bool.not_not truth)

/-- A connective that is the other one on negated operands takes in the negation. -/
theorem truthUnder_neg_connect {op op' : Connective}
    (h : ∀ leftTruth rightTruth, (!op.apply leftTruth rightTruth) =
      op'.apply (!leftTruth) (!rightTruth))
    (outer sign sign' inner inner' : Token) (left right : Expr) :
    (Expr.neg outer (.connect op sign left right)).truthUnder M v frames =
      (Expr.connect op' sign' (.neg inner left) (.neg inner' right)).truthUnder M v frames := by
  simp only [truthUnder_neg, truthUnder_connect]
  cases left.truthUnder M v frames with
  | error error => rfl
  | ok leftTruth =>
    cases right.truthUnder M v frames with
    | error error => rfl
    | ok rightTruth => exact congrArg Except.ok (h leftTruth rightTruth)

theorem truthUnder_implies (sign sign' inner : Token) (left right : Expr) :
    (Expr.connect .implies sign left right).truthUnder M v frames =
      (Expr.connect .or sign' (.neg inner left) right).truthUnder M v frames := by
  rw [truthUnder_connect, truthUnder_connect, truthUnder_neg]
  cases left.truthUnder M v frames <;> rfl

theorem truthUnder_unequal (outer sign sign' : Token) (left right : Expr) :
    (Expr.compare .unequal sign left right).truthUnder M v frames =
      (Expr.neg outer (.compare .equal sign' left right)).truthUnder M v frames := by
  rw [truthUnder_neg, truthUnder_compare, truthUnder_compare, map_bind]
  simp only [map_bind]
  rfl

theorem truthUnder_neg_quantify (quantifier : Quantifier)
    (outer sign sign' inner bound : Token) (e : Expr) :
    (Expr.neg outer (quantify quantifier sign bound (.neg inner e))).truthUnder M v frames =
      (quantify quantifier.dual sign' bound e).truthUnder M v frames := by
  -- Binding goes past the negation, so both bodies are tested with the same elements.
  have body : ∀ x, ((Expr.neg inner e).bind bound.text 0).truthUnder M v (x :: frames) =
      not <$> (e.bind bound.text 0).truthUnder M v (x :: frames) := by
    intro x
    rw [bind, truthUnder_neg]
  rw [quantify, quantify, truthUnder_neg, truthUnder_quant, truthUnder_quant]
  simp only [body]
  rw [Quantifier.search_not]
  cases quantifier.dual.search _ M.domain with
  | error error => rfl
  | ok truth => exact congrArg Except.ok (Bool.not_not truth)

end

/-- Two negations make none, negations go inwards through connectives and quantifiers, and `->` and
`!=` are abbreviations: on either side there is the same value or the same error. -/
theorem outcome_dual (M : Model α) (v : Assignment α) (a b : Expr)
    (outer inner inner' sign sign' bound : Token) :
    ((Expr.neg outer (.neg inner a)).truth M v).outcome = (a.truth M v).outcome ∧
    ((Expr.neg outer (.connect .and sign a b)).value M v).outcome =
      ((Expr.connect .or sign' (.neg inner a) (.neg inner' b)).value M v).outcome ∧
    ((Expr.neg outer (.connect .or sign a b)).value M v).outcome =
      ((Expr.connect .and sign' (.neg inner a) (.neg inner' b)).value M v).outcome ∧
    ((Expr.connect .implies sign a b).value M v).outcome =
      ((Expr.connect .or sign' (.neg inner a) b).value M v).outcome ∧
    ((Expr.compare .unequal sign a b).value M v).outcome =
      ((Expr.neg outer (.compare .equal sign' a b)).value M v).outcome ∧
    ((Expr.neg outer (quantify .universal sign bound (.neg inner a))).value M v).outcome =
      ((quantify .existential sign' bound a).value M v).outcome ∧
    ((Expr.neg outer (quantify .existential sign bound (.neg inner a))).value M v).outcome =
      ((quantify .universal sign' bound a).value M v).outcome := by
  refine ⟨?_, ?_, ?_, ?_, ?_, ?_, ?_⟩
  · rw [outcome_truth, outcome_truth]
    exact truthUnder_neg_neg outer inner a
  · have law : ∀ x y, (!Connective.and.apply x y) = Connective.or.apply (!x) (!y) := Bool.not_and
    exact outcome_evaluate_eq rfl rfl (truthUnder_neg_connect law outer sign sign' inner inner' a b)
  · have law : ∀ x y, (!Connective.or.apply x y) = Connective.and.apply (!x) (!y) := Bool.not_or
    exact outcome_evaluate_eq rfl rfl (truthUnder_neg_connect law outer sign sign' inner inner' a b)
  · exact outcome_evaluate_eq rfl rfl (truthUnder_implies sign sign' inner a b)
  · exact outcome_evaluate_eq rfl rfl (truthUnder_unequal outer sign sign' a b)
  · exact outcome_evaluate_eq rfl rfl
      (truthUnder_neg_quantify .universal outer sign sign' inner bound a)
  · exact outcome_evaluate_eq rfl rfl
      (truthUnder_neg_quantify .existential outer sign sign' inner bound a)

end Expr

end PredicateCalculus
