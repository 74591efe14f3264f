import PredicateCalculus.Expr.Evaluation
import PredicateCalculus.Proofs.Occurrence

/-! # What an evaluation comes to

The records of an evaluation do not influence its end. These are the equations for the end alone:
one for each kind of node, with the search that a quantifier makes through the domain.

* `Quantifier.search`: the elements in order up to the first that decides, or to the first failure.
* `Expr.outcome_evaluate_var` and the equations for the other nodes.
* `Quantifier.search_eq_of_forall_ok`: a search in which nothing fails is a conjunction or a
  disjunction over all elements.
-/

set_option autoImplicit false

namespace PredicateCalculus

variable {α β : Type}

namespace Quantifier

def search (quantifier : Quantifier) (test : α → Except EvalError Bool) :
    List α → Except EvalError Bool
  | [] => .ok quantifier.neutral
  | x :: rest => do
    let holds ← test x
    if holds = quantifier.neutral then search quantifier test rest else .ok holds

/-- The truth value of all instances together. -/
def combine (quantifier : Quantifier) (test : α → Bool) (elements : List α) : Bool :=
  match quantifier with
  | .universal => elements.all test
  | .existential => elements.any test

theorem search_eq_of_forall_ok (quantifier : Quantifier) {test : α → Except EvalError Bool}
    {holds : α → Bool} {elements : List α} (h : ∀ x ∈ elements, test x = .ok (holds x)) :
    quantifier.search test elements = .ok (quantifier.combine holds elements) := by
  induction elements with
  | nil => cases quantifier <;> rfl
  | cons x rest ih =>
    rw [List.forall_mem_cons] at h
    have first : quantifier.search test (x :: rest) =
        if holds x = quantifier.neutral then quantifier.search test rest else .ok (holds x) := by
      rw [search, h.1]
      rfl
    rw [first, ih h.2]
    cases quantifier <;> cases value : holds x <;> simp [combine, neutral, value]

theorem outcome_sweep (quantifier : Quantifier) (test : α → Evaluation α Bool)
    (elements : List α) :
    (quantifier.sweep test elements).outcome =
      quantifier.search (fun x => (test x).outcome) elements := by
  induction elements with
  | nil => rfl
  | cons x rest ih =>
    rw [sweep, Run.outcome_bind, search]
    cases (test x).outcome with
    | error error => rfl
    | ok holds =>
      show (if holds = quantifier.neutral then quantifier.sweep test rest else pure holds).outcome =
        if holds = quantifier.neutral then quantifier.search _ rest else .ok holds
      split
      · exact ih
      · rfl

end Quantifier

namespace Evaluation

theorem outcome_noted (e : Expr) (depth : Nat) (inner : Evaluation α (Value α)) :
    (noted e depth inner).outcome = inner.outcome := by
  obtain ⟨records, outcome⟩ := inner
  cases outcome <;> rfl

end Evaluation

namespace Expr

open Evaluation

variable [BEq α] (M : Model α) (v : Assignment α) (frames : List α)

theorem outcome_evaluate_var (token : Token) (reference : Reference) :
    ((Expr.var token reference).evaluate M v frames).outcome =
      reference.resolve v frames token := by
  rw [evaluate, outcome_noted, lift]

theorem outcome_evaluate_app (kind : HeadKind) (head : Token) (arguments : List Expr) :
    ((Expr.app kind head arguments).evaluate M v frames).outcome =
      (evaluateAll M v frames arguments).outcome >>= M.applyHead kind head.text := by
  rw [evaluate, outcome_noted, Run.outcome_bind]
  rfl

theorem outcome_evaluate_connect (op : Connective) (token : Token) (left right : Expr) :
    ((Expr.connect op token left right).evaluate M v frames).outcome = do
      let leftTruth ← (← (left.evaluate M v frames).outcome).asTruth left
      let rightTruth ← (← (right.evaluate M v frames).outcome).asTruth right
      return .truth (op.apply leftTruth rightTruth) := by
  rw [evaluate, outcome_noted]
  simp only [Run.outcome_bind]
  rfl

theorem outcome_evaluate_compare (op : Comparison) (token : Token) (left right : Expr) :
    ((Expr.compare op token left right).evaluate M v frames).outcome = do
      let leftValue ← (left.evaluate M v frames).outcome
      let rightValue ← (right.evaluate M v frames).outcome
      return .truth (op.apply leftValue rightValue) := by
  rw [evaluate, outcome_noted]
  simp only [Run.outcome_bind]
  rfl

theorem outcome_evaluate_neg (token : Token) (operand : Expr) :
    ((Expr.neg token operand).evaluate M v frames).outcome = do
      let truth ← (← (operand.evaluate M v frames).outcome).asTruth operand
      return .truth !truth := by
  rw [evaluate, outcome_noted]
  simp only [Run.outcome_bind]
  rfl

theorem outcome_evaluate_quant (quantifier : Quantifier) (token bound : Token) (body : Expr) :
    ((Expr.quant quantifier token bound body).evaluate M v frames).outcome = do
      let truth ← quantifier.search
        (fun x => do (← (body.evaluate M v (x :: frames)).outcome).asTruth body) M.domain
      return .truth truth := by
  rw [evaluate, outcome_noted, Run.outcome_bind, Quantifier.outcome_sweep]
  simp only [Run.outcome_bind]
  rfl

theorem outcome_evaluateAll_nil : (evaluateAll M v frames []).outcome = .ok [] := by
  rw [evaluateAll]
  rfl

theorem outcome_evaluateAll_cons (e : Expr) (rest : List Expr) :
    (evaluateAll M v frames (e :: rest)).outcome = do
      let x ← (← (e.evaluate M v frames).outcome).asElement e
      return x :: (← (evaluateAll M v frames rest).outcome) := by
  rw [evaluateAll]
  simp only [Run.outcome_bind]
  rfl

theorem outcome_truth (e : Expr) :
    (e.truth M v).outcome = (e.evaluate M v []).outcome >>= Value.asTruth e := by
  rw [truth, Run.outcome_bind]
  rfl

theorem outcome_element (e : Expr) :
    (e.element M v).outcome = (e.evaluate M v []).outcome >>= Value.asElement e := by
  rw [element, Run.outcome_bind]
  rfl

end Expr

end PredicateCalculus
