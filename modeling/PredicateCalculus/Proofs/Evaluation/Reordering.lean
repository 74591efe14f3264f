import PredicateCalculus.Proofs.Evaluation.Relevance

/-! # The order of the domain

A quantifier stops at the first element that decides, so the order of the domain settles which
instances are looked at, and with them which failures come up. It does not settle the value: two
models with the same elements and alike operations, in whatever order and however often they list
their elements, do not come to different values.

* `Compatible`: results that are not different values.
* `Quantifier.search_cases`: what an element of the domain says about the value of a search.
* `Model.SameElements`: models that differ in the order and in the repetitions of their elements.
* `Expr.compatible_evaluate`: the results in two such models, under any quantifiers.
* `Expr.value_of_sameElements`: the same for whole trees.
-/

set_option autoImplicit false

namespace PredicateCalculus

variable {α β γ : Type}

/-- The results are the same value, or there is a failure. -/
def Compatible (result result' : Except EvalError β) : Prop :=
  ∀ x x', result = .ok x → result' = .ok x' → x = x'

namespace Compatible

theorem refl (result : Except EvalError β) : Compatible result result := by
  intro x x' eq eq'
  exact Except.ok.inj (eq.symm.trans eq')

theorem bind {result result' : Except EvalError β} {next next' : β → Except EvalError γ}
    (h : Compatible result result') (hnext : ∀ x, Compatible (next x) (next' x)) :
    Compatible (result >>= next) (result' >>= next') := by
  cases result with
  | error error =>
    intro y y' eq
    cases eq
  | ok x =>
    cases result' with
    | error error =>
      intro y y' eq eq'
      cases eq'
    | ok x' =>
      obtain rfl : x = x' := h x x' rfl rfl
      exact hnext x

end Compatible

namespace Quantifier

/-- Either nothing decides, and the instances all have the neutral value, or one of them has the
value of the search. -/
theorem search_cases {quantifier : Quantifier} {test : α → Except EvalError Bool}
    {elements : List α} {truth : Bool} (h : quantifier.search test elements = .ok truth) :
    (truth = quantifier.neutral ∧ ∀ x ∈ elements, test x = .ok truth) ∨
      (truth ≠ quantifier.neutral ∧ ∃ x ∈ elements, test x = .ok truth) := by
  induction elements with
  | nil =>
    rw [search] at h
    exact .inl ⟨(Except.ok.inj h).symm, fun x member => absurd member List.not_mem_nil⟩
  | cons x rest ih =>
    rw [search] at h
    cases first : test x with
    | error error =>
      rw [first] at h
      cases h
    | ok holds =>
      rw [first] at h
      by_cases goesOn : holds = quantifier.neutral
      · have later : quantifier.search test rest = .ok truth := by
          simpa [bind, Except.bind, goesOn] using h
        rcases ih later with ⟨neutral, all⟩ | ⟨decided, y, member, eq⟩
        · refine .inl ⟨neutral, List.forall_mem_cons.mpr ⟨?_, all⟩⟩
          rw [first, goesOn, neutral]
        · exact .inr ⟨decided, y, List.mem_cons_of_mem x member, eq⟩
      · have stops : holds = truth := by
          simpa [bind, Except.bind, goesOn] using h
        rw [← stops]
        exact .inr ⟨goesOn, x, List.mem_cons_self, first⟩

theorem compatible_search (quantifier : Quantifier) {test test' : α → Except EvalError Bool}
    (h : ∀ x, Compatible (test x) (test' x)) {elements elements' : List α}
    (same : ∀ x, x ∈ elements ↔ x ∈ elements') :
    Compatible (quantifier.search test elements) (quantifier.search test' elements') := by
  intro truth truth' eq eq'
  rcases search_cases eq with ⟨neutral, all⟩ | ⟨decided, x, member, found⟩
  · rcases search_cases eq' with ⟨neutral', -⟩ | ⟨-, x', member', found'⟩
    · rw [neutral, neutral']
    · -- The element that decides the second search has an instance in the first one as well.
      exact h x' truth truth' (all x' ((same x').mpr member')) found'
  · rcases search_cases eq' with ⟨-, all'⟩ | ⟨decided', -⟩
    · exact h x truth truth' found (all' x ((same x).mp member))
    · rw [Bool.eq_not_of_ne decided, Bool.eq_not_of_ne decided']

end Quantifier

/-! ## Models -/

/-- The order of the elements and how often they are listed may differ. -/
structure Model.SameElements (M M' : Model α) : Prop where
  elements : ∀ x, x ∈ M.domain ↔ x ∈ M'.domain
  operations : ∀ kind name, M.AgreeAt M' kind name

namespace Expr

variable [BEq α] {M M' : Model α}

theorem compatible_evaluateAll {v : Assignment α} {frames : List α} {arguments : List Expr}
    (h : ∀ e ∈ arguments,
      Compatible (e.evaluate M v frames).outcome (e.evaluate M' v frames).outcome) :
    Compatible (evaluateAll M v frames arguments).outcome
      (evaluateAll M' v frames arguments).outcome := by
  induction arguments with
  | nil => exact .refl _
  | cons e rest ih =>
    rw [List.forall_mem_cons] at h
    rw [outcome_evaluateAll_cons, outcome_evaluateAll_cons]
    refine h.1.bind fun value => ?_
    refine (Compatible.refl (value.asElement e)).bind fun x => ?_
    exact (ih h.2).bind fun elements => .refl _

theorem compatible_evaluate (same : M.SameElements M') (v : Assignment α) (frames : List α)
    (e : Expr) : Compatible (e.evaluate M v frames).outcome (e.evaluate M' v frames).outcome := by
  induction e generalizing frames with
  | var token reference =>
    rw [outcome_evaluate_var, outcome_evaluate_var]
    exact .refl _
  | app kind head arguments ih =>
    rw [outcome_evaluate_app, outcome_evaluate_app]
    refine (compatible_evaluateAll fun e member => ih e member frames).bind fun elements => ?_
    rw [(same.operations kind head.text).applyHead_eq]
    exact .refl _
  | connect op token left right ihLeft ihRight =>
    rw [outcome_evaluate_connect, outcome_evaluate_connect]
    refine (ihLeft frames).bind fun leftValue => ?_
    refine (Compatible.refl (leftValue.asTruth left)).bind fun leftTruth => ?_
    refine (ihRight frames).bind fun rightValue => ?_
    exact .refl _
  | compare op token left right ihLeft ihRight =>
    rw [outcome_evaluate_compare, outcome_evaluate_compare]
    refine (ihLeft frames).bind fun leftValue => ?_
    exact (ihRight frames).bind fun rightValue => .refl _
  | neg token operand ih =>
    rw [outcome_evaluate_neg, outcome_evaluate_neg]
    exact (ih frames).bind fun value => .refl _
  | quant quantifier token bound body ih =>
    rw [outcome_evaluate_quant, outcome_evaluate_quant]
    have instances : ∀ x, Compatible
        ((body.evaluate M v (x :: frames)).outcome >>= Value.asTruth body)
        ((body.evaluate M' v (x :: frames)).outcome >>= Value.asTruth body) := by
      intro x
      exact (ih (x :: frames)).bind fun value => .refl _
    exact (quantifier.compatible_search instances same.elements).bind fun truth => .refl _

/-- A tree that has a value in both of two models has the same value in them, when the models list
the same elements, in any order and with any repetitions, and have alike operations. -/
theorem value_of_sameElements (same : M.SameElements M') (v : Assignment α) (e : Expr)
    {value value' : Value α} (h : (e.value M v).outcome = .ok value)
    (h' : (e.value M' v).outcome = .ok value') : value = value' :=
  compatible_evaluate same v [] e value value' h h'

/-- In `exists x. P(x)` the element `1` decides. In the first model `0` is tried before it, in the
second one it comes first and is listed again. -/
theorem value_of_sameElements_listedAgain :
    let e := quantify .existential (.ofSymbol .forSome) (.ofName "x")
      (.app .predicate (.ofName "P") [named (.ofName "x")])
    let P : Operation Nat Bool := ⟨some 1, fun arguments => arguments == [1]⟩
    let M := (Model.ofDomain [0, 1]).withPredicate "P" P
    let M' := (Model.ofDomain [1, 0, 1]).withPredicate "P" P
    M.SameElements M' ∧
      (e.value M .empty).records.length = 10 ∧ (e.value M' .empty).records.length = 6 ∧
      ∃ value value', (e.value M .empty).outcome = .ok value ∧
        (e.value M' .empty).outcome = .ok value' ∧ value = value' := by
  intro e P M M'
  have same : M.SameElements M' := by
    refine ⟨fun x => ?_, fun kind name => .refl M kind name⟩
    show x ∈ [0, 1] ↔ x ∈ [1, 0, 1]
    simp only [List.mem_cons, List.not_mem_nil]
    tauto
  have first : (e.value M .empty).outcome = .ok (.truth true) := rfl
  have second : (e.value M' .empty).outcome = .ok (.truth true) := rfl
  exact ⟨same, rfl, rfl, _, _, first, second, value_of_sameElements same .empty e first second⟩

end Expr

end PredicateCalculus
