import PredicateCalculus.Proofs.Evaluation.Alike
import PredicateCalculus.Proofs.Signature
import PredicateCalculus.Proofs.Sorting

/-! # Equality is a congruence

Nothing that is done with a tree looks at more of it than equality does, except for writing it. So
equal trees have the same free variables and the same uses, break the same rule in the same place,
agree with the same signatures, and have the same values.

* `Expr.Alike.uses_eq`: the uses of trees that are alike.
* `SortError.Same`: the same violation in equal subtrees.
* `Expr.Alike.sortError`, `Expr.Alike.formulaError`: what is wrong with trees that are alike.
* `Expr.Indiscernible`: all of this together.
* `Expr.beq_congruence`: equality is an equivalence relation, and equal trees are indiscernible.
-/

set_option autoImplicit false

namespace PredicateCalculus

/-! ## Uses -/

namespace Expr

theorem Alike.ownUse_eq {e e' : Expr} (h : Alike e e') : e.ownUse = e'.ownUse := by
  cases h with
  | app kind head head' arguments arguments' heads lengths each =>
    have names : head.text = head'.text := Token.text_eq_of_beq (Token.beq_iff.mpr heads)
    simp only [ownUse, names, lengths]
  | _ => rfl

theorem Alike.uses_eq {e e' : Expr} (h : Alike e e') : e.uses = e'.uses := by
  induction e using childInduction generalizing e' with
  | step e ih =>
    obtain ⟨lengths, each⟩ := h.children
    have inside : e.children.map uses = e'.children.map uses :=
      map_eq_of_getElem lengths fun i below below' =>
        ih _ (List.getElem_mem below) (each i below below')
    rw [Expr.uses_eq, Expr.uses_eq, h.ownUse_eq, List.flatMap_def, List.flatMap_def, inside]

theorem Alike.absorb_eq {e e' : Expr} (h : Alike e e') (policy : Policy) (σ : Signature) :
    σ.absorb policy e = σ.absorb policy e' := by
  rw [Signature.absorb, Signature.absorb, Signature.survey, Signature.survey, h.uses_eq]

end Expr

/-! ## Sorting -/

structure SortError.Same (error error' : SortError) : Prop where
  violation : error.violation = error'.violation
  subtree : (error.subtree == error'.subtree) = true

namespace Expr

theorem Alike.ownViolation_eq {e e' : Expr} (h : Alike e e') (firstOrder : Bool) :
    e.ownViolation firstOrder = e'.ownViolation firstOrder := by
  obtain ⟨lengths, each⟩ := h.children
  have terms : e.children.all isTerm = e'.children.all isTerm :=
    all_eq_of_getElem lengths fun i below below' => (each i below below').isTerm_eq
  have formulas : e.children.all isFormula = e'.children.all isFormula :=
    all_eq_of_getElem lengths fun i below below' =>
      congrArg not (each i below below').isTerm_eq
  cases h <;> simp only [ownViolation, terms, formulas]

theorem Alike.ownSortError {e e' : Expr} (h : Alike e e') (firstOrder : Bool) :
    Option.Rel SortError.Same (e.ownSortError firstOrder) (e'.ownSortError firstOrder) := by
  rw [Expr.ownSortError, Expr.ownSortError, h.ownViolation_eq]
  cases e'.ownViolation firstOrder with
  | none => exact .none
  | some violation => exact .some ⟨rfl, h.beq⟩

theorem rel_or {first first' second second' : Option SortError}
    (h : Option.Rel SortError.Same first first')
    (hnext : Option.Rel SortError.Same second second') :
    Option.Rel SortError.Same (first.or second) (first'.or second') := by
  cases h with
  | some same => exact .some same
  | none => exact hnext

theorem rel_sortErrorAll {firstOrder : Bool} {arguments arguments' : List Expr}
    (h : List.Forall₂ (fun e e' => Option.Rel SortError.Same (e.sortError firstOrder)
      (e'.sortError firstOrder)) arguments arguments') :
    Option.Rel SortError.Same (sortErrorAll firstOrder arguments)
      (sortErrorAll firstOrder arguments') := by
  induction h with
  | nil => exact .none
  | cons first _ ih =>
    rw [sortErrorAll, sortErrorAll]
    exact rel_or first ih

theorem Alike.sortError {e e' : Expr} (h : Alike e e') (firstOrder : Bool) :
    Option.Rel SortError.Same (e.sortError firstOrder) (e'.sortError firstOrder) := by
  induction e using childInduction generalizing e' with
  | step e ih =>
    obtain ⟨lengths, each⟩ := h.children
    have inside : Option.Rel SortError.Same (sortErrorAll firstOrder e.children)
        (sortErrorAll firstOrder e'.children) := by
      apply rel_sortErrorAll
      refine List.forall₂_iff_get.mpr ⟨lengths, fun i below below' => ?_⟩
      exact ih _ (List.getElem_mem below) (each i below below')
    rw [sortError_eq, sortError_eq]
    exact rel_or (h.ownSortError firstOrder) inside

theorem Alike.formulaError {e e' : Expr} (h : Alike e e') (firstOrder : Bool) :
    Option.Rel SortError.Same (e.formulaError firstOrder) (e'.formulaError firstOrder) := by
  rw [Expr.formulaError, Expr.formulaError, h.isTerm_eq]
  split
  · exact .some ⟨rfl, h.beq⟩
  · exact h.sortError firstOrder

/-! ## Congruence -/

/-- No step tells the trees apart, except for what it writes of them. -/
structure Indiscernible (e e' : Expr) : Prop where
  freeVariables : e.freeVariables = e'.freeVariables
  isFresh : ∀ name, e.isFresh name = e'.isFresh name
  quantify : ∀ quantifier token token' (bound bound' : Token), bound.text = bound'.text →
    (e.quantify quantifier token bound == e'.quantify quantifier token' bound') = true
  sortError : ∀ firstOrder,
    Option.Rel SortError.Same (e.sortError firstOrder) (e'.sortError firstOrder)
  formulaError : ∀ firstOrder,
    Option.Rel SortError.Same (e.formulaError firstOrder) (e'.formulaError firstOrder)
  absorb : ∀ policy (σ : Signature), σ.absorb policy e = σ.absorb policy e'
  value : ∀ {α : Type} [BEq α] (M : Model α) (v : Assignment α),
    Agree (e.value M v).outcome (e'.value M v).outcome
  truth : ∀ {α : Type} [BEq α] (M : Model α) (v : Assignment α),
    Agree (e.truth M v).outcome (e'.truth M v).outcome
  element : ∀ {α : Type} [BEq α] (M : Model α) (v : Assignment α),
    Agree (e.element M v).outcome (e'.element M v).outcome

theorem Alike.indiscernible {e e' : Expr} (h : Alike e e') : e.Indiscernible e' where
  freeVariables := congrArg List.eraseDups h.freeOccurrences_eq
  isFresh := h.isFresh_eq
  quantify quantifier token token' _ _ names := (h.quantify quantifier token token' names).beq
  sortError := h.sortError
  formulaError := h.formulaError
  absorb := h.absorb_eq
  value _ _ := h.agree_value
  truth _ _ := h.agree_truth
  element _ _ := h.agree_element

theorem beq_congruence :
    (Equivalence fun e e' : Expr => (e == e') = true) ∧
      ∀ e e' : Expr, (e == e') = true → e.Indiscernible e' :=
  ⟨equivalence_beq, fun _ _ h => (beq_iff_alike.mp h).indiscernible⟩

/-- `forall name. P(name, name)`, where the second argument has lost its quantifier. -/
def halfDetached (name : String) : Expr :=
  .quant .universal (.ofSymbol .forAll) (.ofName name)
    (.app .predicate (.ofName "P") [.var (.ofName name) (.bound 0), .var (.ofName name) (.bound 1)])

/-- Equal trees fail for the same cause, which each of them shows with its own name. -/
theorem beq_congruence_halfDetached :
    (halfDetached "x" == halfDetached "y") = true ∧ (halfDetached "y" == halfDetached "x") = true ∧
      (halfDetached "x").Indiscernible (halfDetached "y") ∧
      ((halfDetached "x").truth (Model.ofDomain [0]) .empty).outcome =
        .error (.danglingReference "x" 1) ∧
      ((halfDetached "y").truth (Model.ofDomain [0]) .empty).outcome =
        .error (.danglingReference "y" 1) := by
  have equal : (halfDetached "x" == halfDetached "y") = true := by decide +kernel
  exact ⟨equal, beq_congruence.1.symm equal, beq_congruence.2 _ _ equal, rfl, rfl⟩

end Expr

end PredicateCalculus
