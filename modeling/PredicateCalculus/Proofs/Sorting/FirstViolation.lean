import PredicateCalculus.Proofs.Sorting

/-! # The first violation

A node has a rule for its own children, and a tree is in order when all of its nodes keep theirs. The
structural check reports the first node in preorder that does not, unless the whole tree is a term
where a first-order formula is meant.

* `Expr.Breaks`: the rule of its own kind that a node breaks.
* `Expr.sortError_eq_findSome?`: the check goes through the nodes in preorder.
* `Expr.formulaError_eq_some_iff`: what is reported.
* `Expr.Propositional.not_sorted`: no tree is in order for both uses.
* `Expr.formulaError_decides`: what is accepted and what is reported.
-/

set_option autoImplicit false

namespace PredicateCalculus.Expr

/-! ## One node -/

/-- Connectives, negations and quantifiers. -/
def takesFormulas : Expr → Bool
  | .connect _ _ _ _ => true
  | .neg _ _ => true
  | .quant _ _ _ _ => true
  | _ => false

/-- Comparisons and applications. -/
def takesTerms : Expr → Bool
  | .compare _ _ _ _ => true
  | .app _ _ _ => true
  | _ => false

/-- Comparisons, applications and quantifiers. -/
def isFirstOrder : Expr → Bool
  | .compare _ _ _ _ => true
  | .app _ _ _ => true
  | .quant _ _ _ _ => true
  | _ => false

/-- A node breaks the rule of its own kind. In first-order use the rule is about the children; in
propositional use some kinds of nodes are not allowed at all. -/
inductive Breaks : Bool → Expr → Violation → Prop where
  | operandNotFormula {e : Expr} (takes : e.takesFormulas = true)
      (child : ∃ child ∈ e.children, child.isTerm = true) : Breaks true e .operandNotFormula
  | operandNotTerm {e : Expr} (takes : e.takesTerms = true)
      (child : ∃ child ∈ e.children, child.isFormula = true) : Breaks true e .operandNotTerm
  | firstOrderOnly {e : Expr} (only : e.isFirstOrder = true) : Breaks false e .firstOrderOnly

variable {firstOrder : Bool} {e : Expr} {violation : Violation} {error : SortError}

theorem not_all_isFormula : e.children.all isFormula = false ↔
    ∃ child ∈ e.children, child.isTerm = true := by
  simp [isFormula]

theorem not_all_isTerm : e.children.all isTerm = false ↔
    ∃ child ∈ e.children, child.isFormula = true := by
  simp [isFormula]

theorem ownViolation_true (e : Expr) :
    e.ownViolation true =
      if e.takesFormulas = true ∧ e.children.all isFormula = false then some .operandNotFormula
      else if e.takesTerms = true ∧ e.children.all isTerm = false then some .operandNotTerm
      else none := by
  cases e <;> simp [ownViolation, takesFormulas, takesTerms]

theorem ownViolation_false (e : Expr) :
    e.ownViolation false = if e.isFirstOrder = true then some .firstOrderOnly else none := by
  cases e <;> rfl

theorem takesFormulas_eq_false (h : e.takesTerms = true) : e.takesFormulas = false := by
  cases e <;> first | rfl | cases h

theorem breaks_iff :
    Breaks firstOrder e violation ↔ e.ownViolation firstOrder = some violation := by
  constructor
  · intro h
    cases h with
    | operandNotFormula takes child =>
      rw [ownViolation_true, if_pos ⟨takes, not_all_isFormula.mpr child⟩]
    | operandNotTerm takes child =>
      have other : ¬(e.takesFormulas = true ∧ e.children.all isFormula = false) := by
        simp [takesFormulas_eq_false takes]
      rw [ownViolation_true, if_neg other, if_pos ⟨takes, not_all_isTerm.mpr child⟩]
    | firstOrderOnly only => rw [ownViolation_false, if_pos only]
  · intro h
    cases firstOrder with
    | false =>
      rw [ownViolation_false] at h
      split at h
      · next only =>
        obtain rfl := Option.some.inj h
        exact .firstOrderOnly only
      · cases h
    | true =>
      rw [ownViolation_true] at h
      split at h
      · next wrong =>
        obtain rfl := Option.some.inj h
        exact .operandNotFormula wrong.1 (not_all_isFormula.mp wrong.2)
      · split at h
        · next wrong =>
          obtain rfl := Option.some.inj h
          exact .operandNotTerm wrong.1 (not_all_isTerm.mp wrong.2)
        · cases h

theorem ownSortError_eq_some_iff :
    e.ownSortError firstOrder = some error ↔
      e = error.subtree ∧ Breaks firstOrder error.subtree error.violation := by
  obtain ⟨violation, subtree⟩ := error
  simp only [ownSortError, Option.map_eq_some_iff, breaks_iff, SortError.mk.injEq]
  constructor
  · rintro ⟨own, found, rfl, rfl⟩
    exact ⟨rfl, found⟩
  · rintro ⟨rfl, found⟩
    exact ⟨violation, found, rfl, rfl⟩

theorem ownSortError_eq_none_iff_forall :
    e.ownSortError firstOrder = none ↔ ∀ violation, ¬Breaks firstOrder e violation := by
  rw [ownSortError_eq_none_iff, Option.eq_none_iff_forall_ne_some]
  simp only [ne_eq, breaks_iff]

/-! ## All nodes in preorder -/

theorem sortErrorAll_eq_findSome? {arguments : List Expr}
    (each : ∀ e ∈ arguments,
      e.sortError firstOrder = e.preorder.findSome? (ownSortError firstOrder)) :
    sortErrorAll firstOrder arguments =
      (arguments.flatMap preorder).findSome? (ownSortError firstOrder) := by
  induction arguments with
  | nil => rfl
  | cons e rest ih =>
    obtain ⟨first, others⟩ := List.forall_mem_cons.mp each
    rw [sortErrorAll, List.flatMap_cons, List.findSome?_append, first, ih others]

theorem sortError_eq_findSome? (e : Expr) (firstOrder : Bool) :
    e.sortError firstOrder = e.preorder.findSome? (ownSortError firstOrder) := by
  induction e using childInduction with
  | step e ih =>
    rw [sortError_eq, preorder_eq, List.findSome?_cons, sortErrorAll_eq_findSome? ih]
    cases e.ownSortError firstOrder <;> rfl

theorem sortError_eq_some_iff :
    e.sortError firstOrder = some error ↔
      ∃ earlier later, e.preorder = earlier ++ error.subtree :: later ∧
        Breaks firstOrder error.subtree error.violation ∧
        ∀ node ∈ earlier, ∀ violation, ¬Breaks firstOrder node violation := by
  rw [sortError_eq_findSome?, List.findSome?_eq_some_iff]
  simp only [ownSortError_eq_some_iff, ownSortError_eq_none_iff_forall]
  constructor
  · rintro ⟨earlier, node, later, split, ⟨rfl, breaks⟩, others⟩
    exact ⟨earlier, later, split, breaks, others⟩
  · rintro ⟨earlier, later, split, breaks, others⟩
    exact ⟨earlier, error.subtree, later, split, ⟨rfl, breaks⟩, others⟩

/-! ## Whole formulas -/

theorem formulaError_eq_some_iff :
    e.formulaError firstOrder = some error ↔
      if firstOrder = true ∧ e.isTerm = true then error = ⟨.termAsFormula, e⟩
      else ∃ earlier later, e.preorder = earlier ++ error.subtree :: later ∧
        Breaks firstOrder error.subtree error.violation ∧
        ∀ node ∈ earlier, ∀ violation, ¬Breaks firstOrder node violation := by
  simp only [formulaError, Bool.and_eq_true]
  split
  · rw [Option.some.injEq, eq_comm]
  · exact sortError_eq_some_iff

theorem Propositional.not_sorted (h : e.Propositional) : ¬Sorted .formula e := by
  induction h with
  | var token reference => nofun
  | connect op token left right _ _ first second =>
    intro sorted
    exact first (sorted_connect_iff.mp sorted).1
  | neg token operand _ inner =>
    intro sorted
    exact inner (sorted_neg_iff.mp sorted)

/-- In first-order use the formulas of the two-sorted grammar are accepted, in propositional use the
trees of variables, connectives and negations, and no tree in both. What is reported is the whole
tree, when it is a term and a first-order formula is meant, and otherwise the first node in preorder
that breaks the rule of its own kind. -/
theorem formulaError_decides (e : Expr) :
    (e.formulaError true = none ↔ Sorted .formula e) ∧
    (e.formulaError false = none ↔ Propositional e) ∧
    ¬(e.formulaError true = none ∧ e.formulaError false = none) ∧
    ∀ firstOrder error, e.formulaError firstOrder = some error ↔
      if firstOrder = true ∧ e.isTerm = true then error = ⟨.termAsFormula, e⟩
      else ∃ earlier later, e.preorder = earlier ++ error.subtree :: later ∧
        Breaks firstOrder error.subtree error.violation ∧
        ∀ node ∈ earlier, ∀ violation, ¬Breaks firstOrder node violation := by
  refine ⟨formulaError_eq_none_iff_sorted, formulaError_eq_none_iff_propositional, ?_,
    fun firstOrder error => formulaError_eq_some_iff⟩
  rintro ⟨sorted, propositional⟩
  rw [formulaError_eq_none_iff_sorted] at sorted
  rw [formulaError_eq_none_iff_propositional] at propositional
  exact propositional.not_sorted sorted

/-- In `~(P(Q(x)) ^ y)` the conjunction comes before `P(Q(x))`, which is wrong as well; in
propositional use the conjunction is in order, and `P(Q(x))` comes first. -/
theorem formulaError_decides_conjunction :
    let x := named (.ofName "x")
    let atom := Expr.app .predicate (.ofName "P") [.app .predicate (.ofName "Q") [x]]
    let both := Expr.connect .and (.ofSymbol .and) atom (named (.ofName "y"))
    let whole := Expr.neg (.ofSymbol .not) both
    whole.formulaError true = some ⟨.operandNotFormula, both⟩ ∧
      whole.formulaError false = some ⟨.firstOrderOnly, atom⟩ ∧
      x.formulaError true = some ⟨.termAsFormula, x⟩ := by
  intro x atom both whole
  obtain ⟨-, -, -, reports⟩ := formulaError_decides whole
  obtain ⟨-, -, -, reportsTerm⟩ := formulaError_decides x
  refine ⟨(reports true _).mpr ?_, (reports false _).mpr ?_, (reportsTerm true _).mpr rfl⟩
  · have isChild : named (.ofName "y") ∈ both.children := by simp [both, children]
    refine ⟨[whole], both.preorder.tail, rfl, .operandNotFormula rfl ⟨_, isChild, rfl⟩, ?_⟩
    intro node member violation breaks
    rw [List.mem_singleton.mp member, breaks_iff] at breaks
    cases breaks
  · refine ⟨[whole, both], _, rfl, .firstOrderOnly rfl, ?_⟩
    intro node member violation breaks
    rw [breaks_iff] at breaks
    simp only [List.mem_cons, List.not_mem_nil, or_false] at member
    rcases member with rfl | rfl <;> cases breaks

end PredicateCalculus.Expr
