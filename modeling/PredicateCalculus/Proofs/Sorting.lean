import PredicateCalculus.Expr.Sorting
import PredicateCalculus.Proofs.Occurrence

/-! # The two sorts

First-order trees are terms or formulas, given here by their own grammar, and propositional trees
have a grammar with variables and connectives only. The structural check finds no error exactly in
the trees of the grammar that it is meant for.

* `Category`, `Expr.Sorted`: the grammar of terms and formulas.
* `Expr.Propositional`: the grammar of propositional trees.
* `Expr.formulaError_eq_none_iff_sorted`, `Expr.formulaError_eq_none_iff_propositional`: what the
  check accepts.
-/

set_option autoImplicit false

namespace PredicateCalculus

inductive Category where
  | term
  | formula
  deriving DecidableEq

def HeadKind.category : HeadKind → Category
  | .function => .term
  | .predicate => .formula

namespace Expr

def category (e : Expr) : Category :=
  if e.isTerm then .term else .formula

inductive Sorted : Category → Expr → Prop where
  | var (token : Token) (reference : Reference) : Sorted .term (.var token reference)
  | app {category : Category} (kind : HeadKind) (head : Token) (arguments : List Expr)
      (own : kind.category = category) (each : ∀ e ∈ arguments, Sorted .term e) :
      Sorted category (.app kind head arguments)
  | connect (op : Connective) (token : Token) (left right : Expr) (first : Sorted .formula left)
      (second : Sorted .formula right) : Sorted .formula (.connect op token left right)
  | compare (op : Comparison) (token : Token) (left right : Expr) (first : Sorted .term left)
      (second : Sorted .term right) : Sorted .formula (.compare op token left right)
  | neg (token : Token) (operand : Expr) (inner : Sorted .formula operand) :
      Sorted .formula (.neg token operand)
  | quant (quantifier : Quantifier) (token bound : Token) (body : Expr)
      (inner : Sorted .formula body) : Sorted .formula (.quant quantifier token bound body)

inductive Propositional : Expr → Prop where
  | var (token : Token) (reference : Reference) : Propositional (.var token reference)
  | connect (op : Connective) (token : Token) (left right : Expr) (first : Propositional left)
      (second : Propositional right) : Propositional (.connect op token left right)
  | neg (token : Token) (operand : Expr) (inner : Propositional operand) :
      Propositional (.neg token operand)

/-! ## First-order trees -/

theorem category_eq_term_iff {e : Expr} : e.category = .term ↔ e.isTerm = true := by
  cases h : e.isTerm <;> simp [category, h]

theorem category_eq_formula_iff {e : Expr} : e.category = .formula ↔ e.isFormula = true := by
  cases h : e.isTerm <;> simp [category, isFormula, h]

theorem Sorted.category_eq {category : Category} {e : Expr} (h : Sorted category e) :
    e.category = category := by
  cases h with
  | app kind head arguments own each => cases kind <;> exact own
  | _ => rfl

/-- A part has a category of its own, so it is of the one that is asked for when the root says so. -/
theorem sorted_iff {category : Category} {e : Expr} :
    Sorted category e ↔ e.category = category ∧ Sorted e.category e :=
  ⟨fun h => ⟨h.category_eq, h.category_eq.symm ▸ h⟩, fun ⟨same, h⟩ => same ▸ h⟩

theorem sortError_eq (e : Expr) (firstOrder : Bool) :
    e.sortError firstOrder =
      (e.ownSortError firstOrder).or (sortErrorAll firstOrder e.children) := by
  cases e <;> simp [sortError, sortErrorAll, children, ownSortError, ownViolation]

theorem sortErrorAll_eq_none_iff {firstOrder : Bool} {arguments : List Expr} :
    sortErrorAll firstOrder arguments = none ↔ ∀ e ∈ arguments, e.sortError firstOrder = none := by
  induction arguments with
  | nil => exact iff_of_true rfl (by simp)
  | cons e rest ih => rw [sortErrorAll, Option.or_eq_none_iff, ih, List.forall_mem_cons]

theorem sorted_app_iff {category : Category} {kind : HeadKind} {head : Token}
    {arguments : List Expr} : Sorted category (.app kind head arguments) ↔
      kind.category = category ∧ ∀ e ∈ arguments, Sorted .term e :=
  ⟨fun h => by cases h with | app _ _ _ own each => exact ⟨own, each⟩,
    fun ⟨own, each⟩ => .app kind head arguments own each⟩

theorem sorted_connect_iff {op : Connective} {token : Token} {left right : Expr} :
    Sorted .formula (.connect op token left right) ↔
      Sorted .formula left ∧ Sorted .formula right :=
  ⟨fun h => by cases h with | connect _ _ _ _ first second => exact ⟨first, second⟩,
    fun ⟨first, second⟩ => .connect op token left right first second⟩

theorem sorted_compare_iff {op : Comparison} {token : Token} {left right : Expr} :
    Sorted .formula (.compare op token left right) ↔ Sorted .term left ∧ Sorted .term right :=
  ⟨fun h => by cases h with | compare _ _ _ _ first second => exact ⟨first, second⟩,
    fun ⟨first, second⟩ => .compare op token left right first second⟩

theorem sorted_neg_iff {token : Token} {operand : Expr} :
    Sorted .formula (.neg token operand) ↔ Sorted .formula operand :=
  ⟨fun h => by cases h with | neg _ _ inner => exact inner, .neg token operand⟩

theorem sorted_quant_iff {quantifier : Quantifier} {token bound : Token} {body : Expr} :
    Sorted .formula (.quant quantifier token bound body) ↔ Sorted .formula body :=
  ⟨fun h => by cases h with | quant _ _ _ _ inner => exact inner, .quant quantifier token bound body⟩

theorem ownSortError_eq_none_iff {firstOrder : Bool} {e : Expr} :
    e.ownSortError firstOrder = none ↔ e.ownViolation firstOrder = none :=
  Option.map_eq_none_iff

theorem sortError_eq_none_iff_sorted {e : Expr} :
    e.sortError true = none ↔ Sorted e.category e := by
  induction e with
  | var token reference => exact iff_of_true rfl (.var token reference)
  | app kind head arguments ih =>
    have root : (Expr.app kind head arguments).category = kind.category := by cases kind <;> rfl
    have own : (Expr.app kind head arguments).ownViolation true = none ↔
        ∀ e ∈ arguments, e.category = .term := by
      simp [ownViolation, children, category_eq_term_iff]
    rw [sortError, Option.or_eq_none_iff, ownSortError_eq_none_iff, own, sortErrorAll_eq_none_iff,
      root, sorted_app_iff, and_iff_right rfl, ← forall₂_and]
    exact forall₂_congr fun e member => by rw [sorted_iff, ih e member]
  | connect op token left right ihLeft ihRight =>
    have own : (Expr.connect op token left right).ownViolation true = none ↔
        left.category = .formula ∧ right.category = .formula := by
      simp [ownViolation, children, category_eq_formula_iff]
    show _ ↔ Sorted .formula _
    rw [sortError, Option.or_eq_none_iff, Option.or_eq_none_iff, ownSortError_eq_none_iff, own,
      sorted_connect_iff, sorted_iff (e := left), sorted_iff (e := right), ihLeft, ihRight,
      and_and_and_comm]
  | compare op token left right ihLeft ihRight =>
    have own : (Expr.compare op token left right).ownViolation true = none ↔
        left.category = .term ∧ right.category = .term := by
      simp [ownViolation, children, category_eq_term_iff]
    show _ ↔ Sorted .formula _
    rw [sortError, Option.or_eq_none_iff, Option.or_eq_none_iff, ownSortError_eq_none_iff, own,
      sorted_compare_iff, sorted_iff (e := left), sorted_iff (e := right), ihLeft, ihRight,
      and_and_and_comm]
  | neg token operand ih =>
    have own : (Expr.neg token operand).ownViolation true = none ↔ operand.category = .formula := by
      simp [ownViolation, children, category_eq_formula_iff]
    show _ ↔ Sorted .formula _
    rw [sortError, Option.or_eq_none_iff, ownSortError_eq_none_iff, own, sorted_neg_iff, sorted_iff,
      ih]
  | quant quantifier token bound body ih =>
    have own : (Expr.quant quantifier token bound body).ownViolation true = none ↔
        body.category = .formula := by
      simp [ownViolation, children, category_eq_formula_iff]
    show _ ↔ Sorted .formula _
    rw [sortError, Option.or_eq_none_iff, ownSortError_eq_none_iff, own, sorted_quant_iff,
      sorted_iff, ih]

theorem formulaError_eq_none_iff_sorted {e : Expr} :
    e.formulaError true = none ↔ Sorted .formula e := by
  rw [formulaError, Bool.true_and, sorted_iff, ← sortError_eq_none_iff_sorted,
    category_eq_formula_iff, isFormula]
  cases e.isTerm <;> simp

/-! ## Propositional trees -/

theorem formulaError_eq_none_iff_propositional {e : Expr} :
    e.formulaError false = none ↔ Propositional e := by
  rw [formulaError, Bool.false_and, if_neg Bool.false_ne_true]
  induction e with
  | var token reference => exact iff_of_true rfl (.var token reference)
  | app kind head arguments ih =>
    exact iff_of_false (by simp [sortError, ownSortError, ownViolation]) nofun
  | connect op token left right ihLeft ihRight =>
    rw [sortError, Option.or_eq_none_iff, Option.or_eq_none_iff, ihLeft, ihRight]
    refine ⟨fun ⟨_, first, second⟩ => .connect op token left right first second, fun h => ?_⟩
    cases h with
    | connect _ _ _ _ first second => exact ⟨rfl, first, second⟩
  | compare op token left right ihLeft ihRight =>
    exact iff_of_false (by simp [sortError, ownSortError, ownViolation]) nofun
  | neg token operand ih =>
    rw [sortError, Option.or_eq_none_iff, ih]
    refine ⟨fun ⟨_, inner⟩ => .neg token operand inner, fun h => ?_⟩
    cases h with
    | neg _ _ inner => exact ⟨rfl, inner⟩
  | quant quantifier token bound body ih =>
    exact iff_of_false (by simp [sortError, ownSortError, ownViolation]) nofun

end Expr

end PredicateCalculus
