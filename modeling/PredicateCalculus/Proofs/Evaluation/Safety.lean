import PredicateCalculus.Proofs.Evaluation.TruthTable
import PredicateCalculus.Proofs.Signature

/-! # Evaluations that cannot fail

A well-sorted tree has a value of its sort, given that its names are resolved, that its free
variables stand for elements, and that its operations take as many arguments as they are given. Only
an operation that the model does not have can get in the way. In a propositional tree, nothing can.

* `Model.Suits`: an operation with a fixed number of arguments is used with this number.
* `Model.Yields`: a result is as it should be, or an operation is missing.
* `Expr.Covered`: what evaluation asks of the names and uses in a tree.
* `Expr.Covered.yields`: what evaluation of a covered, well-sorted tree comes to.
* `Expr.Propositional.outcome_evaluate`: the same for propositional trees.
-/

set_option autoImplicit false

namespace PredicateCalculus

variable {α β γ : Type}

/-! ## Results -/

namespace Value

def category : Value α → Category
  | .element _ => .term
  | .truth _ => .formula

theorem asTruth_of_category {value : Value α} (h : value.category = .formula) (e : Expr) :
    ∃ b, value.asTruth e = .ok b := by
  cases value with
  | element x => cases h
  | truth b => exact ⟨b, rfl⟩

theorem asElement_of_category {value : Value α} (h : value.category = .term) (e : Expr) :
    ∃ x, value.asElement e = .ok x := by
  cases value with
  | element x => exact ⟨x, rfl⟩
  | truth b => cases h

end Value

namespace Model

def Suits (M : Model α) (use : Use) : Prop :=
  ∀ n, M.signature.arity use.kind use.name = some n → n = use.arity

def Yields (M : Model α) (uses : List Use) (holds : β → Prop) : Except EvalError β → Prop
  | .ok value => holds value
  | .error error =>
    ∃ use ∈ uses, error = .missingOperation use.kind use.name ∧ M.Lacks use.kind use.name

section

variable {M : Model α} {uses : List Use}

theorem Yields.bind {holds : β → Prop} {holds' : γ → Prop} {result : Except EvalError β}
    {next : β → Except EvalError γ} (h : M.Yields uses holds result)
    (hnext : ∀ value, holds value → M.Yields uses holds' (next value)) :
    M.Yields uses holds' (result >>= next) := by
  cases result with
  | error error => exact h
  | ok value => exact hnext value h

theorem Yields.bindTruth {holds : β → Prop} {result : Except EvalError (Value α)}
    {next : Bool → Except EvalError β} (h : M.Yields uses (·.category = .formula) result) (e : Expr)
    (hnext : ∀ b, M.Yields uses holds (next b)) :
    M.Yields uses holds (result >>= fun value => value.asTruth e >>= next) := by
  refine h.bind fun value isTruth => ?_
  obtain ⟨b, eq⟩ := Value.asTruth_of_category isTruth e
  rw [eq]
  exact hnext b

theorem Yields.search {quantifier : Quantifier} {test : α → Except EvalError Bool}
    (h : ∀ x, M.Yields uses (fun _ => True) (test x)) (elements : List α) :
    M.Yields uses (fun _ => True) (quantifier.search test elements) := by
  induction elements with
  | nil => exact trivial
  | cons x rest ih =>
    refine (h x).bind fun holds _ => ?_
    split
    · exact ih
    · exact trivial

/-- A call with a suitable number of arguments fails only for want of the operation. -/
theorem Yields.call {kind : HeadKind} {name : String} {found : Option (Operation α β)}
    {elements : List α} (listed : ⟨kind, name, elements.length⟩ ∈ uses)
    (known : M.arity? kind name = found.map Operation.arity)
    (suits : M.Suits ⟨kind, name, elements.length⟩) :
    M.Yields uses (fun _ => True) (Operation.call kind name found elements) := by
  cases found with
  | none => exact ⟨_, listed, rfl, arity?_eq_none_iff.mp known⟩
  | some operation =>
    rw [Operation.call]
    cases fixed : operation.arity with
    | none => exact trivial
    | some expected =>
      have agrees : expected = elements.length :=
        suits expected (by rw [arity_signature, known, Option.map_some, fixed]; rfl)
      rw [agrees]
      simp [Yields]

theorem Yields.applyHead {kind : HeadKind} {name : String} {elements : List α}
    (listed : ⟨kind, name, elements.length⟩ ∈ uses)
    (suits : M.Suits ⟨kind, name, elements.length⟩) :
    M.Yields uses (·.category = kind.category) (M.applyHead kind name elements) := by
  cases kind with
  | function => exact (Yields.call listed rfl suits).bind fun _ _ => rfl
  | predicate => exact (Yields.call listed rfl suits).bind fun _ _ => rfl

end

end Model

/-! ## First-order trees -/

namespace Expr

structure Covered (v : Assignment α) (uses : List Use) (scope : List String) (e : Expr) :
    Prop where
  resolved : e.Resolved scope
  assigned : ∀ name ∈ e.freeOccurrences, ∃ x, v.find? name = some (.element x)
  listed : ∀ use ∈ e.uses, use ∈ uses

namespace Covered

variable {M : Model α} {v : Assignment α} {uses : List Use} {scope : List String}
  {frames : List α} {e : Expr}

theorem child (h : e.Covered v uses scope) {child : Expr} (isChild : child ∈ e.children) :
    child.Covered v uses (e.innerScope scope) :=
  ⟨h.resolved.child isChild,
    fun name free => h.assigned name (mem_freeOccurrences_of_child isChild free),
    fun use member => h.listed use (mem_uses_of_child isChild member)⟩

theorem resolve {token : Token} {reference : Reference}
    (h : (Expr.var token reference).Covered v uses scope)
    (balanced : scope.length = frames.length) :
    ∃ x, reference.resolve v frames token = .ok (.element x) := by
  have resolved := resolved_var.mp h.resolved
  cases reference with
  | free name =>
    obtain ⟨x, found⟩ := h.assigned name List.mem_cons_self
    exact ⟨x, by rw [Reference.resolve, found]⟩
  | bound distance =>
    obtain ⟨inScope, -⟩ := Reference.ofName_eq_bound_iff.mp resolved.symm
    obtain ⟨less, -⟩ := List.getElem?_eq_some_iff.mp inScope
    -- The nearest quantifier of the name is in scope, and every quantifier in scope has an element.
    rw [balanced] at less
    exact ⟨frames[distance], by rw [Reference.resolve, List.getElem?_eq_getElem less]⟩

variable [BEq α]

theorem yieldsAll {arguments : List Expr}
    (h : ∀ e ∈ arguments, M.Yields uses (·.category = .term) (e.evaluate M v frames).outcome) :
    M.Yields uses (·.length = arguments.length) (evaluateAll M v frames arguments).outcome := by
  induction arguments with
  | nil =>
    rw [outcome_evaluateAll_nil]
    exact rfl
  | cons e rest ih =>
    rw [List.forall_mem_cons] at h
    rw [outcome_evaluateAll_cons]
    refine h.1.bind fun value isElement => ?_
    obtain ⟨x, eq⟩ := Value.asElement_of_category isElement e
    rw [eq]
    exact (ih h.2).bind fun elements length => congrArg Nat.succ length

theorem yields (suits : ∀ use ∈ uses, M.Suits use) {category : Category}
    (sorted : Sorted category e) (h : e.Covered v uses scope)
    (balanced : scope.length = frames.length) :
    M.Yields uses (·.category = category) (e.evaluate M v frames).outcome := by
  induction sorted generalizing scope frames with
  | var token reference =>
    obtain ⟨x, eq⟩ := h.resolve balanced
    rw [outcome_evaluate_var, eq]
    exact rfl
  | app kind head arguments own each ih =>
    rw [outcome_evaluate_app]
    have elements := yieldsAll fun e member => ih e member (h.child member) balanced
    refine elements.bind fun elements length => ?_
    have listed := h.listed _ (mem_uses_app kind head arguments)
    rw [← length] at listed
    rw [← own]
    exact .applyHead listed (suits _ listed)
  | connect op token left right _ _ first second =>
    rw [outcome_evaluate_connect]
    refine (first (h.child (by simp [children])) balanced).bindTruth left fun leftTruth => ?_
    exact (second (h.child (by simp [children])) balanced).bindTruth right fun rightTruth => rfl
  | compare op token left right _ _ first second =>
    rw [outcome_evaluate_compare]
    refine (first (h.child (by simp [children])) balanced).bind fun leftValue _ => ?_
    exact (second (h.child (by simp [children])) balanced).bind fun rightValue _ => rfl
  | neg token operand _ ih =>
    rw [outcome_evaluate_neg]
    exact (ih (h.child List.mem_cons_self) balanced).bindTruth operand fun truth => rfl
  | quant quantifier token bound body _ ih =>
    rw [outcome_evaluate_quant]
    refine Model.Yields.bind (Model.Yields.search (fun x => ?_) M.domain) fun _ _ => rfl
    have inside : body.Covered v uses (bound.text :: scope) := h.child List.mem_cons_self
    have balancedInside : (bound.text :: scope).length = (x :: frames).length :=
      congrArg Nat.succ balanced
    refine (ih inside balancedInside).bind fun value isTruth => ?_
    obtain ⟨b, eq⟩ := Value.asTruth_of_category isTruth body
    rw [eq]
    exact trivial

end Covered

/-! ## Propositional trees -/

theorem Propositional.outcome_evaluate [BEq α] {M : Model α} {v : Assignment α} {e : Expr}
    (h : Propositional e) (resolved : e.Resolved [])
    (assigned : ∀ name ∈ e.freeOccurrences, ∃ b, v.find? name = some (.truth b)) :
    ∃ b, (e.evaluate M v []).outcome = .ok (.truth b) := by
  choose! ρ given using assigned
  exact ⟨_, h.outcome_of_given M resolved given⟩

end Expr

end PredicateCalculus
