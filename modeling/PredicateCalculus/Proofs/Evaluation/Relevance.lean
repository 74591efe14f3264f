import PredicateCalculus.Proofs.Evaluation.Outcome
import PredicateCalculus.Proofs.Signature

/-! # What an evaluation depends on

An evaluation asks the assignment for the free variables of a tree and the model for the operations
that the tree uses. Where two assignments and two models agree on these, evaluation takes the same
course and comes to the same end.

* `Operation.Alike`: operations with the same number of arguments and the same results.
* `Model.AgreeAt`: models that have alike operations of a name, or none.
* `Expr.Agreement`: two models and two assignments that agree on what a tree mentions.
* `Expr.Agreement.evaluate_eq`: the runs are the same, under any quantifiers.
* `Expr.value_eq_of_agreement`: the same for whole trees, and for names that are not free in them.
-/

set_option autoImplicit false

namespace PredicateCalculus

variable {α β : Type}

/-! ## Operations -/

namespace Operation

def Takes (operation : Operation α β) (arguments : List α) : Prop :=
  ∀ n, operation.arity = some n → n = arguments.length

/-- Results for lists that are too long or too short are never asked for. -/
structure Alike (operation operation' : Operation α β) : Prop where
  arity : operation.arity = operation'.arity
  apply : ∀ arguments, operation.Takes arguments →
    operation.apply arguments = operation'.apply arguments

theorem call_congr {found found' : Option (Operation α β)} (h : Option.Rel Alike found found')
    (kind : HeadKind) (name : String) (arguments : List α) :
    call kind name found arguments = call kind name found' arguments := by
  cases h with
  | none => rfl
  | @some operation operation' alike =>
    have same := alike.apply arguments
    rw [call, call, ← alike.arity]
    cases fixed : operation.arity with
    | none =>
      have takes : operation.Takes arguments := by simp [Takes, fixed]
      exact congrArg Except.ok (same takes)
    | some expected =>
      by_cases suits : expected = arguments.length
      · have takes : operation.Takes arguments := by simp [Takes, fixed, suits]
        simp only [if_pos suits, same takes]
      · simp only [if_neg suits]

end Operation

namespace Model

/-- Both models have the operation, and it is alike in them, or neither has it. -/
def AgreeAt (M M' : Model α) : HeadKind → String → Prop
  | .function, name =>
    Option.Rel Operation.Alike (M.functions.find? name) (M'.functions.find? name)
  | .predicate, name =>
    Option.Rel Operation.Alike (M.predicates.find? name) (M'.predicates.find? name)

theorem AgreeAt.refl (M : Model α) (kind : HeadKind) (name : String) : M.AgreeAt M kind name := by
  have same : ∀ {γ : Type} (found : Option (Operation α γ)),
      Option.Rel Operation.Alike found found := by
    intro γ found
    cases found with
    | none => exact .none
    | some operation => exact .some ⟨rfl, fun _ _ => rfl⟩
  cases kind <;> exact same _

theorem AgreeAt.applyHead_eq {M M' : Model α} {kind : HeadKind} {name : String}
    (h : M.AgreeAt M' kind name) (arguments : List α) :
    M.applyHead kind name arguments = M'.applyHead kind name arguments := by
  cases kind <;> simp only [applyHead, Operation.call_congr h]

end Model

/-! ## Trees -/

namespace Expr

structure Agreement (M M' : Model α) (v v' : Assignment α) (e : Expr) : Prop where
  domain : M.domain = M'.domain
  names : ∀ name ∈ e.freeVariables, v.find? name = v'.find? name
  operations : ∀ use ∈ e.uses, M.AgreeAt M' use.kind use.name

namespace Agreement

section

variable {M M' : Model α} {v v' : Assignment α} {e : Expr}

theorem child (h : e.Agreement M M' v v') {child : Expr} (isChild : child ∈ e.children) :
    child.Agreement M M' v v' := by
  refine ⟨h.domain, fun name free => ?_, fun use member => ?_⟩
  · have inside := mem_freeOccurrences_of_child isChild (List.mem_eraseDups.mp free)
    exact h.names name (List.mem_eraseDups.mpr inside)
  · exact h.operations use (mem_uses_of_child isChild member)

theorem resolve_eq {token : Token} {reference : Reference}
    (h : (Expr.var token reference).Agreement M M' v v') (frames : List α) :
    reference.resolve v frames token = reference.resolve v' frames token := by
  cases reference with
  | free name =>
    have free : name ∈ (Expr.var token (.free name)).freeVariables :=
      List.mem_eraseDups.mpr List.mem_cons_self
    rw [Reference.resolve, Reference.resolve, h.names name free]
  | bound distance => rfl

variable [BEq α]

theorem evaluateAll_eq {frames : List α} {arguments : List Expr}
    (h : ∀ e ∈ arguments, e.evaluate M v frames = e.evaluate M' v' frames) :
    evaluateAll M v frames arguments = evaluateAll M' v' frames arguments := by
  induction arguments with
  | nil => rfl
  | cons e rest ih =>
    rw [List.forall_mem_cons] at h
    rw [evaluateAll, evaluateAll, h.1, ih h.2]

theorem evaluate_eq (h : e.Agreement M M' v v') (frames : List α) :
    e.evaluate M v frames = e.evaluate M' v' frames := by
  induction e generalizing frames with
  | var token reference => rw [evaluate, evaluate, h.resolve_eq]
  | app kind head arguments ih =>
    have elements : evaluateAll M v frames arguments = evaluateAll M' v' frames arguments :=
      evaluateAll_eq fun e member => ih e member (h.child member) frames
    have results := (h.operations _ (mem_uses_app kind head arguments)).applyHead_eq
    simp only [evaluate, elements, results]
  | connect op token left right ihLeft ihRight =>
    have first := ihLeft (h.child (by simp [children])) frames
    have second := ihRight (h.child (by simp [children])) frames
    rw [evaluate, evaluate, first, second]
  | compare op token left right ihLeft ihRight =>
    have first := ihLeft (h.child (by simp [children])) frames
    have second := ihRight (h.child (by simp [children])) frames
    rw [evaluate, evaluate, first, second]
  | neg token operand ih => rw [evaluate, evaluate, ih (h.child List.mem_cons_self)]
  | quant quantifier token bound body ih =>
    have instances : ∀ x, body.evaluate M v (x :: frames) = body.evaluate M' v' (x :: frames) :=
      fun x => ih (h.child List.mem_cons_self) (x :: frames)
    simp only [evaluate, instances, h.domain]

end

/-- Every name but one keeps its value. -/
theorem insert [BEq α] (M : Model α) (v : Assignment α) {e : Expr} {name : String}
    (bound : name ∉ e.freeVariables) (value : Value α) :
    e.Agreement M M (v.insert name value) v := by
  refine ⟨rfl, fun other free => ?_, fun use _ => .refl M use.kind use.name⟩
  have different : name ≠ other := by
    rintro rfl
    exact bound free
  rw [NameTable.find?_insert, if_neg different]

end Agreement

/-- Evaluation depends only on what a tree mentions: the order of the domain, the values of its free
variables, and the operations that it uses. The runs agree in their records and in their ends, and a
value for a name that is not free in the tree makes no difference. -/
theorem value_eq_of_agreement [BEq α] {M M' : Model α} {v v' : Assignment α} {e : Expr}
    (h : e.Agreement M M' v v') :
    (e.value M v = e.value M' v' ∧ e.truth M v = e.truth M' v' ∧
      e.element M v = e.element M' v') ∧
    ∀ name ∉ e.freeVariables, ∀ given : Value α,
      e.value M (v.insert name given) = e.value M' v' ∧
      e.truth M (v.insert name given) = e.truth M' v' ∧
      e.element M (v.insert name given) = e.element M' v' := by
  have same : e.evaluate M v [] = e.evaluate M' v' [] := h.evaluate_eq []
  refine ⟨?_, fun name bound given => ?_⟩
  · simp only [value, truth, element, same, and_self]
  · have ignored := (Agreement.insert M v bound given).evaluate_eq []
    simp only [value, truth, element, ignored, same, and_self]

/-- In `forall x. P(x, y)` only `y` is free. The second model has another operation, and a `P` that
is different for lists of other lengths; the second assignment has values for `x` and `z`. -/
theorem value_eq_of_agreement_bound :
    let e := quantify .universal (.ofSymbol .forAll) (.ofName "x")
      (.app .predicate (.ofName "P") [named (.ofName "x"), named (.ofName "y")])
    let P : Operation Nat Bool := ⟨some 2, fun arguments => arguments != [0, 0]⟩
    let P' : Operation Nat Bool := ⟨some 2, fun arguments =>
      arguments.length == 2 && arguments != [0, 0]⟩
    let M := (Model.ofDomain [0, 1]).withPredicate "P" P
    let M' := (M.withPredicate "P" P').withFunction "f" ⟨none, List.length⟩
    let v : Assignment Nat := NameTable.empty.insert "y" (.element 1)
    let v' := (v.insert "x" (.truth false)).insert "z" (.element 7)
    e.Agreement M M' v v' ∧ (e.value M v).outcome = .ok (.truth true) ∧
      e.value M v = e.value M' v' := by
  intro e P P' M M' v v'
  have alike : P.Alike P' := by
    refine ⟨rfl, fun arguments takes => ?_⟩
    have pair : arguments.length = 2 := (takes 2 rfl).symm
    simp [P, P', pair]
  have agreement : e.Agreement M M' v v' := by
    refine ⟨rfl, fun name free => ?_, fun use member => ?_⟩
    · have only : e.freeVariables = ["y"] := by decide
      rw [only, List.mem_singleton] at free
      rw [free]
      rfl
    · have only : e.uses = [⟨.predicate, "P", 2⟩] := by decide
      rw [only, List.mem_singleton] at member
      rw [member]
      exact .some alike
  exact ⟨agreement, rfl, (value_eq_of_agreement agreement).1.1⟩

end Expr

end PredicateCalculus
