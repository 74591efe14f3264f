import Mathlib.Logic.Function.Basic
import PredicateCalculus.Proofs.Evaluation.Meaning
import PredicateCalculus.Proofs.Named

/-! # Evaluation by names

A tree by names has a meaning of its own: a variable is looked up in an environment, a quantifier
evaluates its body once for each element, in the environment changed at the name that it binds, and
the other nodes come to what their symbols mean. The expression built from the tree, with distances
for names and elements for quantifiers, comes to the same value or to the same error.

* `Environment`: values for names; `Assignment.environment` is that of an assignment.
* `Named.evaluate`: the value of a tree by names in an environment.
* `Environment.inside`: the environment inside of quantifiers, given their names and elements.
* `Expr.outcome_evaluate_of_resolved`: the invariant, for a place inside of any quantifiers.
* `Named.outcome_value_build`: the agreement for whole trees, with its consequences.
-/

set_option autoImplicit false

namespace PredicateCalculus

variable {α : Type}

abbrev Environment (α : Type) := String → Option (Value α)

def Assignment.environment (v : Assignment α) : Environment α :=
  fun name => v.entries.lookup name

namespace Named

/-- The truth value of a formula, for its value. A tree of the wrong kind is reported as it is
written. -/
def truthOf (t : Named) : Value α → Except EvalError Bool
  | .truth b => .ok b
  | .element _ => .error (.truthExpected t.build.print)

/-- The element that a term stands for, for its value. -/
def elementOf (t : Named) : Value α → Except EvalError α
  | .element x => .ok x
  | .truth _ => .error (.elementExpected t.build.print)

variable [BEq α]

mutual

/-- Operands are evaluated from left to right, the right one also where the left one decides. -/
def evaluate (M : Model α) (ρ : Environment α) : Named → Except EvalError (Value α)
  | .var token =>
    match ρ token.text with
    | some value => .ok value
    | none => .error (.unboundVariable token.text)
  | .app kind head arguments => do
    let elements ← evaluateAll M ρ arguments
    M.consult kind head.text elements
  | .connect op _ left right => do
    let leftTruth ← left.truthOf (← evaluate M ρ left)
    let rightTruth ← right.truthOf (← evaluate M ρ right)
    return .truth (decide (op.Holds leftTruth rightTruth))
  | .compare op _ left right => do
    let leftValue ← evaluate M ρ left
    let rightValue ← evaluate M ρ right
    return .truth (decide (op.Holds leftValue rightValue))
  | .neg _ operand => do
    let truth ← operand.truthOf (← evaluate M ρ operand)
    return .truth (decide ¬truth)
  | .quant quantifier _ bound body => do
    let truth ← quantifier.testAll M.domain fun x => do
      body.truthOf (← evaluate M (Function.update ρ bound.text (some (.element x))) body)
    return .truth truth

def evaluateAll (M : Model α) (ρ : Environment α) : List Named → Except EvalError (List α)
  | [] => return []
  | t :: rest => do
    let x ← t.elementOf (← evaluate M ρ t)
    return x :: (← evaluateAll M ρ rest)

end

end Named

/-! ## Names, distances and elements -/

namespace Environment

def inside (ρ : Environment α) : List String → List α → Environment α
  | name :: scope, x :: frames => Function.update (inside ρ scope frames) name (some (.element x))
  | _, _ => ρ

theorem inside_nil (ρ : Environment α) (frames : List α) : inside ρ [] frames = ρ := by
  cases frames <;> rfl

end Environment

namespace Reference

theorem resolve_ofName (v : Assignment α) (token : Token) {scope : List String} {frames : List α}
    (h : scope.length = frames.length) :
    (ofName scope token.text).resolve v frames token =
      match v.environment.inside scope frames token.text with
      | some value => .ok value
      | none => .error (.unboundVariable token.text) := by
  induction scope generalizing frames with
  | nil =>
    rw [ofName_of_not_mem List.not_mem_nil, Environment.inside_nil, Assignment.environment,
      ← NameTable.find?_eq_lookup]
    rfl
  | cons name scope ih =>
    cases frames with
    | nil => simp at h
    | cons x frames =>
      have inner := ih (Nat.succ.inj h)
      rw [Environment.inside]
      by_cases same : token.text = name
      · rw [same, ofName_cons_self, Function.update_self]
        rfl
      · rw [Function.update_of_ne same, ← inner]
        by_cases inScope : token.text ∈ scope
        · have within : scope.idxOf token.text < frames.length := by
            rw [← Nat.succ.inj h]
            exact List.idxOf_lt_length_of_mem inScope
          simp [ofName, inScope, List.idxOf_cons_ne _ (Ne.symm same), resolve,
            List.getElem?_eq_getElem within]
        · simp [ofName, inScope, same, resolve]

end Reference

namespace Expr

theorem needsBrackets_unbound (e : Expr) (place : Place) :
    e.unbound.build.needsBrackets place = e.needsBrackets place := by
  cases e <;> rfl

theorem print_unbound (e : Expr) : e.unbound.build.print = e.print := by
  induction e with
  | var token reference => rfl
  | app kind head arguments ih =>
    simp only [unbound, Named.build, print, unboundAll_eq, Named.buildAll_eq]
    congr 2
    refine printAll_congr ?_
    rw [List.map_map, List.map_map]
    refine List.map_congr_left fun e member => ?_
    rw [Function.comp_apply, Function.comp_apply, needsBrackets_unbound, ih e member]
  | connect op token left right ihLeft ihRight =>
    simp only [unbound, Named.build, print, needsBrackets_unbound, ihLeft, ihRight]
  | compare op token left right ihLeft ihRight =>
    simp only [unbound, Named.build, print, needsBrackets_unbound, ihLeft, ihRight]
  | neg token operand ih => simp only [unbound, Named.build, print, needsBrackets_unbound, ih]
  | quant quantifier token bound body ih =>
    simp only [unbound, Named.build, quantify, print, print_bind, ih]

end Expr

namespace Value

theorem asTruth_eq_truthOf (e : Expr) (value : Value α) :
    value.asTruth e = e.unbound.truthOf value := by
  cases value with
  | element x => rw [asTruth, Named.truthOf, Expr.print_unbound]
  | truth b => rfl

theorem asElement_eq_elementOf (e : Expr) (value : Value α) :
    value.asElement e = e.unbound.elementOf value := by
  cases value with
  | element x => rfl
  | truth b => rw [asElement, Named.elementOf, Expr.print_unbound]

end Value

namespace Expr

variable [BEq α]

theorem outcome_evaluateAll_of_forall (M : Model α) (v : Assignment α) (frames : List α)
    (ρ : Environment α) (arguments : List Expr)
    (h : ∀ e ∈ arguments, (e.evaluate M v frames).outcome = e.unbound.evaluate M ρ) :
    (evaluateAll M v frames arguments).outcome =
      Named.evaluateAll M ρ (arguments.map unbound) := by
  induction arguments with
  | nil =>
    rw [outcome_evaluateAll_nil]
    rfl
  | cons e rest ih =>
    rw [List.forall_mem_cons] at h
    rw [outcome_evaluateAll_cons, List.map_cons, Named.evaluateAll, h.1, ih h.2]
    simp only [Value.asElement_eq_elementOf]

/-- Inside of quantifiers that bind the names of `scope`, with the elements `frames`, a resolved
tree comes to what the tree by names comes to in the environment changed at these names. -/
theorem outcome_evaluate_of_resolved (M : Model α) (v : Assignment α) (e : Expr)
    {scope : List String} {frames : List α} (balanced : scope.length = frames.length)
    (resolved : e.Resolved scope) : (e.evaluate M v frames).outcome =
      e.unbound.evaluate M (v.environment.inside scope frames) := by
  induction e generalizing scope frames with
  | var token reference =>
    obtain rfl := resolved_var.mp resolved
    rw [outcome_evaluate_var, Reference.resolve_ofName v token balanced, unbound, Named.evaluate]
  | app kind head arguments ih =>
    rw [resolved_app] at resolved
    have operands := outcome_evaluateAll_of_forall M v frames (v.environment.inside scope frames)
      arguments fun e member => ih e member balanced (resolved e member)
    rw [outcome_evaluate_app, unbound, Named.evaluate, unboundAll_eq, operands]
    exact bind_congr fun elements => M.applyHead_eq_consult kind head.text elements
  | connect op token left right ihLeft ihRight =>
    rw [resolved_connect] at resolved
    rw [outcome_evaluate_connect, unbound, Named.evaluate, ihLeft balanced resolved.1,
      ihRight balanced resolved.2]
    simp only [Value.asTruth_eq_truthOf, Connective.apply_eq_decide]
  | compare op token left right ihLeft ihRight =>
    rw [resolved_compare] at resolved
    rw [outcome_evaluate_compare, unbound, Named.evaluate, ihLeft balanced resolved.1,
      ihRight balanced resolved.2]
    simp only [Comparison.apply_eq_decide]
  | neg token operand ih =>
    rw [outcome_evaluate_neg, unbound, Named.evaluate, ih balanced resolved]
    simp only [Value.asTruth_eq_truthOf, decide_not, Bool.decide_eq_true]
  | quant quantifier token bound body ih =>
    have instances : ∀ x, (body.evaluate M v (x :: frames)).outcome =
        body.unbound.evaluate M (Function.update (v.environment.inside scope frames) bound.text
          (some (.element x))) := fun x => by
      have balancedInside : (bound.text :: scope).length = (x :: frames).length :=
        congrArg Nat.succ balanced
      exact ih balancedInside (resolved_quant.mp resolved)
    rw [outcome_evaluate_quant, unbound, Named.evaluate, Quantifier.search_eq_testAll]
    simp only [instances, Value.asTruth_eq_truthOf]

end Expr

namespace Named

/-! ## No reference dangles -/

/-- The result is a value or an error of another kind. -/
def NoneDangles {β : Type} (result : Except EvalError β) : Prop :=
  ∀ name distance, result ≠ .error (.danglingReference name distance)

theorem NoneDangles.ok {β : Type} (value : β) : NoneDangles (.ok value) :=
  fun _ _ h => nomatch h

theorem NoneDangles.bind {β γ : Type} {result : Except EvalError β}
    {next : β → Except EvalError γ} (h : NoneDangles result) (hnext : ∀ x, NoneDangles (next x)) :
    NoneDangles (result >>= next) := by
  cases result with
  | error error => exact fun name distance eq => h name distance (congrArg _ (Except.error.inj eq))
  | ok value => exact hnext value

theorem NoneDangles.truthOf (t : Named) (value : Value α) : NoneDangles (t.truthOf value) := by
  cases value <;> exact fun _ _ h => nomatch h

theorem NoneDangles.elementOf (t : Named) (value : Value α) :
    NoneDangles (t.elementOf value) := by
  cases value <;> exact fun _ _ h => nomatch h

theorem NoneDangles.testAll (quantifier : Quantifier) {test : α → Except EvalError Bool}
    (h : ∀ x, NoneDangles (test x)) (elements : List α) :
    NoneDangles (quantifier.testAll elements test) := by
  rw [← Quantifier.search_eq_testAll]
  induction elements with
  | nil => exact .ok _
  | cons x rest ih =>
    refine .bind (h x) fun holds => ?_
    split
    · exact ih
    · exact .ok _

theorem NoneDangles.ask {β : Type} (kind : HeadKind) (name : String)
    (table : NameTable (Operation α β)) (arguments : List α) :
    NoneDangles (Operation.ask kind name table arguments) := by
  intro _ _ h
  unfold Operation.ask at h
  repeat' split at h
  all_goals cases h

theorem NoneDangles.consult (M : Model α) (kind : HeadKind) (name : String)
    (arguments : List α) : NoneDangles (M.consult kind name arguments) := by
  cases kind with
  | function => exact .bind (.ask _ _ _ _) fun _ => .ok _
  | predicate => exact .bind (.ask _ _ _ _) fun _ => .ok _

variable [BEq α]

theorem NoneDangles.evaluateAll {M : Model α} {ρ : Environment α} {arguments : List Named}
    (h : ∀ t ∈ arguments, NoneDangles (t.evaluate M ρ)) :
    NoneDangles (Named.evaluateAll M ρ arguments) := by
  induction arguments with
  | nil => exact .ok _
  | cons t rest ih =>
    rw [List.forall_mem_cons] at h
    exact .bind h.1 fun _ => .bind (.elementOf _ _) fun _ => .bind (ih h.2) fun _ => .ok _

theorem NoneDangles.evaluate (M : Model α) (ρ : Environment α) (t : Named) :
    NoneDangles (t.evaluate M ρ) := by
  induction t generalizing ρ with
  | var token =>
    rw [Named.evaluate]
    split <;> exact fun _ _ h => nomatch h
  | app kind head arguments ih =>
    exact .bind (.evaluateAll fun t member => ih t member ρ) fun _ => .consult M kind head.text _
  | connect op token left right ihLeft ihRight =>
    exact .bind (ihLeft ρ) fun _ => .bind (.truthOf _ _) fun _ =>
      .bind (ihRight ρ) fun _ => .bind (.truthOf _ _) fun _ => .ok _
  | compare op token left right ihLeft ihRight =>
    exact .bind (ihLeft ρ) fun _ => .bind (ihRight ρ) fun _ => .ok _
  | neg token operand ih => exact .bind (ih ρ) fun _ => .bind (.truthOf _ _) fun _ => .ok _
  | quant quantifier token bound body ih =>
    exact .bind (.testAll quantifier (fun _ => .bind (ih _) (.truthOf _)) M.domain) fun _ => .ok _

/-! ## Whole trees -/

/-- The expression built from a tree by names comes to what the tree comes to. No reference in it
dangles, and a quantifier none of whose instances fails comes to whether all of them hold, or
whether one of them does. -/
theorem outcome_value_build (M : Model α) (v : Assignment α) (t : Named) :
    (t.build.value M v).outcome = t.evaluate M v.environment ∧
      (∀ name distance, (t.build.value M v).outcome ≠ .error (.danglingReference name distance)) ∧
      ∀ quantifier token bound (holds : α → Bool),
        (∀ x ∈ M.domain,
          t.evaluate M (Function.update v.environment bound.text (some (.element x))) =
            .ok (.truth (holds x))) →
          ((Named.quant quantifier token bound t).build.value M v).outcome =
            .ok (.truth (decide (quantifier.Holds M.domain fun x => holds x))) := by
  have agreement : ∀ t : Named, (t.build.value M v).outcome = t.evaluate M v.environment := by
    intro t
    rw [Expr.value, Expr.outcome_evaluate_of_resolved M v t.build rfl t.build_resolved,
      unbound_build, Environment.inside_nil]
  refine ⟨agreement t, ?_, ?_⟩
  · rw [agreement t]
    exact NoneDangles.evaluate M v.environment t
  · intro quantifier token bound holds instances
    have tested : quantifier.testAll M.domain (fun x => do
        t.truthOf (← t.evaluate M
          (Function.update v.environment bound.text (some (.element x))))) =
        .ok (quantifier.combine holds M.domain) := by
      rw [← Quantifier.search_eq_testAll]
      exact quantifier.search_eq_of_forall_ok fun x member => by
        rw [instances x member]
        rfl
    rw [agreement, Named.evaluate, tested, ← Quantifier.combine_eq_decide]
    rfl

/-- The tree of `(exists x. x == y) ^ ~(x == y)`, with two different variables `x`. -/
def shadowing : Named :=
  let equation := .compare .equal (.ofSymbol .equal) (.var (.ofName "x")) (.var (.ofName "y"))
  .connect .and (.ofSymbol .and)
    (.quant .existential (.ofSymbol .forSome) (.ofName "x") equation)
    (.neg (.ofSymbol .not) equation)

/-- Over 0 and 1, with 1 for `y`, the tree holds for 0 only, whatever is assigned to `x`. A true
operand on the left does not spare the right one. -/
theorem outcome_value_build_shadowing :
    ((Named.quant .universal (.ofSymbol .forAll) (.ofName "x") shadowing).build.value
        (Model.ofDomain [0, 1]) (.ofList [("x", .element 7), ("y", .element 1)])).outcome =
      .ok (.truth false) ∧
    ((Named.quant .existential (.ofSymbol .forSome) (.ofName "x") shadowing).build.value
        (Model.ofDomain [0, 1]) (.ofList [("x", .element 7), ("y", .element 1)])).outcome =
      .ok (.truth true) ∧
    ((Named.connect .or (.ofSymbol .or) shadowing (.var (.ofName "z"))).build.value
        (Model.ofDomain [0, 1]) (.ofList [("x", .element 7), ("y", .element 1)])).outcome =
      .error (.unboundVariable "z") := by
  obtain ⟨-, -, quantified⟩ := outcome_value_build (Model.ofDomain [0, 1])
    (.ofList [("x", .element 7), ("y", .element 1)]) shadowing
  obtain ⟨unassigned, -, -⟩ := outcome_value_build (Model.ofDomain [0, 1])
    (.ofList [("x", .element 7), ("y", .element 1)])
    (.connect .or (.ofSymbol .or) shadowing (.var (.ofName "z")))
  refine ⟨quantified .universal (.ofSymbol .forAll) (.ofName "x") (· == 0) fun x member => ?_,
    quantified .existential (.ofSymbol .forSome) (.ofName "x") (· == 0) fun x member => ?_,
    unassigned⟩
  · rcases List.mem_pair.mp member with rfl | rfl <;> rfl
  · rcases List.mem_pair.mp member with rfl | rfl <;> rfl

end Named

end PredicateCalculus
