import PredicateCalculus.Formula
import PredicateCalculus.Proofs.Evaluation.Safety
import PredicateCalculus.Proofs.RoundTrip.Parse
import PredicateCalculus.Proofs.Signature.Extension

/-! # Accepted formulas

What was accepted has passed every step: it was read, its names are resolved, it is well sorted, and
its uses agree with the signature. Together these rule out the errors of evaluation.

* `Formula.accept_cases`: a text is rejected, or it passes every step.
* `Formula.accepted`: the steps that an accepted formula has passed.
* `Formula.evaluate_accepted`: what its evaluation comes to.
-/

set_option autoImplicit false

namespace PredicateCalculus.Formula

section

variable {options : FormulaOptions} {σ τ : Signature} {source : String} {formula : Formula}

theorem accept_of_passed {e : Expr} (parsed : Expr.parse source = .ok e)
    (noError : e.formulaError options.firstOrder = none)
    (surveyed : (σ.survey options.policy e).result = .ok τ) :
    (accept options σ source).result = .ok ⟨source, e⟩ ∧
      (accept options σ source).signature = τ := by
  simp only [accept, parsed, acceptExpr, noError, surveyed]
  exact ⟨trivial, trivial⟩

/-- A text is rejected and the signature stays as it was, or the text passes every step. -/
theorem accept_cases (options : FormulaOptions) (σ : Signature) (source : String) :
    (∃ rejection, (accept options σ source).result = .error rejection ∧
      (accept options σ source).signature = σ) ∨
    ∃ e, (accept options σ source).result = .ok ⟨source, e⟩ ∧ Expr.parse source = .ok e ∧
      e.formulaError options.firstOrder = none ∧
      (σ.survey options.policy e).result = .ok (accept options σ source).signature := by
  cases parsed : Expr.parse source with
  | error error =>
    refine .inl ⟨.parse error, ?_⟩
    simp only [accept, parsed]
    exact ⟨trivial, trivial⟩
  | ok e =>
    cases sorted : e.formulaError options.firstOrder with
    | some error =>
      refine .inl ⟨.sorting error, ?_⟩
      simp only [accept, parsed, acceptExpr, sorted]
      exact ⟨trivial, trivial⟩
    | none =>
      cases surveyed : (σ.survey options.policy e).result with
      | error error =>
        refine .inl ⟨.signature error, ?_⟩
        simp only [accept, parsed, acceptExpr, sorted, surveyed]
        exact ⟨trivial, trivial⟩
      | ok τ =>
        obtain ⟨result, signature⟩ := accept_of_passed parsed sorted surveyed
        rw [signature]
        exact .inr ⟨e, result, rfl, sorted, surveyed⟩

theorem accepted (h : (accept options σ source).result = .ok formula) :
    Expr.parse source = .ok formula.expr ∧
      formula.expr.formulaError options.firstOrder = none ∧
      (σ.survey options.policy formula.expr).result = .ok (accept options σ source).signature := by
  obtain ⟨_, failed, -⟩ | ⟨e, result, parsed, sorted, surveyed⟩ := accept_cases options σ source
  · rw [h] at failed
    cases failed
  · obtain rfl := Except.ok.inj (h.symm.trans result)
    exact ⟨parsed, sorted, surveyed⟩

end

section

variable {α : Type} {M : Model α} {source : String} {formula : Formula}

/-- With the policy of refusing, the model has all operations that are used. -/
theorem implemented (h : (accept ⟨true, .refuse⟩ M.signature source).result = .ok formula)
    {use : Use} (member : use ∈ formula.expr.uses) : ¬M.Lacks use.kind use.name := by
  obtain ⟨-, -, surveyed⟩ := accepted h
  obtain ⟨-, gives, refuses⟩ := Signature.survey_spec surveyed
  have given : M.signature.arity use.kind use.name = some use.arity := by
    rw [← refuses rfl]
    exact gives use member
  intro lacks
  rw [M.arity_signature, Model.arity?_eq_none_iff.mpr lacks] at given
  cases given

variable [BEq α] {v : Assignment α}

theorem evaluate_eq (M : Model α) (v : Assignment α) (formula : Formula) :
    formula.evaluate M v = (formula.expr.evaluate M v []).outcome >>= Value.asTruth formula.expr :=
  Expr.outcome_truth M v formula.expr

theorem yields_of_accept {policy : Policy}
    (h : (accept ⟨true, policy⟩ M.signature source).result = .ok formula)
    (assigned : ∀ name ∈ formula.expr.freeVariables, ∃ x, v.find? name = some (.element x)) :
    M.Yields formula.expr.uses (fun _ => True) (formula.evaluate M v) := by
  obtain ⟨parsed, noError, surveyed⟩ := accepted h
  obtain ⟨keeps, gives, -⟩ := Signature.survey_spec surveyed
  have suits : ∀ use ∈ formula.expr.uses, M.Suits use := by
    intro use member n given
    have found := (keeps use.kind use.name n given).symm.trans (gives use member)
    exact Option.some.inj found
  have covered : formula.expr.Covered v formula.expr.uses [] :=
    ⟨Expr.resolved_of_parse parsed, fun name free => assigned name (List.mem_eraseDups.mpr free),
      fun use member => member⟩
  have result : M.Yields formula.expr.uses (·.category = .formula)
      (formula.expr.evaluate M v []).outcome :=
    covered.yields suits (Expr.formulaError_eq_none_iff_sorted.mp noError) rfl
  rw [evaluate_eq]
  refine result.bind fun value isTruth => ?_
  obtain ⟨b, eq⟩ := Value.asTruth_of_category isTruth formula.expr
  rw [eq]
  exact trivial

theorem evaluate_propositional {policy : Policy} {σ : Signature}
    (h : (accept ⟨false, policy⟩ σ source).result = .ok formula)
    (assigned : ∀ name ∈ formula.expr.freeVariables, ∃ b, v.find? name = some (.truth b)) :
    ∃ b, formula.evaluate M v = .ok b := by
  obtain ⟨parsed, noError, -⟩ := accepted h
  have propositional := Expr.formulaError_eq_none_iff_propositional.mp noError
  obtain ⟨b, eq⟩ := propositional.outcome_evaluate (M := M) (Expr.resolved_of_parse parsed)
    fun name free => assigned name (List.mem_eraseDups.mpr free)
  exact ⟨b, by rw [evaluate_eq, eq]; rfl⟩

end

/-- Accepted formulas do not go wrong. With the arities of the model and the policy of refusing, a
first-order formula has a truth value whenever its free variables stand for elements. With the
policy of learning, only an operation that the model lacks can prevent it. A propositional formula
has a truth value whenever its free variables have. -/
theorem evaluate_accepted {α : Type} [BEq α] (M : Model α) (v : Assignment α) (source : String)
    (formula : Formula) :
    ((accept ⟨true, .refuse⟩ M.signature source).result = .ok formula →
      (∀ name ∈ formula.expr.freeVariables, ∃ x, v.find? name = some (.element x)) →
        ∃ b, formula.evaluate M v = .ok b) ∧
    ((accept ⟨true, .learn⟩ M.signature source).result = .ok formula →
      (∀ name ∈ formula.expr.freeVariables, ∃ x, v.find? name = some (.element x)) →
        ∀ error, formula.evaluate M v = .error error →
          ∃ kind name, error = .missingOperation kind name ∧ M.Lacks kind name) ∧
    (∀ policy σ, (accept ⟨false, policy⟩ σ source).result = .ok formula →
      (∀ name ∈ formula.expr.freeVariables, ∃ b, v.find? name = some (.truth b)) →
        ∃ b, formula.evaluate M v = .ok b) := by
  refine ⟨fun h assigned => ?_, fun h assigned error failed => ?_, fun policy σ => ?_⟩
  · have yields := yields_of_accept h assigned
    cases result : formula.evaluate M v with
    | ok b => exact ⟨b, rfl⟩
    | error error =>
      rw [result] at yields
      obtain ⟨use, member, -, lacks⟩ := yields
      exact absurd lacks (implemented h member)
  · have yields := yields_of_accept h assigned
    rw [failed] at yields
    obtain ⟨use, -, missing, lacks⟩ := yields
    exact ⟨use.kind, use.name, missing, lacks⟩
  · exact evaluate_propositional

/-- In a model with one predicate `P`, the formula `P(x)` has a value, `Q(x)` has none for want of
`Q`, and `x -> x` has one when `x` stands for a truth value. -/
theorem evaluate_accepted_of_one_predicate :
    ∃ M : Model Nat,
      (∃ v formula, (accept ⟨true, .refuse⟩ M.signature "P(x)").result = .ok formula ∧
        ∃ b, formula.evaluate M v = .ok b) ∧
      (∃ v formula, (accept ⟨true, .learn⟩ M.signature "Q(x)").result = .ok formula ∧
        ∃ kind name, formula.evaluate M v = .error (.missingOperation kind name) ∧
          M.Lacks kind name) ∧
      ∃ v formula, (accept ⟨false, .learn⟩ .empty "x -> x").result = .ok formula ∧
        ∃ b, formula.evaluate M v = .ok b := by
  let M : Model Nat := (Model.ofDomain [0]).withPredicate "P" ⟨some 1, fun _ => true⟩
  let v : Assignment Nat := NameTable.empty.insert "x" (.element 0)
  let u : Assignment Nat := NameTable.empty.insert "x" (.truth true)
  obtain ⟨first, ok, free⟩ := Parser.exists_ok_of_any
    (accept ⟨true, .refuse⟩ M.signature "P(x)").result
    (fun formula => formula.expr.freeVariables == ["x"]) (by decide +kernel)
  obtain ⟨second, ok', fails⟩ := Parser.exists_ok_of_any
    (accept ⟨true, .learn⟩ M.signature "Q(x)").result
    (fun formula =>
      formula.expr.freeVariables == ["x"] && (formula.evaluate M v).toOption.isNone)
    (by decide +kernel)
  obtain ⟨third, ok'', free''⟩ := Parser.exists_ok_of_any
    (accept ⟨false, .learn⟩ .empty "x -> x").result
    (fun formula => formula.expr.freeVariables == ["x"]) (by decide +kernel)
  rw [Bool.and_eq_true] at fails
  obtain ⟨free', noValue⟩ := fails
  rw [beq_iff_eq] at free free' free''
  refine ⟨M, ⟨v, first, ok, (evaluate_accepted M v "P(x)" first).1 ok ?_⟩,
    ⟨v, second, ok', ?_⟩, u, third, ok'', (evaluate_accepted M u "x -> x" third).2.2 _ _ ok'' ?_⟩
  · rw [free]
    exact fun name member => ⟨0, by rw [List.mem_singleton.mp member]; rfl⟩
  · cases failed : second.evaluate M v with
    | ok b =>
      rw [failed] at noValue
      cases noValue
    | error error =>
      have assigned : ∀ name ∈ second.expr.freeVariables, ∃ x, v.find? name = some (.element x) := by
        rw [free']
        exact fun name member => ⟨0, by rw [List.mem_singleton.mp member]; rfl⟩
      obtain ⟨kind, name, rfl, lacks⟩ :=
        (evaluate_accepted M v "Q(x)" second).2.1 ok' assigned error failed
      exact ⟨kind, name, rfl, lacks⟩
  · rw [free'']
    exact fun name member => ⟨true, by rw [List.mem_singleton.mp member]; rfl⟩

end PredicateCalculus.Formula
