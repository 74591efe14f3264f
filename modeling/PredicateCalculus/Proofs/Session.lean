import PredicateCalculus.Proofs.Formula

/-! # Calls that share a signature

Any number of texts may be offered for acceptance one after the other, with a signature that the
calls share. A call that fails leaves the signature as it was, and one that succeeds adds to it what
it used. So the signature only grows, and what was accepted once is accepted ever after.

* `Call`, `Signature.after`: a text with its options, and the signature after calls in order.
* `Formula.signature_accept_of_error`, `Formula.keeps_accept`, `Formula.signature_accept_of_closed`,
  `Formula.accept_again`: what a single call does.
* `Signature.keeps_after`: what any number of calls does.
* `Formula.accept_shared`: one call among others.
-/

set_option autoImplicit false

namespace PredicateCalculus

structure Call where
  options : FormulaOptions
  source : String

namespace Signature

def after (σ : Signature) (calls : List Call) : Signature :=
  calls.foldl (fun τ call => (Formula.accept call.options τ call.source).signature) σ

theorem after_append (σ : Signature) (earlier later : List Call) :
    σ.after (earlier ++ later) = (σ.after earlier).after later :=
  List.foldl_append

/-! ## Uses that are given already -/

/-- There is nothing to learn, and nothing to refuse. -/
theorem survey_of_gives {σ : Signature} {e : Expr} (h : ∀ use ∈ e.uses, σ.Gives use)
    (policy : Policy) : (σ.survey policy e).result = .ok σ :=
  absorb_eq_ok_iff.mpr ⟨extends_self_iff.mpr h, fun _ => rfl⟩

end Signature

theorem Expr.Propositional.uses_eq_nil {e : Expr} (h : e.Propositional) : e.uses = [] := by
  induction h with
  | var token reference => rfl
  | connect op token left right _ _ first second =>
    rw [uses_eq, children, List.flatMap_cons, List.flatMap_cons, first, second]
    rfl
  | neg token operand _ inner =>
    rw [uses_eq, children, List.flatMap_cons, inner]
    rfl

/-! ## One call -/

namespace Formula

variable {options : FormulaOptions} {σ τ : Signature} {source : String} {formula : Formula}

theorem signature_accept_of_error {rejection : Rejection}
    (h : (accept options σ source).result = .error rejection) :
    (accept options σ source).signature = σ := by
  rcases accept_cases options σ source with ⟨-, -, unchanged⟩ | ⟨e, result, -⟩
  · exact unchanged
  · rw [h] at result
    cases result

theorem keeps_accept (options : FormulaOptions) (σ : Signature) (source : String) :
    σ.Keeps (accept options σ source).signature := by
  rcases accept_cases options σ source with ⟨-, -, unchanged⟩ | ⟨e, -, -, -, surveyed⟩
  · rw [unchanged]
    exact .refl σ
  · exact (Signature.survey_spec surveyed).1

/-- A call learns only from first-order formulas, and only with the policy of learning. -/
theorem signature_accept_of_closed (source : String) (σ : Signature)
    (h : options.policy = .refuse ∨ options.firstOrder = false) :
    (accept options σ source).signature = σ := by
  rcases accept_cases options σ source with ⟨-, -, unchanged⟩ | ⟨e, -, -, sorted, surveyed⟩
  · exact unchanged
  · rcases h with refuses | propositional
    · exact (Signature.survey_spec surveyed).2.2 refuses
    · -- Whatever the policy, a propositional formula has no uses that could be learned.
      rw [propositional, Expr.formulaError_eq_none_iff_propositional] at sorted
      have given : ∀ use ∈ e.uses, σ.Gives use := by
        rw [sorted.uses_eq_nil]
        intro use member
        exact absurd member List.not_mem_nil
      rw [Signature.survey_of_gives given] at surveyed
      exact (Except.ok.inj surveyed).symm

/-- What was accepted is accepted again when the signature has kept what was used. -/
theorem accept_again (h : (accept options σ source).result = .ok formula)
    (keeps : (accept options σ source).signature.Keeps τ) (policy : Policy) :
    (accept ⟨options.firstOrder, policy⟩ τ source).result = .ok formula ∧
      (accept ⟨options.firstOrder, policy⟩ τ source).signature = τ := by
  obtain ⟨_, result, -⟩ | ⟨e, result, parsed, sorted, surveyed⟩ :=
    accept_cases options σ source
  · rw [h] at result
    cases result
  · obtain rfl := Except.ok.inj (h.symm.trans result)
    have gives := (Signature.survey_spec surveyed).2.1
    have given : ∀ use ∈ e.uses, τ.Gives use := by
      intro use member
      exact keeps.gives (gives use member)
    exact accept_of_passed parsed sorted (Signature.survey_of_gives given policy)

end Formula

/-! ## Any number of calls -/

theorem Signature.keeps_after (σ : Signature) (calls : List Call) : σ.Keeps (σ.after calls) := by
  induction calls generalizing σ with
  | nil => exact .refl σ
  | cons call rest ih =>
    have first : σ.Keeps (Formula.accept call.options σ call.source).signature :=
      Formula.keeps_accept call.options σ call.source
    exact first.trans (ih _)

namespace Formula

/-- One call among others. If it fails, the signature stays as it was. In any case the signature
keeps what it gave before, now and after all later calls, and it stays the same for strict and for
propositional calls. If the call succeeds, the same text is accepted with the same result after all
later calls, under both policies, and there is nothing more to learn from it. -/
theorem accept_shared (σ : Signature) (earlier later : List Call) (call : Call) :
    let before := σ.after earlier
    let acceptance := accept call.options before call.source
    let now := σ.after (earlier ++ call :: later)
    (∀ rejection, acceptance.result = .error rejection → acceptance.signature = before) ∧
      before.Keeps now ∧
      (call.options.policy = .refuse ∨ call.options.firstOrder = false →
        acceptance.signature = before) ∧
      ∀ formula, acceptance.result = .ok formula → ∀ policy,
        let again := accept ⟨call.options.firstOrder, policy⟩ now call.source
        again.result = .ok formula ∧ again.signature = now := by
  intro before acceptance now
  have now_eq : now = acceptance.signature.after later := Signature.after_append σ earlier _
  have grows : acceptance.signature.Keeps now := by
    rw [now_eq]
    exact acceptance.signature.keeps_after later
  refine ⟨fun rejection => signature_accept_of_error, ?_, signature_accept_of_closed _ _, ?_⟩
  · exact (keeps_accept call.options before call.source).trans grows
  · intro formula accepted policy
    exact accept_again accepted grows policy

/-- `P(x)` is learned. The call that follows learns `Q` on its way to the wrong use of `P`, and
gives it up again; after it `P(x)` is accepted without learning. -/
theorem accept_shared_of_learned :
    ∃ formula, (accept .default .empty "P(x)").result = .ok formula ∧
      let before := Signature.empty.after [⟨.default, "P(x)"⟩]
      let now := Signature.empty.after [⟨.default, "P(x)"⟩, ⟨.default, "Q(x) ^ P(x, x)"⟩]
      (∃ rejection, (accept .default before "Q(x) ^ P(x, x)").result = .error rejection) ∧
        now = before ∧ (accept ⟨true, .refuse⟩ now "P(x)").result = .ok formula := by
  obtain ⟨formula, learned, -⟩ := Parser.exists_ok_of_any
    (accept .default .empty "P(x)").result (fun _ => true) (by decide +kernel)
  have fails : (accept .default (Signature.empty.after [⟨.default, "P(x)"⟩])
      "Q(x) ^ P(x, x)").result.toOption.isNone = true := by decide +kernel
  cases second : (accept .default (Signature.empty.after [⟨.default, "P(x)"⟩])
    "Q(x) ^ P(x, x)").result with
  | ok accepted =>
    rw [second] at fails
    cases fails
  | error rejection =>
    obtain ⟨unchanged, -⟩ :=
      accept_shared .empty [⟨.default, "P(x)"⟩] [] ⟨.default, "Q(x) ^ P(x, x)"⟩
    obtain ⟨-, -, -, again⟩ :=
      accept_shared .empty [] [⟨.default, "Q(x) ^ P(x, x)"⟩] ⟨.default, "P(x)"⟩
    exact ⟨formula, learned, ⟨rejection, second⟩, unchanged rejection second,
      (again formula learned .refuse).1⟩

end Formula

end PredicateCalculus
