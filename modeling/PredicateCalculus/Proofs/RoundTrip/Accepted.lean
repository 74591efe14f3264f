import PredicateCalculus.Proofs.Equality.Congruence
import PredicateCalculus.Proofs.Signature.Json
import PredicateCalculus.Proofs.Respelling
import PredicateCalculus.Proofs.RoundTrip.Minimal
import PredicateCalculus.Proofs.Session

/-! # What is accepted is accepted again as it is written

The written form of an accepted formula is accepted, too, with the signature from afterwards, and
there is nothing to learn from it. That signature can be written and read back, as no application
has more arguments than its text has characters.

* `Expr.parse_print_of_parse`: the written form of what was read is read as an equal tree.
* `Formula.accept_print`: the written form of an accepted formula is accepted.
* `Expr.arity_le_of_parse`: the arities of the uses in a text.
* `Formula.fits_accept`: the signature after acceptance can be written and read back.
-/

set_option autoImplicit false

namespace PredicateCalculus

/-! ## The written form -/

theorem Expr.parse_print_of_parse {source : String} {e : Expr} (h : parse source = .ok e) :
    ∃ e', parse e.print = .ok e' ∧ (e' == e) = true ∧ e'.print = e.print := by
  obtain ⟨e', parsed, same⟩ := (built_of_parse h).usual.written_parse_print
  have equal : (e' == e) = true :=
    (beq_iff_resolved (resolved_of_parse parsed) same).mpr (resolved_of_parse h)
  have prints : e'.print = e.print := by rw [← e'.print_written, same, e.print_written]
  exact ⟨e', parsed, equal, prints⟩

theorem Formula.accept_print {options : FormulaOptions} {σ : Signature} {source : String}
    {formula : Formula} (h : (accept options σ source).result = .ok formula) (policy : Policy) :
    let τ := (accept options σ source).signature
    let again := accept ⟨options.firstOrder, policy⟩ τ formula.expr.print
    ∃ e, again.result = .ok ⟨formula.expr.print, e⟩ ∧ again.signature = τ ∧
      (e == formula.expr) = true ∧ e.print = formula.expr.print := by
  intro τ again
  obtain ⟨_, result, -⟩ | ⟨e, result, parsed, sorted, surveyed⟩ := accept_cases options σ source
  · rw [h] at result
    cases result
  · obtain rfl := Except.ok.inj (h.symm.trans result)
    obtain ⟨e', parsed', equal, prints⟩ := Expr.parse_print_of_parse parsed
    have alike := Expr.beq_iff_alike.mp equal
    have sorted' : e'.formulaError options.firstOrder = none := by
      have related := alike.formulaError options.firstOrder
      rw [sorted] at related
      cases found : e'.formulaError options.firstOrder with
      | none => rfl
      | some error =>
        rw [found] at related
        cases related
    have given : ∀ use ∈ e'.uses, τ.Gives use := by
      rw [alike.uses_eq]
      exact (Signature.survey_spec surveyed).2.1
    have passed : again.result = .ok ⟨e.print, e'⟩ ∧ again.signature = τ :=
      accept_of_passed parsed' sorted' (Signature.survey_of_gives given policy)
    exact ⟨e', passed.1, passed.2, equal, prints⟩

/-! ## Arities -/

namespace Expr

theorem length_le_operandKinds (e : Expr) (place : PredicateCalculus.Place) :
    e.spelling.length ≤ (e.operandKinds place).length := by
  rw [operandKinds]
  cases e.needsBrackets place with
  | false => exact Nat.le_refl _
  | true =>
    simp only [bracketedKinds, if_true, List.length_cons, List.length_append]
    omega

/-- There is a comma between any two arguments. -/
theorem length_le_spellingAll (arguments : List Expr) :
    arguments.length ≤ (spellingAll arguments).length + 1 ∧
      ∀ e ∈ arguments, e.spelling.length ≤ (spellingAll arguments).length := by
  induction arguments with
  | nil => exact ⟨Nat.zero_le _, nofun⟩
  | cons e rest ih =>
    have first := e.length_le_operandKinds .elsewhere
    cases rest with
    | nil => exact ⟨Nat.le_add_left _ _, by simpa [spellingAll, operandKinds] using first⟩
    | cons e' rest =>
      have whole : (spellingAll (e :: e' :: rest)).length =
          (e.operandKinds .elsewhere).length + ((spellingAll (e' :: rest)).length + 1) := by
        rw [spellingAll, List.length_append, List.length_cons]
        · rfl
        · simp
      rw [whole]
      refine ⟨?_, List.forall_mem_cons.mpr ⟨by omega, fun other member => ?_⟩⟩
      · rw [List.length_cons]
        omega
      · have inside := ih.2 other member
        omega

theorem length_le_of_child {e child : Expr} (isChild : child ∈ e.children) :
    child.spelling.length ≤ e.spelling.length := by
  have inside := child.length_le_operandKinds
  cases e with
  | var token reference => cases isChild
  | app kind head arguments =>
    have within := (length_le_spellingAll arguments).2 child isChild
    simp only [spelling, List.length_cons, List.length_append]
    omega
  | connect op token left right =>
    rcases List.mem_pair.mp isChild with rfl | rfl
    · have first := inside (.leftOf op)
      simp only [spelling, operandKinds, List.length_cons, List.length_append] at first ⊢
      omega
    · have second := inside (.rightOf op)
      simp only [spelling, operandKinds, List.length_cons, List.length_append] at second ⊢
      omega
  | compare op token left right =>
    have either := inside .elsewhere
    rcases List.mem_pair.mp isChild with rfl | rfl <;>
    · simp only [spelling, operandKinds, List.length_cons, List.length_append] at either ⊢
      omega
  | neg token operand =>
    have within := inside .elsewhere
    rw [List.mem_singleton.mp isChild] at within ⊢
    exact Nat.le_succ_of_le within
  | quant quantifier token bound body =>
    rw [List.mem_singleton.mp isChild]
    exact Nat.le_add_right _ 3

theorem arity_le_length_spelling {e : Expr} : ∀ use ∈ e.uses, use.arity ≤ e.spelling.length := by
  induction e using childInduction with
  | step e ih =>
    intro use member
    rw [uses_eq] at member
    rcases List.mem_append.mp member with own | inner
    · cases e with
      | app kind head arguments =>
        have commas := (length_le_spellingAll arguments).1
        rw [List.mem_singleton.mp own]
        simp only [spelling, List.length_cons, List.length_append]
        omega
      | _ => cases own
    · obtain ⟨child, isChild, inside⟩ := List.mem_flatMap.mp inner
      exact Nat.le_trans (ih child isChild use inside) (length_le_of_child isChild)

end Expr

theorem Reduces.length_le {ts ts' : List Token} (h : Reduces ts ts') : ts'.length ≤ ts.length := by
  induction h with
  | refl => exact Nat.le_refl _
  | tail _ step ih =>
    obtain ⟨front, opening, inner, closing, back, -, -⟩ := step
    simp only [List.length_append, List.length_cons] at ih ⊢
    omega

theorem Lexer.Decomposes.length_le {before text rest : List Char} {tokens : List Token}
    (h : Decomposes before text tokens rest) : tokens.length ≤ text.length := by
  induction h with
  | rest blanks blank => exact Nat.zero_le _
  | token blanks blank front others ih =>
    have positive := front.length_pos
    rw [← String.length_toList] at positive
    simp only [List.length_cons, List.length_append]
    omega

theorem Lexer.length_tokenize_le {source : String} {ts : List Token}
    (h : tokenize source = .ok ts) : ts.length ≤ source.length :=
  (decomposes_of_tokenize h).length_le

theorem Expr.arity_le_of_parse {source : String} {e : Expr} (h : parse source = .ok e) :
    ∀ use ∈ e.uses, use.arity ≤ source.length := by
  intro use member
  obtain ⟨ts, us, kept, lexed, -, reduces, sameKinds, spelled⟩ := reduces_of_parse h
  calc use.arity
      ≤ e.spelling.length := arity_le_length_spelling use member
    _ = kept.length := by rw [← spelled, ← sameKinds, List.length_map]
    _ ≤ ts.length := reduces.length_le
    _ ≤ source.length := Lexer.length_tokenize_le lexed

/-! ## The signature afterwards -/

namespace Signature

theorem TableFits.insert {table : NameTable Nat} (h : TableFits table) {n : Nat}
    (below : n < arityBound) (name : String) : TableFits (table.insert name n) := by
  intro entry member
  rcases NameTable.mem_place member with rfl | old
  · exact below
  · exact h entry old

theorem Fits.declare {σ : Signature} (h : σ.Fits) {n : Nat} (below : n < arityBound)
    (kind : HeadKind) (name : String) : (σ.declare kind name n).Fits := by
  cases kind with
  | function => exact ⟨h.functions.insert below name, h.predicates⟩
  | predicate => exact ⟨h.functions, h.predicates.insert below name⟩

theorem Fits.run {uses : List Use} {survey : Survey} (h : survey.signature.Fits)
    (below : ∀ use ∈ uses, use.arity < arityBound) (policy : Policy) :
    (uses.foldl (Survey.step policy) survey).signature.Fits := by
  induction uses generalizing survey with
  | nil => exact h
  | cons use rest ih =>
    obtain ⟨first, others⟩ := List.forall_mem_cons.mp below
    refine ih ?_ others
    rcases Survey.step_cases policy survey use with
      ⟨-, same⟩ | ⟨n, -, -, failed⟩ | ⟨-, -, learned⟩ | ⟨-, -, failed⟩
    · rw [same]
      exact h
    · rw [failed]
      exact h
    · rw [learned]
      exact h.declare first use.kind use.name
    · rw [failed]
      exact h

end Signature

theorem Formula.fits_accept {σ : Signature} (fits : σ.Fits) {source : String}
    (inMemory : source.length < Signature.arityBound) (options : FormulaOptions) :
    (accept options σ source).signature.Fits := by
  rcases accept_cases options σ source with ⟨-, -, unchanged⟩ | ⟨e, -, parsed, -, surveyed⟩
  · rw [unchanged]
    exact fits
  · have below : ∀ use ∈ e.uses, use.arity < Signature.arityBound := fun use member =>
      Nat.lt_of_le_of_lt (Expr.arity_le_of_parse parsed use member) inMemory
    have fitsSurvey : (σ.survey options.policy e).signature.Fits := fits.run below options.policy
    unfold Signature.Survey.result at surveyed
    split at surveyed
    · rw [← Except.ok.inj surveyed]
      exact fitsSurvey
    · cases surveyed

end PredicateCalculus
