import PredicateCalculus.Proofs.Equality.Alike
import PredicateCalculus.Proofs.Named
import PredicateCalculus.Proofs.Token.Name

/-! # Equality up to the names of bound variables

Two trees by names are alpha-equivalent when they have the same shape and the same heads, and when
variables in the same place are bound by quantifiers in the same place, or free with the same name.
The names that quantifiers bind do not count otherwise. The expressions that are built from two
trees are equal exactly when the trees are alpha-equivalent.

* `Corresponds`: two names stand for the same variable under paired quantifiers.
* `Named.Alpha`: alpha-equivalence, under paired quantifiers.
* `Named.Regular`: operators are the symbols of their kind, and heads are identifiers.
* `Reference.ofName_eq_iff_corresponds`: the two notions of what a name stands for agree.
* `Named.beq_build_iff_alpha`: equality of what is built.
-/

set_option autoImplicit false

namespace PredicateCalculus

/-- The pairs are the names that the quantifiers around two places bind, innermost first. -/
inductive Corresponds : List (String × String) → String → String → Prop where
  | free (name : String) : Corresponds [] name name
  | here (pairs : List (String × String)) (name name' : String) :
      Corresponds ((name, name') :: pairs) name name'
  | further {pairs : List (String × String)} {bound bound' name name' : String}
      (passes : name ≠ bound) (passes' : name' ≠ bound') (outside : Corresponds pairs name name') :
      Corresponds ((bound, bound') :: pairs) name name'

theorem corresponds_nil_iff {name name' : String} : Corresponds [] name name' ↔ name = name' := by
  constructor
  · rintro ⟨⟩
    rfl
  · rintro rfl
    exact .free name

theorem corresponds_cons_iff {pairs : List (String × String)} {bound bound' name name' : String} :
    Corresponds ((bound, bound') :: pairs) name name' ↔
      name = bound ∧ name' = bound' ∨
        name ≠ bound ∧ name' ≠ bound' ∧ Corresponds pairs name name' := by
  constructor
  · intro h
    cases h with
    | here => exact .inl ⟨rfl, rfl⟩
    | further passes passes' outside => exact .inr ⟨passes, passes', outside⟩
  · rintro (⟨rfl, rfl⟩ | ⟨passes, passes', outside⟩)
    · exact .here pairs name name'
    · exact .further passes passes' outside

namespace Named

inductive Alpha : List (String × String) → Named → Named → Prop where
  | var {pairs : List (String × String)} (token token' : Token)
      (same : Corresponds pairs token.text token'.text) : Alpha pairs (.var token) (.var token')
  | app {pairs : List (String × String)} (kind : HeadKind) (head head' : Token)
      (arguments arguments' : List Named) (heads : head.text = head'.text)
      (lengths : arguments.length = arguments'.length)
      (each : ∀ i (h : i < arguments.length) (h' : i < arguments'.length),
        Alpha pairs arguments[i] arguments'[i]) :
      Alpha pairs (.app kind head arguments) (.app kind head' arguments')
  | connect {pairs : List (String × String)} (op : Connective) (token token' : Token)
      (left left' right right' : Named) (first : Alpha pairs left left')
      (second : Alpha pairs right right') :
      Alpha pairs (.connect op token left right) (.connect op token' left' right')
  | compare {pairs : List (String × String)} (op : Comparison) (token token' : Token)
      (left left' right right' : Named) (first : Alpha pairs left left')
      (second : Alpha pairs right right') :
      Alpha pairs (.compare op token left right) (.compare op token' left' right')
  | neg {pairs : List (String × String)} (token token' : Token) (operand operand' : Named)
      (inner : Alpha pairs operand operand') :
      Alpha pairs (.neg token operand) (.neg token' operand')
  | quant {pairs : List (String × String)} (quantifier : Quantifier)
      (token token' bound bound' : Token) (body body' : Named)
      (inner : Alpha ((bound.text, bound'.text) :: pairs) body body') :
      Alpha pairs (.quant quantifier token bound body) (.quant quantifier token' bound' body')

inductive Regular : Named → Prop where
  | var (token : Token) : Regular (.var token)
  | app (kind : HeadKind) (head : Token) (isIdentifier : head.kind = .identifier head.text)
      (arguments : List Named) (each : ∀ t ∈ arguments, Regular t) :
      Regular (.app kind head arguments)
  | connect (op : Connective) (sign : Mark op.symbol) (left right : Named) (first : Regular left)
      (second : Regular right) : Regular (.connect op sign.token left right)
  | compare (op : Comparison) (sign : Mark op.symbol) (left right : Named) (first : Regular left)
      (second : Regular right) : Regular (.compare op sign.token left right)
  | neg (sign : Mark .not) (operand : Named) (inner : Regular operand) :
      Regular (.neg sign.token operand)
  | quant (quantifier : Quantifier) (sign : Mark quantifier.symbol) (bound : Token) (body : Named)
      (inner : Regular body) : Regular (.quant quantifier sign.token bound body)

end Named

/-! ## What names stand for -/

namespace Reference

/-- The same reference from inside of one more quantifier. -/
def shift : Reference → Reference
  | .free name => .free name
  | .bound distance => .bound (distance + 1)

theorem shift_injective : Function.Injective shift := by
  intro r r' h
  cases r <;> cases r' <;> simp_all [shift]

theorem shift_ne_bound_zero (r : Reference) : r.shift ≠ .bound 0 := by
  cases r <;> simp [shift]

theorem ofName_cons_ne {scope : List String} {bound name : String} (h : name ≠ bound) :
    ofName (bound :: scope) name = (ofName scope name).shift := by
  by_cases inside : name ∈ scope
  · simp [ofName, inside, shift, List.idxOf_cons_ne _ h.symm]
  · simp [ofName, inside, h, shift]

/-- Either both quantifiers bind the names, or none of them does. -/
theorem ofName_cons_eq_iff {scope scope' : List String} {bound bound' name name' : String} :
    ofName (bound :: scope) name = ofName (bound' :: scope') name' ↔
      name = bound ∧ name' = bound' ∨
        name ≠ bound ∧ name' ≠ bound' ∧ ofName scope name = ofName scope' name' := by
  by_cases here : name = bound
  · subst here
    by_cases here' : name' = bound'
    · subst here'
      simp [ofName_cons_self]
    · have differ : Reference.bound 0 ≠ (ofName scope' name').shift := (shift_ne_bound_zero _).symm
      simp [ofName_cons_self, ofName_cons_ne here', here', differ]
  · by_cases here' : name' = bound'
    · subst here'
      simp [ofName_cons_self, ofName_cons_ne here, here, shift_ne_bound_zero]
    · simp [ofName_cons_ne here, ofName_cons_ne here', here, here', shift_injective.eq_iff]

theorem ofName_eq_iff_corresponds {pairs : List (String × String)} {name name' : String} :
    ofName (pairs.map Prod.fst) name = ofName (pairs.map Prod.snd) name' ↔
      Corresponds pairs name name' := by
  induction pairs with
  | nil => simp [ofName, corresponds_nil_iff]
  | cons pair pairs ih =>
    obtain ⟨bound, bound'⟩ := pair
    rw [List.map_cons, List.map_cons, ofName_cons_eq_iff, corresponds_cons_iff, ih]

end Reference

/-! ## Equality under paired quantifiers -/

theorem Mark.kind_eq {s : Symbol} (mark mark' : Mark s) : mark.token.kind = mark'.token.kind :=
  mark.isSymbol.trans mark'.isSymbol.symm

namespace Expr

theorem alpha_unbound_of_alike {e e' : Expr} (h : Alike e e') {pairs : List (String × String)}
    (resolved : e.Resolved (pairs.map Prod.fst)) (resolved' : e'.Resolved (pairs.map Prod.snd)) :
    Named.Alpha pairs e.unbound e'.unbound := by
  induction h generalizing pairs with
  | var token token' reference =>
    rw [resolved_var] at resolved resolved'
    have same := resolved.symm.trans resolved'
    exact .var token token' (Reference.ofName_eq_iff_corresponds.mp same)
  | app kind head head' arguments arguments' heads lengths each ih =>
    rw [resolved_app] at resolved resolved'
    have names : head.text = head'.text := Token.text_eq_of_beq (Token.beq_iff.mpr heads)
    rw [unbound, unbound, unboundAll_eq, unboundAll_eq]
    refine .app kind head head' _ _ names (by simpa using lengths) fun i h h' => ?_
    rw [List.getElem_map, List.getElem_map]
    exact ih i _ _ (resolved _ (List.getElem_mem _)) (resolved' _ (List.getElem_mem _))
  | connect op token token' left left' right right' tokens _ _ first second =>
    rw [resolved_connect] at resolved resolved'
    exact .connect op token token' _ _ _ _ (first resolved.1 resolved'.1)
      (second resolved.2 resolved'.2)
  | compare op token token' left left' right right' tokens _ _ first second =>
    rw [resolved_compare] at resolved resolved'
    exact .compare op token token' _ _ _ _ (first resolved.1 resolved'.1)
      (second resolved.2 resolved'.2)
  | neg token token' operand operand' tokens _ inner =>
    rw [resolved_neg] at resolved resolved'
    exact .neg token token' _ _ (inner resolved resolved')
  | quant quantifier token token' bound bound' body body' _ inner =>
    have inside : body.Resolved (((bound.text, bound'.text) :: pairs).map Prod.fst) := resolved
    have inside' : body'.Resolved (((bound.text, bound'.text) :: pairs).map Prod.snd) := resolved'
    exact .quant quantifier token token' bound bound' _ _ (inner inside inside')

theorem alike_of_alpha_unbound {e e' : Expr} {pairs : List (String × String)}
    (h : Named.Alpha pairs e.unbound e'.unbound) (regular : e.unbound.Regular)
    (regular' : e'.unbound.Regular) (resolved : e.Resolved (pairs.map Prod.fst))
    (resolved' : e'.Resolved (pairs.map Prod.snd)) : Alike e e' := by
  -- The indices of `h` are computed from the expressions, so the induction is on the first of them,
  -- and the others are taken apart as it is.
  induction e generalizing e' pairs with
  | var token reference =>
    cases e' with
    | var token' reference' =>
      cases h with
      | var _ _ same =>
        rw [resolved_var] at resolved resolved'
        have references : reference = reference' := by
          rw [resolved, resolved', Reference.ofName_eq_iff_corresponds]
          exact same
        exact references ▸ .var token token' reference
    | _ => cases h
  | app kind head arguments ih =>
    cases e' with
    | app kind' head' arguments' =>
      rw [unbound, unboundAll_eq] at h regular
      rw [unbound, unboundAll_eq] at h regular'
      cases h with
      | app _ _ _ _ _ names lengths each =>
        rw [resolved_app] at resolved resolved'
        cases regular with
        | app _ _ isIdentifier _ eachRegular =>
          cases regular' with
          | app _ _ isIdentifier' _ eachRegular' =>
            have heads : head.kind = head'.kind := by rw [isIdentifier, isIdentifier', names]
            refine .app kind head head' arguments arguments' heads (by simpa using lengths)
              fun i below below' => ?_
            have member : arguments[i] ∈ arguments := List.getElem_mem below
            have member' : arguments'[i] ∈ arguments' := List.getElem_mem below'
            have alpha := each i (by simpa using below) (by simpa using below')
            rw [List.getElem_map, List.getElem_map] at alpha
            exact ih _ member alpha (eachRegular _ (List.mem_map_of_mem member))
              (eachRegular' _ (List.mem_map_of_mem member')) (resolved _ member)
              (resolved' _ member')
    | _ => cases h
  | connect op token left right ihLeft ihRight =>
    cases e' with
    | connect op' token' left' right' =>
      rw [resolved_connect] at resolved resolved'
      cases h with
      | connect _ _ _ _ _ _ _ first second =>
        cases regular with
        | connect _ sign _ _ regularLeft regularRight =>
          cases regular' with
          | connect _ sign' _ _ regularLeft' regularRight' =>
            exact .connect op _ _ left left' right right' (sign.kind_eq sign')
              (ihLeft first regularLeft regularLeft' resolved.1 resolved'.1)
              (ihRight second regularRight regularRight' resolved.2 resolved'.2)
    | _ => cases h
  | compare op token left right ihLeft ihRight =>
    cases e' with
    | compare op' token' left' right' =>
      rw [resolved_compare] at resolved resolved'
      cases h with
      | compare _ _ _ _ _ _ _ first second =>
        cases regular with
        | compare _ sign _ _ regularLeft regularRight =>
          cases regular' with
          | compare _ sign' _ _ regularLeft' regularRight' =>
            exact .compare op _ _ left left' right right' (sign.kind_eq sign')
              (ihLeft first regularLeft regularLeft' resolved.1 resolved'.1)
              (ihRight second regularRight regularRight' resolved.2 resolved'.2)
    | _ => cases h
  | neg token operand ih =>
    cases e' with
    | neg token' operand' =>
      rw [resolved_neg] at resolved resolved'
      cases h with
      | neg _ _ _ _ inner =>
        cases regular with
        | neg sign _ regularInner =>
          cases regular' with
          | neg sign' _ regularInner' =>
            exact .neg _ _ operand operand' (sign.kind_eq sign')
              (ih inner regularInner regularInner' resolved resolved')
    | _ => cases h
  | quant quantifier token bound body ih =>
    cases e' with
    | quant quantifier' token' bound' body' =>
      rw [resolved_quant] at resolved resolved'
      cases h with
      | quant _ _ _ _ _ _ _ inner =>
        cases regular with
        | quant _ _ _ _ regularInner =>
          cases regular' with
          | quant _ _ _ _ regularInner' =>
            exact .quant quantifier _ _ bound bound' body body'
              (ih inner regularInner regularInner' resolved resolved')
    | _ => cases h

end Expr

/-! ## What is built -/

namespace Named

theorem beq_build_iff_alpha {t t' : Named} (regular : t.Regular) (regular' : t'.Regular) :
    (t.build == t'.build) = true ↔ Alpha [] t t' := by
  have alike_iff : Expr.Alike t.build t'.build ↔ Alpha [] t.build.unbound t'.build.unbound := by
    constructor
    · intro alike
      exact Expr.alpha_unbound_of_alike alike t.build_resolved t'.build_resolved
    · intro alpha
      refine Expr.alike_of_alpha_unbound alpha ?_ ?_ t.build_resolved t'.build_resolved
      · rw [unbound_build]
        exact regular
      · rw [unbound_build]
        exact regular'
  rw [Expr.beq_iff_alike, alike_iff, unbound_build, unbound_build]

/-- `forall outer. (P(outer) ^ forall inner. Q(inner, y))`. -/
def nested (outer inner : String) : Named :=
  .quant .universal (.ofSymbol .forAll) (.ofName outer)
    (.connect .and (.ofSymbol .and) (.app .predicate (.ofName "P") [.var (.ofName outer)])
      (.quant .universal (.ofSymbol .forAll) (.ofName inner)
        (.app .predicate (.ofName "Q") [.var (.ofName inner), .var (.ofName "y")])))

theorem nested_regular (outer inner : String) : (nested outer inner).Regular := by
  refine .quant .universal (.of .forAll) _ _ (.connect .and (.of .and) _ _ ?_ ?_)
  · exact .app .predicate (.ofName "P") rfl _ (by simp [Regular.var])
  · refine .quant .universal (.of .forAll) _ _ ?_
    exact .app .predicate (.ofName "Q") rfl _ (by simp [Regular.var])

/-- The inner name may hide the outer one, but it may not be that of the free variable. -/
theorem beq_build_iff_alpha_nested :
    (nested "x" "x").Regular ∧ (nested "z" "w").Regular ∧ (nested "z" "y").Regular ∧
      Alpha [] (nested "x" "x") (nested "z" "w") ∧
      ¬Alpha [] (nested "x" "x") (nested "z" "y") := by
  refine ⟨nested_regular _ _, nested_regular _ _, nested_regular _ _, ?_, fun captured => ?_⟩
  · exact (beq_build_iff_alpha (nested_regular _ _) (nested_regular _ _)).mp (by decide +kernel)
  · have equal := (beq_build_iff_alpha (nested_regular _ _) (nested_regular _ _)).mpr captured
    exact absurd equal (by decide +kernel)

end Named

end PredicateCalculus
