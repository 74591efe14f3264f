import Mathlib.Data.List.Forall2
import PredicateCalculus.Expr.Binding
import PredicateCalculus.Expr.Equality
import PredicateCalculus.Proofs.Occurrence

/-! # Equality as a relation

Two trees are alike when they differ at most in what equality does not look at: the tokens of
variables and of quantifiers, the names that quantifiers bind, and the lexeme and the column of
every other token. Being alike is what equality computes, so equality is an equivalence relation.

* `Expr.Alike`: the relation, with one constructor for each kind of node.
* `Expr.beq_iff_alike`: equality decides it.
* `Expr.equivalence_beq`: equality is reflexive, symmetric and transitive.
* `Expr.Alike.bind`, `Expr.Alike.freeOccurrences_eq`, `Expr.Alike.isFresh_eq`: binding and the free
  names do not tell apart what is alike.
-/

set_option autoImplicit false

namespace PredicateCalculus.Expr

inductive Alike : Expr → Expr → Prop where
  | var (token token' : Token) (reference : Reference) :
      Alike (.var token reference) (.var token' reference)
  | app (kind : HeadKind) (head head' : Token) (arguments arguments' : List Expr)
      (heads : head.kind = head'.kind) (lengths : arguments.length = arguments'.length)
      (each : ∀ i (h : i < arguments.length) (h' : i < arguments'.length),
        Alike arguments[i] arguments'[i]) :
      Alike (.app kind head arguments) (.app kind head' arguments')
  | connect (op : Connective) (token token' : Token) (left left' right right' : Expr)
      (tokens : token.kind = token'.kind) (first : Alike left left')
      (second : Alike right right') :
      Alike (.connect op token left right) (.connect op token' left' right')
  | compare (op : Comparison) (token token' : Token) (left left' right right' : Expr)
      (tokens : token.kind = token'.kind) (first : Alike left left')
      (second : Alike right right') :
      Alike (.compare op token left right) (.compare op token' left' right')
  | neg (token token' : Token) (operand operand' : Expr) (tokens : token.kind = token'.kind)
      (inner : Alike operand operand') : Alike (.neg token operand) (.neg token' operand')
  | quant (quantifier : Quantifier) (token token' bound bound' : Token) (body body' : Expr)
      (inner : Alike body body') :
      Alike (.quant quantifier token bound body) (.quant quantifier token' bound' body')

/-! ## Argument lists -/

theorem beqAll_iff_forall₂ {arguments arguments' : List Expr} :
    beqAll arguments arguments' = true ↔
      List.Forall₂ (fun e e' => e.beq e' = true) arguments arguments' := by
  induction arguments generalizing arguments' with
  | nil =>
    cases arguments' with
    | nil => exact iff_of_true rfl .nil
    | cons e' rest' => exact iff_of_false (by simp [beqAll]) nofun
  | cons e rest ih =>
    cases arguments' with
    | nil => exact iff_of_false (by simp [beqAll]) nofun
    | cons e' rest' => rw [beqAll, Bool.and_eq_true, ih, List.forall₂_cons]

/-- Position by position. -/
theorem beqAll_iff_getElem {arguments arguments' : List Expr} :
    beqAll arguments arguments' = true ↔ arguments.length = arguments'.length ∧
      ∀ i (h : i < arguments.length) (h' : i < arguments'.length),
        arguments[i].beq arguments'[i] = true :=
  beqAll_iff_forall₂.trans List.forall₂_iff_get

theorem map_eq_of_getElem {β : Type} {f : Expr → β} {arguments arguments' : List Expr}
    (lengths : arguments.length = arguments'.length)
    (each : ∀ i (h : i < arguments.length) (h' : i < arguments'.length),
      f arguments[i] = f arguments'[i]) :
    arguments.map f = arguments'.map f := by
  refine List.ext_getElem (by simpa using lengths) fun i h h' => ?_
  rw [List.getElem_map, List.getElem_map]
  exact each i _ _

theorem all_eq_of_getElem {f : Expr → Bool} {arguments arguments' : List Expr}
    (lengths : arguments.length = arguments'.length)
    (each : ∀ i (h : i < arguments.length) (h' : i < arguments'.length),
      f arguments[i] = f arguments'[i]) :
    arguments.all f = arguments'.all f := by
  have answers := congrArg (List.all · id) (map_eq_of_getElem lengths each)
  simpa only [List.all_map, Function.id_comp] using answers

/-! ## Equality decides -/

theorem alike_of_beq {e e' : Expr} (h : e.beq e' = true) : Alike e e' := by
  induction e generalizing e' with
  | var token reference =>
    cases e' with
    | var token' reference' =>
      rw [beq, beq_iff_eq] at h
      exact h ▸ .var token token' reference
    | _ => cases h
  | app kind head arguments ih =>
    cases e' with
    | app kind' head' arguments' =>
      rw [beq, Bool.and_eq_true, Bool.and_eq_true, beq_iff_eq, Token.beq_iff] at h
      obtain ⟨⟨rfl, heads⟩, args⟩ := h
      obtain ⟨lengths, each⟩ := beqAll_iff_getElem.mp args
      exact .app kind head head' arguments arguments' heads lengths
        fun i h h' => ih _ (List.getElem_mem h) (each i h h')
    | _ => cases h
  | connect op token left right ihLeft ihRight =>
    cases e' with
    | connect op' token' left' right' =>
      rw [beq, Bool.and_eq_true, Bool.and_eq_true, Bool.and_eq_true, beq_iff_eq,
        Token.beq_iff] at h
      obtain ⟨⟨⟨rfl, tokens⟩, first⟩, second⟩ := h
      exact .connect op token token' left left' right right' tokens (ihLeft first) (ihRight second)
    | _ => cases h
  | compare op token left right ihLeft ihRight =>
    cases e' with
    | compare op' token' left' right' =>
      rw [beq, Bool.and_eq_true, Bool.and_eq_true, Bool.and_eq_true, beq_iff_eq,
        Token.beq_iff] at h
      obtain ⟨⟨⟨rfl, tokens⟩, first⟩, second⟩ := h
      exact .compare op token token' left left' right right' tokens (ihLeft first) (ihRight second)
    | _ => cases h
  | neg token operand ih =>
    cases e' with
    | neg token' operand' =>
      rw [beq, Bool.and_eq_true, Token.beq_iff] at h
      exact .neg token token' operand operand' h.1 (ih h.2)
    | _ => cases h
  | quant quantifier token bound body ih =>
    cases e' with
    | quant quantifier' token' bound' body' =>
      rw [beq, Bool.and_eq_true, beq_iff_eq] at h
      obtain ⟨rfl, inner⟩ := h
      exact .quant quantifier token token' bound bound' body body' (ih inner)
    | _ => cases h

theorem Alike.beq {e e' : Expr} (h : Alike e e') : (e == e') = true := by
  show e.beq e' = true
  induction h with
  | var token token' reference => simp only [Expr.beq, beq_self_eq_true]
  | app kind head head' arguments arguments' heads lengths each ih =>
    have args : beqAll arguments arguments' = true := beqAll_iff_getElem.mpr ⟨lengths, ih⟩
    simp only [Expr.beq, beq_self_eq_true, Token.beq_iff.mpr heads, args, Bool.and_self]
  | connect op token token' left left' right right' tokens _ _ first second =>
    simp only [Expr.beq, beq_self_eq_true, Token.beq_iff.mpr tokens, first, second, Bool.and_self]
  | compare op token token' left left' right right' tokens _ _ first second =>
    simp only [Expr.beq, beq_self_eq_true, Token.beq_iff.mpr tokens, first, second, Bool.and_self]
  | neg token token' operand operand' tokens _ inner =>
    simp only [Expr.beq, Token.beq_iff.mpr tokens, inner, Bool.and_self]
  | quant quantifier token token' bound bound' body body' _ inner =>
    simp only [Expr.beq, beq_self_eq_true, inner, Bool.and_self]

theorem beq_iff_alike {e e' : Expr} : (e == e') = true ↔ Alike e e' :=
  ⟨alike_of_beq, Alike.beq⟩

/-! ## An equivalence relation -/

theorem Alike.refl (e : Expr) : Alike e e := by
  induction e with
  | var token reference => exact .var token token reference
  | app kind head arguments ih =>
    exact .app kind head head arguments arguments rfl rfl fun i h _ => ih _ (List.getElem_mem h)
  | connect op token left right ihLeft ihRight =>
    exact .connect op token token left left right right rfl ihLeft ihRight
  | compare op token left right ihLeft ihRight =>
    exact .compare op token token left left right right rfl ihLeft ihRight
  | neg token operand ih => exact .neg token token operand operand rfl ih
  | quant quantifier token bound body ih =>
    exact .quant quantifier token token bound bound body body ih

theorem Alike.symm {e e' : Expr} (h : Alike e e') : Alike e' e := by
  induction h with
  | var token token' reference => exact .var token' token reference
  | app kind head head' arguments arguments' heads lengths each ih =>
    exact .app kind head' head arguments' arguments heads.symm lengths.symm
      fun i h' h => ih i h h'
  | connect op token token' left left' right right' tokens _ _ first second =>
    exact .connect op token' token left' left right' right tokens.symm first second
  | compare op token token' left left' right right' tokens _ _ first second =>
    exact .compare op token' token left' left right' right tokens.symm first second
  | neg token token' operand operand' tokens _ inner =>
    exact .neg token' token operand' operand tokens.symm inner
  | quant quantifier token token' bound bound' body body' _ inner =>
    exact .quant quantifier token' token bound' bound body' body inner

theorem Alike.trans {e e' e'' : Expr} (h : Alike e e') (h' : Alike e' e'') : Alike e e'' := by
  induction h generalizing e'' with
  | var token token' reference =>
    cases h' with
    | var _ token'' => exact .var token token'' reference
  | app kind head head' arguments arguments' heads lengths each ih =>
    cases h' with
    | app _ _ head'' _ arguments'' heads' lengths' each' =>
      refine .app kind head head'' arguments arguments'' (heads.trans heads')
        (lengths.trans lengths') fun i below below'' => ?_
      have below' : i < arguments'.length := lengths ▸ below
      exact ih i below below' (each' i below' below'')
  | connect op token token' left left' right right' tokens _ _ first second =>
    cases h' with
    | connect _ _ token'' _ left'' _ right'' tokens' first' second' =>
      exact .connect op token token'' left left'' right right'' (tokens.trans tokens')
        (first first') (second second')
  | compare op token token' left left' right right' tokens _ _ first second =>
    cases h' with
    | compare _ _ token'' _ left'' _ right'' tokens' first' second' =>
      exact .compare op token token'' left left'' right right'' (tokens.trans tokens')
        (first first') (second second')
  | neg token token' operand operand' tokens _ inner =>
    cases h' with
    | neg _ token'' _ operand'' tokens' inner' =>
      exact .neg token token'' operand operand'' (tokens.trans tokens') (inner inner')
  | quant quantifier token token' bound bound' body body' _ inner =>
    cases h' with
    | quant _ _ token'' _ bound'' _ body'' inner' =>
      exact .quant quantifier token token'' bound bound'' body body'' (inner inner')

theorem equivalence_beq : Equivalence fun e e' : Expr => (e == e') = true where
  refl e := (Alike.refl e).beq
  symm h := (alike_of_beq h).symm.beq
  trans h h' := ((alike_of_beq h).trans (alike_of_beq h')).beq

/-! ## Roots and children -/

theorem Alike.isTerm_eq {e e' : Expr} (h : Alike e e') : e.isTerm = e'.isTerm := by
  cases h with
  | app kind => cases kind <;> rfl
  | _ => rfl

theorem Alike.children {e e' : Expr} (h : Alike e e') :
    e.children.length = e'.children.length ∧
      ∀ i (h : i < e.children.length) (h' : i < e'.children.length),
        Alike e.children[i] e'.children[i] := by
  apply List.forall₂_iff_get.mp
  cases h with
  | var token token' reference => exact .nil
  | app kind head head' arguments arguments' heads lengths each =>
    exact List.forall₂_iff_get.mpr ⟨lengths, each⟩
  | connect op token token' left left' right right' tokens first second =>
    exact .cons first (.cons second .nil)
  | compare op token token' left left' right right' tokens first second =>
    exact .cons first (.cons second .nil)
  | neg token token' operand operand' tokens inner => exact .cons inner .nil
  | quant quantifier token token' bound bound' body body' inner => exact .cons inner .nil

/-! ## Binding and free names -/

theorem Alike.bind {e e' : Expr} (h : Alike e e') (name : String) (depth : Nat) :
    Alike (e.bind name depth) (e'.bind name depth) := by
  induction h generalizing depth with
  | var token token' reference => exact .var token token' (reference.bind name depth)
  | app kind head head' arguments arguments' heads lengths each ih =>
    rw [Expr.bind, Expr.bind, bindAll_eq, bindAll_eq]
    refine .app kind head head' _ _ heads (by simpa using lengths) fun i h h' => ?_
    rw [List.getElem_map, List.getElem_map]
    exact ih i _ _ depth
  | connect op token token' left left' right right' tokens _ _ first second =>
    exact .connect op token token' _ _ _ _ tokens (first depth) (second depth)
  | compare op token token' left left' right right' tokens _ _ first second =>
    exact .compare op token token' _ _ _ _ tokens (first depth) (second depth)
  | neg token token' operand operand' tokens _ inner =>
    exact .neg token token' _ _ tokens (inner depth)
  | quant quantifier token token' bound bound' body body' _ inner =>
    exact .quant quantifier token token' bound bound' _ _ (inner (depth + 1))

theorem Alike.quantify {e e' : Expr} (h : Alike e e') (quantifier : Quantifier)
    (token token' : Token) {bound bound' : Token} (names : bound.text = bound'.text) :
    Alike (quantify quantifier token bound e) (quantify quantifier token' bound' e') := by
  have bodies : Alike (e.bind bound.text 0) (e'.bind bound.text 0) := h.bind bound.text 0
  rw [Expr.quantify, Expr.quantify, ← names]
  exact .quant quantifier token token' bound bound' _ _ bodies

theorem Alike.freeOccurrences_eq {e e' : Expr} (h : Alike e e') :
    e.freeOccurrences = e'.freeOccurrences := by
  induction h with
  | var token token' reference => cases reference <;> rfl
  | app kind head head' arguments arguments' heads lengths each ih =>
    have occurrences := map_eq_of_getElem lengths ih
    rw [freeOccurrences, freeOccurrences, freeOccurrencesAll_eq, freeOccurrencesAll_eq,
      List.flatMap_def, List.flatMap_def, occurrences]
  | connect op token token' left left' right right' tokens _ _ first second =>
    simp only [freeOccurrences, first, second]
  | compare op token token' left left' right right' tokens _ _ first second =>
    simp only [freeOccurrences, first, second]
  | neg token token' operand operand' tokens _ inner => exact inner
  | quant quantifier token token' bound bound' body body' _ inner => exact inner

theorem Alike.isFresh_eq {e e' : Expr} (h : Alike e e') (name : String) :
    e.isFresh name = e'.isFresh name := by
  induction h with
  | var token token' reference => cases reference <;> rfl
  | app kind head head' arguments arguments' heads lengths each ih =>
    rw [isFresh, isFresh, isFreshAll_eq, isFreshAll_eq, all_eq_of_getElem lengths ih]
  | connect op token token' left left' right right' tokens _ _ first second =>
    simp only [isFresh, first, second]
  | compare op token token' left left' right right' tokens _ _ first second =>
    simp only [isFresh, first, second]
  | neg token token' operand operand' tokens _ inner => exact inner
  | quant quantifier token token' bound bound' body body' _ inner => exact inner

end PredicateCalculus.Expr
