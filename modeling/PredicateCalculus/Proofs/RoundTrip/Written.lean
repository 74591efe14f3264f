import PredicateCalculus.Expr.Equality
import PredicateCalculus.Proofs.Named

/-! # What is written of an expression

The written form shows the shape of an expression and the texts of its tokens, the names of bound
variables among them. It does not show what the variables refer to, nor from where the tokens came.

* `Expr.written`: what is shown, as a tree by names.
* `Expr.beq_iff_resolved`: a tree that resolves its names equals one with the same written form
  exactly when that one resolves its names in the same way.
-/

set_option autoImplicit false

namespace PredicateCalculus

/-- The token without the lexeme and the column that it was read from. -/
def Token.bare (token : Token) : Token :=
  ⟨token.kind, token.text, none⟩

theorem Token.text_eq_of_kind {t t' : Token} (h : t.kind = t'.kind) : t.text = t'.text := by
  rw [text, text, h]

theorem Token.bare_eq_iff {t t' : Token} : t.bare = t'.bare ↔ t.kind = t'.kind := by
  rw [bare, bare, Token.mk.injEq]
  exact ⟨fun h => h.1, fun h => ⟨h, text_eq_of_kind h, rfl⟩⟩

namespace Named

mutual

def bare : Named → Named
  | .var token => .var token.bare
  | .app kind head arguments => .app kind head.bare (bareAll arguments)
  | .connect op token left right => .connect op token.bare (bare left) (bare right)
  | .compare op token left right => .compare op token.bare (bare left) (bare right)
  | .neg token operand => .neg token.bare (bare operand)
  | .quant quantifier token bound body => .quant quantifier token.bare bound.bare (bare body)

def bareAll : List Named → List Named
  | [] => []
  | t :: rest => bare t :: bareAll rest

end

theorem bareAll_eq (arguments : List Named) : bareAll arguments = arguments.map bare := by
  induction arguments with
  | nil => rfl
  | cons t rest ih => simp [bareAll, ih]

end Named

namespace Expr

def written (e : Expr) : Named :=
  e.unbound.bare

theorem written_app (kind : HeadKind) (head : Token) (arguments : List Expr) :
    (Expr.app kind head arguments).written = .app kind head.bare (arguments.map written) := by
  simp only [written, unbound, Named.bare, unboundAll_eq, Named.bareAll_eq, List.map_map]
  rfl

theorem written_quantify (quantifier : Quantifier) (token bound : Token) (body : Expr) :
    (quantify quantifier token bound body).written =
      .quant quantifier token.bare bound.bare body.written := by
  rw [written, unbound_quantify]
  rfl

/-! ## Equality and references -/

theorem beqAll_iff (holds : Expr → Prop) {arguments arguments' : List Expr}
    (same : arguments.map written = arguments'.map written)
    (h : ∀ e ∈ arguments, ∀ e', e.written = e'.written → (e.beq e' = true ↔ holds e')) :
    beqAll arguments arguments' = true ↔ ∀ e' ∈ arguments', holds e' := by
  induction arguments generalizing arguments' with
  | nil =>
    obtain rfl : arguments' = [] := List.map_eq_nil_iff.mp same.symm
    exact iff_of_true rfl (by simp)
  | cons e rest ih =>
    cases arguments' with
    | nil => cases same
    | cons e' rest' =>
      obtain ⟨first, others⟩ := List.cons.inj same
      rw [List.forall_mem_cons] at h
      rw [beqAll, Bool.and_eq_true, h.1 e' first, ih others h.2, List.forall_mem_cons]

theorem beq_iff_resolved {e e' : Expr} {scope : List String} (resolved : e.Resolved scope)
    (same : e.written = e'.written) : e.beq e' = true ↔ e'.Resolved scope := by
  induction e generalizing e' scope with
  | var token reference =>
    cases e' with
    | var token' reference' =>
      have texts : token.text = token'.text :=
        Token.text_eq_of_kind (Token.bare_eq_iff.mp (Named.var.inj same))
      rw [resolved_var] at resolved ⊢
      rw [beq, beq_iff_eq, resolved, texts, eq_comm]
    | _ => cases same
  | app kind head arguments ih =>
    cases e' with
    | app kind' head' arguments' =>
      rw [written_app, written_app] at same
      obtain ⟨kinds, heads, args⟩ := Named.app.inj same
      rw [resolved_app] at resolved ⊢
      have parts := beqAll_iff (fun e' => e'.Resolved scope) args
        fun e member e' => ih e member (resolved e member)
      rw [beq, Bool.and_eq_true, Bool.and_eq_true, parts]
      exact and_iff_right ⟨beq_iff_eq.mpr kinds, Token.beq_iff.mpr (Token.bare_eq_iff.mp heads)⟩
    | _ => cases same
  | connect op token left right ihLeft ihRight =>
    cases e' with
    | connect op' token' left' right' =>
      obtain ⟨ops, tokens, lefts, rights⟩ := Named.connect.inj same
      rw [resolved_connect] at resolved ⊢
      rw [beq, Bool.and_eq_true, Bool.and_eq_true, Bool.and_eq_true, ihLeft resolved.1 lefts,
        ihRight resolved.2 rights, and_assoc]
      exact and_iff_right ⟨beq_iff_eq.mpr ops, Token.beq_iff.mpr (Token.bare_eq_iff.mp tokens)⟩
    | _ => cases same
  | compare op token left right ihLeft ihRight =>
    cases e' with
    | compare op' token' left' right' =>
      obtain ⟨ops, tokens, lefts, rights⟩ := Named.compare.inj same
      rw [resolved_compare] at resolved ⊢
      rw [beq, Bool.and_eq_true, Bool.and_eq_true, Bool.and_eq_true, ihLeft resolved.1 lefts,
        ihRight resolved.2 rights, and_assoc]
      exact and_iff_right ⟨beq_iff_eq.mpr ops, Token.beq_iff.mpr (Token.bare_eq_iff.mp tokens)⟩
    | _ => cases same
  | neg token operand ih =>
    cases e' with
    | neg token' operand' =>
      obtain ⟨tokens, operands⟩ := Named.neg.inj same
      rw [resolved_neg] at resolved ⊢
      rw [beq, Bool.and_eq_true, ih resolved operands]
      exact and_iff_right (Token.beq_iff.mpr (Token.bare_eq_iff.mp tokens))
    | _ => cases same
  | quant quantifier token bound body ih =>
    cases e' with
    | quant quantifier' token' bound' body' =>
      obtain ⟨quantifiers, tokens, bounds, bodies⟩ := Named.quant.inj same
      have names : bound.text = bound'.text :=
        Token.text_eq_of_kind (Token.bare_eq_iff.mp bounds)
      rw [resolved_quant] at resolved ⊢
      rw [beq, Bool.and_eq_true, ih resolved bodies, names]
      exact and_iff_right (beq_iff_eq.mpr quantifiers)
    | _ => cases same

end Expr

end PredicateCalculus
