import PredicateCalculus.Proofs.RoundTrip.Spelling
import PredicateCalculus.Proofs.RoundTrip.Written

/-! # Brackets and levels of the grammar

Every tree has a level, the construct of the grammar that its written form is. An operand is written
without brackets where its level fits into its place, and with brackets, which make a term of it,
where it does not. So a written form derives a tree that is written in the same way.

* `Level`: the constructs, from the tightest to the loosest.
* `Level.Derives`: there is a derivation at a level.
* `Level.fits_of_needsBrackets`: where no brackets are needed, the level fits.
* `Expr.Usual.derives`: the tokens of a written form have a derivation.
-/

set_option autoImplicit false

namespace PredicateCalculus

/-! ## Longer chains -/

namespace Derivation

/-- The links with one more at the end. -/
def snoc {op : ChainOp} (links : Derivation (.links op)) (sign : Mark op.val.symbol)
    (right : Derivation .comparison) : Derivation (.links op) :=
  match links with
  | .link _ sign' right' more => .link op sign' right' (more.snoc sign right)
  | .lastLink _ sign' right' => .link op sign' right' (.lastLink op sign right)

theorem tokens_snoc {op : ChainOp} (links : Derivation (.links op)) (sign : Mark op.val.symbol)
    (right : Derivation .comparison) :
    (links.snoc sign right).tokens = links.tokens ++ sign.token :: right.tokens := by
  match links with
  | .link _ sign' right' more => simp [snoc, tokens, tokens_snoc more]
  | .lastLink _ sign' right' => simp [snoc, tokens]

theorem meaning_snoc {op : ChainOp} (links : Derivation (.links op)) (sign : Mark op.val.symbol)
    (right : Derivation .comparison) (left : Expr) :
    (links.snoc sign right).meaning left =
      .connect op.val sign.token (links.meaning left) right.meaning := by
  match links with
  | .link _ sign' right' more => simp only [snoc, meaning, meaning_snoc more]
  | .lastLink _ sign' right' => simp only [snoc, meaning]

end Derivation

/-! ## Levels -/

inductive Level where
  | term
  | comparison
  | joined (op : ChainOp)
  | chain
  | implication
  | quantified

namespace Level

def rank : Level → Nat
  | .term => 0
  | .comparison => 1
  | .joined _ => 2
  | .chain => 3
  | .implication => 4
  | .quantified => 5

/-- What is joined by a connective may also be one comparison only. -/
def Derives : Level → List Token → Named → Prop
  | .term, ts, t => ∃ d : Derivation .term, d.tokens = ts ∧ Expr.written d.meaning = t
  | .comparison, ts, t =>
    ∃ d : Derivation .comparison, d.tokens = ts ∧ Expr.written d.meaning = t
  | .joined op, ts, t =>
    (∃ d : Derivation .comparison, d.tokens = ts ∧ Expr.written d.meaning = t) ∨
      ∃ (first : Derivation .comparison) (links : Derivation (.links op)),
        first.tokens ++ links.tokens = ts ∧ Expr.written (links.meaning first.meaning) = t
  | .chain, ts, t => ∃ d : Derivation .chain, d.tokens = ts ∧ Expr.written d.meaning = t
  | .implication, ts, t =>
    ∃ d : Derivation .implication, d.tokens = ts ∧ Expr.written d.meaning = t
  | .quantified, ts, t =>
    ∃ d : Derivation .quantified, d.tokens = ts ∧ Expr.written d.meaning = t

def Fits (inner outer : Level) : Prop :=
  inner = outer ∨ inner.rank < outer.rank

section

variable {level : Level} {ts : List Token} {t : Named}

theorem Derives.comparison (h : level.Derives ts t) (low : level.rank ≤ 1) :
    Level.comparison.Derives ts t := by
  cases level with
  | term =>
    obtain ⟨d, tokens, meaning⟩ := h
    exact ⟨.ofTerm d, tokens, meaning⟩
  | comparison => exact h
  | _ => simp [rank] at low

theorem Derives.chain (h : level.Derives ts t) (low : level.rank ≤ 3) :
    Level.chain.Derives ts t := by
  have single : Level.comparison.Derives ts t → Level.chain.Derives ts t :=
    fun ⟨d, tokens, meaning⟩ => ⟨.ofComparison d, tokens, meaning⟩
  cases level with
  | term => exact single (h.comparison (by decide))
  | comparison => exact single h
  | joined op =>
    rcases h with h | ⟨first, links, tokens, meaning⟩
    · exact single h
    · exact ⟨.joined op first links, tokens, meaning⟩
  | chain => exact h
  | _ => simp [rank] at low

theorem Derives.implication (h : level.Derives ts t) (low : level.rank ≤ 4) :
    Level.implication.Derives ts t := by
  by_cases chained : level.rank ≤ 3
  · obtain ⟨d, tokens, meaning⟩ := h.chain chained
    exact ⟨.ofChain d, tokens, meaning⟩
  · cases level with
    | implication => exact h
    | quantified => simp [rank] at low
    | _ => simp [rank] at chained

theorem Derives.quantified (h : level.Derives ts t) : Level.quantified.Derives ts t := by
  by_cases implied : level.rank ≤ 4
  · obtain ⟨d, tokens, meaning⟩ := h.implication implied
    exact ⟨.ofImplication d, tokens, meaning⟩
  · cases level with
    | quantified => exact h
    | _ => simp [rank] at implied

theorem Derives.loosen {outer : Level} (h : level.Derives ts t) (fits : level.Fits outer) :
    outer.Derives ts t := by
  rcases fits with rfl | less
  · exact h
  · cases outer with
    | term => exact absurd less (Nat.not_lt_zero _)
    | comparison => exact h.comparison (Nat.le_of_lt less)
    | joined op => exact Or.inl (h.comparison (Nat.le_of_lt_succ less))
    | chain => exact h.chain (Nat.le_of_lt less)
    | implication => exact h.implication (Nat.le_of_lt less)
    | quantified => exact h.quantified

/-- A chain is continued by one more comparison. -/
theorem Derives.snoc {op : ChainOp} (h : (Level.joined op).Derives ts t)
    (sign : Mark op.val.symbol) (right : Derivation .comparison) :
    (Level.joined op).Derives (ts ++ sign.token :: right.tokens)
      (.connect op.val sign.token.bare t (Expr.written right.meaning)) := by
  refine Or.inr ?_
  rcases h with ⟨d, rfl, rfl⟩ | ⟨first, links, rfl, rfl⟩
  · exact ⟨d, .lastLink op sign right, rfl, rfl⟩
  · refine ⟨first, links.snoc sign right, ?_, ?_⟩
    · rw [Derivation.tokens_snoc, List.append_assoc]
    · rw [Derivation.meaning_snoc]
      rfl

end

end Level

/-! ## Levels of trees and of places -/

def Expr.level : Expr → Level
  | .var _ _ => .term
  | .app _ _ _ => .term
  | .neg _ _ => .term
  | .compare _ _ _ _ => .comparison
  | .connect op _ _ _ => if h : op = .implies then .implication else .joined ⟨op, h⟩
  | .quant _ _ _ _ => .quantified

/-- The loosest level that stands in a place without brackets. -/
def Place.level : Place → Level
  | .elsewhere => .term
  | .leftOf op => if h : op = .implies then .chain else .joined ⟨op, h⟩
  | .rightOf op => if op = .implies then .implication else .comparison

theorem Level.fits_of_needsBrackets {e : Expr} {place : Place}
    (h : e.needsBrackets place = false) : e.level.Fits place.level := by
  cases e with
  | connect op token left right =>
    cases op <;> rcases place with (_ | _ | _) | (_ | _ | _) | _ <;>
      simp_all [Expr.needsBrackets, Expr.level, Place.level, Fits, rank]
  | compare op token left right =>
    rcases place with (_ | _ | _) | (_ | _ | _) | _ <;>
      simp_all [Expr.needsBrackets, Expr.level, Place.level, Fits, rank]
  | quant quantifier token bound body => cases h
  | _ =>
    rcases place with (_ | _ | _) | (_ | _ | _) | _ <;>
      simp [Expr.level, Place.level, Fits, rank]

theorem Level.not_fits_of_needsBrackets {e : Expr} {place : Place}
    (h : e.needsBrackets place = true) : ¬e.level.Fits place.level := by
  cases e with
  | connect op token left right =>
    cases op <;> rcases place with (_ | _ | _) | (_ | _ | _) | _ <;>
      simp_all [Expr.needsBrackets, Expr.level, Place.level, Fits, rank]
  | compare op token left right =>
    obtain rfl : place = .elsewhere := beq_iff_eq.mp h
    simp [Expr.level, Place.level, Fits, rank]
  | quant quantifier token bound body =>
    rcases place with (_ | _ | _) | (_ | _ | _) | _ <;>
      simp [Expr.level, Place.level, Fits, rank]
  | _ => cases h

/-! ## Derivations of written forms -/

theorem Mark.bare_eq {s : Symbol} (mark mark' : Mark s) : mark.token.bare = mark'.token.bare :=
  Token.bare_eq_iff.mpr (mark.isSymbol.trans mark'.isSymbol.symm)

section

variable {ts : List Token} {kinds : List TokenKind}

theorem mark_of_kinds {s : Symbol} (h : ts.map Token.kind = .symbol s :: kinds) :
    ∃ (mark : Mark s) (rest : List Token),
      ts = mark.token :: rest ∧ rest.map Token.kind = kinds := by
  obtain ⟨t, rest, eq, kind, others⟩ := List.map_eq_cons_iff.mp h
  exact ⟨⟨t, kind⟩, rest, eq, others⟩

theorem name_of_kinds {name : Name} (h : ts.map Token.kind = name.token.kind :: kinds) :
    ∃ (name' : Name) (rest : List Token), ts = name'.token :: rest ∧
      name'.token.kind = name.token.kind ∧ rest.map Token.kind = kinds := by
  obtain ⟨t, rest, eq, kind, others⟩ := List.map_eq_cons_iff.mp h
  have texts := Token.text_eq_of_kind kind
  have isIdentifier : t.kind = .identifier t.text := by rw [kind, name.isIdentifier, texts]
  exact ⟨⟨t, isIdentifier, by rw [texts]; exact name.isName⟩, rest, eq, kind, others⟩

theorem closing_of_kinds (h : ts.map Token.kind = kinds ++ [.symbol .rightParen]) :
    ∃ (inner : List Token) (closing : Mark .rightParen),
      ts = inner ++ [closing.token] ∧ inner.map Token.kind = kinds := by
  obtain ⟨inner, last, eq, spelled, closes⟩ := List.map_eq_append_iff.mp h
  obtain ⟨closing, rest, eqLast, ends⟩ := mark_of_kinds closes
  obtain rfl := List.map_eq_nil_iff.mp ends
  exact ⟨inner, closing, by rw [eq, eqLast], spelled⟩

end

namespace Expr

/-- Every list of tokens that spells the tree has a derivation at the level of the tree. -/
def Derived (e : Expr) : Prop :=
  ∀ ts : List Token, ts.map Token.kind = e.spelling → e.level.Derives ts e.written

theorem Derived.operand {e : Expr} (h : e.Derived) (place : Place) {ts : List Token}
    (spelled : ts.map Token.kind = bracketedKinds (e.needsBrackets place) e.spelling) :
    place.level.Derives ts e.written := by
  cases brackets : e.needsBrackets place with
  | false =>
    rw [brackets] at spelled
    exact (h ts spelled).loosen (Level.fits_of_needsBrackets brackets)
  | true =>
    rw [brackets] at spelled
    obtain ⟨opening, others, rfl, spelledRest⟩ := mark_of_kinds spelled
    obtain ⟨inner, closing, rfl, spelledInner⟩ := closing_of_kinds spelledRest
    obtain ⟨d, rfl, meaning⟩ := (h inner spelledInner).quantified
    have bracketed : Level.term.Derives (opening.token :: (d.tokens ++ [closing.token]))
        e.written := ⟨.brackets opening d closing, rfl, meaning⟩
    -- A term fits into every place.
    refine bracketed.loosen ?_
    cases place.level <;> simp [Level.Fits, Level.rank]

theorem derives_furtherArguments {first : Expr} {rest : List Expr}
    (h : ∀ e ∈ first :: rest, e.Derived) {ts : List Token}
    (spelled : ts.map Token.kind = spellingAll (first :: rest)) :
    ∃ (d : Derivation .term) (more : Derivation .furtherArguments),
      d.tokens ++ more.tokens = ts ∧ written d.meaning = first.written ∧
        List.map written more.meaning = rest.map written := by
  induction rest generalizing first ts with
  | nil =>
    obtain ⟨d, rfl, meaning⟩ := (h first List.mem_cons_self).operand .elsewhere spelled
    exact ⟨d, .noFurther, List.append_nil _, meaning, rfl⟩
  | cons second rest ih =>
    obtain ⟨front, others, rfl, spelledFirst, spelledRest⟩ := List.map_eq_append_iff.mp spelled
    obtain ⟨comma, behind, rfl, spelledMore⟩ := mark_of_kinds spelledRest
    obtain ⟨d, rfl, meaning⟩ := (h first List.mem_cons_self).operand .elsewhere spelledFirst
    obtain ⟨next, more, rfl, meaningNext, meanings⟩ :=
      ih (fun e member => h e (List.mem_cons_of_mem _ member)) spelledMore
    exact ⟨d, .further comma next more, rfl, meaning, congrArg₂ List.cons meaningNext meanings⟩

theorem derives_arguments {arguments : List Expr} (h : ∀ e ∈ arguments, e.Derived)
    {ts : List Token} (spelled : ts.map Token.kind = spellingAll arguments) :
    ∃ d : Derivation .arguments,
      d.tokens = ts ∧ List.map written d.meaning = arguments.map written := by
  cases arguments with
  | nil =>
    obtain rfl := List.map_eq_nil_iff.mp spelled
    exact ⟨.noArguments, rfl, rfl⟩
  | cons first rest =>
    obtain ⟨d, more, tokens, meaning, meanings⟩ := derives_furtherArguments h spelled
    exact ⟨.someArguments d more, tokens, congrArg₂ List.cons meaning meanings⟩

theorem Usual.derived {e : Expr} (h : e.Usual) : e.Derived := by
  induction h with
  | var name reference =>
    intro ts spelled
    obtain ⟨name', rest, rfl, same, ends⟩ := name_of_kinds spelled
    obtain rfl := List.map_eq_nil_iff.mp ends
    exact ⟨.var name', rfl, congrArg Named.var (Token.bare_eq_iff.mpr same)⟩
  | app kind head suits arguments each ih =>
    intro ts spelled
    obtain ⟨head', behindHead, rfl, same, spelledRest⟩ := name_of_kinds spelled
    obtain ⟨opening, behind, rfl, spelledBehind⟩ := mark_of_kinds spelledRest
    obtain ⟨inner, closing, rfl, spelledInner⟩ := closing_of_kinds spelledBehind
    obtain ⟨d, rfl, meanings⟩ := derives_arguments ih spelledInner
    rw [← Token.text_eq_of_kind same] at suits
    refine ⟨.app kind head' suits opening d closing, rfl, ?_⟩
    rw [written_app, Derivation.meaning, written_app, Token.bare_eq_iff.mpr same, meanings]
  | connect op sign left right _ _ first second =>
    intro ts spelled
    obtain ⟨front, others, rfl, spelledLeft, spelledRest⟩ := List.map_eq_append_iff.mp spelled
    rw [sign.isSymbol] at spelledRest
    obtain ⟨sign', behind, rfl, spelledRight⟩ := mark_of_kinds spelledRest
    have derivesLeft := first.operand (.leftOf op) spelledLeft
    have derivesRight := second.operand (.rightOf op) spelledRight
    have shown : (Expr.connect op sign.token left right).written =
        .connect op sign'.token.bare left.written right.written := by
      rw [← sign.bare_eq sign']
      rfl
    rw [shown]
    -- An implication leans to the right on its own; a chain is one that is continued.
    by_cases h : op = .implies
    · subst h
      obtain ⟨d, rfl, meaning⟩ := derivesLeft
      obtain ⟨d', rfl, meaning'⟩ := derivesRight
      rw [← meaning, ← meaning']
      exact ⟨.implies d sign' d', rfl, rfl⟩
    · rw [Place.level, dif_neg h] at derivesLeft
      rw [Place.level, if_neg h] at derivesRight
      obtain ⟨d', rfl, meaning'⟩ := derivesRight
      rw [level, dif_neg h, ← meaning']
      exact derivesLeft.snoc sign' d'
  | compare op sign left right _ _ first second =>
    intro ts spelled
    obtain ⟨front, others, rfl, spelledLeft, spelledRest⟩ := List.map_eq_append_iff.mp spelled
    rw [sign.isSymbol] at spelledRest
    obtain ⟨sign', behind, rfl, spelledRight⟩ := mark_of_kinds spelledRest
    obtain ⟨d, rfl, meaning⟩ := first.operand .elsewhere spelledLeft
    obtain ⟨d', rfl, meaning'⟩ := second.operand .elsewhere spelledRight
    have shown : (Expr.compare op sign.token left right).written =
        .compare op sign'.token.bare left.written right.written := by
      rw [← sign.bare_eq sign']
      rfl
    rw [shown, ← meaning, ← meaning']
    exact ⟨.compare op d sign' d', rfl, rfl⟩
  | neg sign operand _ ih =>
    intro ts spelled
    obtain ⟨sign', behind, rfl, spelledOperand⟩ := mark_of_kinds spelled
    obtain ⟨d, rfl, meaning⟩ := ih.operand .elsewhere spelledOperand
    have shown : (Expr.neg sign.token operand).written = .neg sign'.token.bare operand.written := by
      rw [← sign.bare_eq sign']
      rfl
    rw [shown, ← meaning]
    exact ⟨.neg sign' d, rfl, rfl⟩
  | quant quantifier sign bound body _ ih =>
    intro ts spelled
    rw [spelling, sign.isSymbol] at spelled
    obtain ⟨sign', behindSign, rfl, spelledRest⟩ := mark_of_kinds spelled
    obtain ⟨bound', behindBound, rfl, same, spelledBehind⟩ := name_of_kinds spelledRest
    obtain ⟨dot, behind, rfl, spelledBody⟩ := mark_of_kinds spelledBehind
    obtain ⟨d, rfl, meaning⟩ := (ih behind spelledBody).quantified
    refine ⟨.quant quantifier sign' bound' dot d, rfl, ?_⟩
    rw [Derivation.meaning, written_quantify, meaning, sign'.bare_eq sign,
      Token.bare_eq_iff.mpr same]
    rfl

end Expr

end PredicateCalculus
