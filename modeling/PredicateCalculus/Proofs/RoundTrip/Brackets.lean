import Mathlib.Logic.Relation
import PredicateCalculus.Proofs.Equality.Alike
import PredicateCalculus.Proofs.Grammar.Lookahead
import PredicateCalculus.Proofs.RoundTrip.Parse
import PredicateCalculus.Proofs.Token.Brackets

/-! # Brackets that can be left out

The tokens of a text are those of the written form of what is read from it, but for pairs of
brackets around operands. These pairs can be left out one after another.

* `Balanced`: the brackets of a list belong together in pairs.
* `DropsBrackets`, `Reduces`: one pair of brackets around an operand is left out, or any number.
* `Fitted`: a list can be reduced to the written form of an expression, and to that form in brackets
  where the construct of the grammar would not have it without.
* `Derivation.fitted`: the tokens of a derivation can be reduced so.
-/

set_option autoImplicit false

namespace PredicateCalculus

/-! ## Pairs of brackets -/

def TokenKind.isBracket : TokenKind → Bool
  | .symbol .leftParen | .symbol .rightParen => true
  | _ => false

theorem TokenKind.isBracket_eq (kind : TokenKind) : kind.isBracket = kind.bracket?.isSome := by
  cases kind with
  | symbol symbol => cases symbol <;> rfl
  | identifier name => rfl

inductive Balanced : List Token → Prop where
  | nil : Balanced []
  | other {t : Token} {ts : List Token} (other : t.kind.isBracket = false) (rest : Balanced ts) :
      Balanced (t :: ts)
  | pair (opening : Mark .leftParen) (closing : Mark .rightParen) {inner ts : List Token}
      (inside : Balanced inner) (rest : Balanced ts) :
      Balanced (opening.token :: (inner ++ closing.token :: ts))

/-- What comes next does not stand behind a name, so a bracket there does not open arguments. -/
def Apart (front : List Token) : Prop :=
  front.getLast?.all (!Token.isIdentifier ·) = true

inductive DropsBrackets : List Token → List Token → Prop where
  | pair (front : List Token) (opening : Mark .leftParen) (inner : List Token)
      (closing : Mark .rightParen) (back : List Token) (apart : Apart front)
      (inside : Balanced inner) :
      DropsBrackets (front ++ opening.token :: (inner ++ closing.token :: back))
        (front ++ (inner ++ back))

abbrev Reduces : List Token → List Token → Prop :=
  Relation.ReflTransGen DropsBrackets

section

variable {ts ts' : List Token}

theorem Balanced.append (h : Balanced ts) (h' : Balanced ts') : Balanced (ts ++ ts') := by
  induction h with
  | nil => exact h'
  | other other _ ih => exact .other other ih
  | pair opening closing inside _ ihInside ih =>
    rw [List.cons_append, List.append_assoc, List.cons_append]
    exact .pair opening closing inside ih

theorem Balanced.mark {s : Symbol} (h : Balanced ts) (sign : Mark s)
    (other : (TokenKind.symbol s).isBracket = false) : Balanced (sign.token :: ts) :=
  .other (by rw [sign.isSymbol]; exact other) h

theorem Balanced.name (h : Balanced ts) (name : Name) : Balanced (name.token :: ts) :=
  .other (by rw [name.isIdentifier]; rfl) h

theorem Balanced.enclosed (h : Balanced ts) (opening : Mark .leftParen)
    (closing : Mark .rightParen) : Balanced (opening.token :: (ts ++ [closing.token])) :=
  .pair opening closing h .nil

theorem apart_nil : Apart [] := rfl

theorem Apart.append {front : List Token} (h : Apart front) (h' : Apart ts) :
    Apart (front ++ ts) := by
  rw [Apart, List.getLast?_append]
  cases last : ts.getLast? with
  | none => exact h
  | some t =>
    rw [Apart, last] at h'
    exact h'

theorem apart_mark {s : Symbol} (front : List Token) (sign : Mark s) :
    Apart (front ++ [sign.token]) := by
  simp [Apart, Token.isIdentifier, sign.isSymbol]

theorem DropsBrackets.within (h : DropsBrackets ts ts') {front : List Token} (apart : Apart front)
    (back : List Token) : DropsBrackets (front ++ (ts ++ back)) (front ++ (ts' ++ back)) := by
  obtain ⟨before, opening, inner, closing, behind, apart', inside⟩ := h
  have step := DropsBrackets.pair (front ++ before) opening inner closing (behind ++ back)
    (apart.append apart') inside
  simpa using step

theorem Reduces.within (h : Reduces ts ts') {front : List Token} (apart : Apart front)
    (back : List Token) : Reduces (front ++ (ts ++ back)) (front ++ (ts' ++ back)) :=
  h.lift (fun us => front ++ (us ++ back)) fun _ _ step => step.within apart back

/-- On both sides of a sign. -/
theorem Reduces.around {us us' : List Token} {s : Symbol} (h : Reduces ts ts') (sign : Mark s)
    (h' : Reduces us us') : Reduces (ts ++ sign.token :: us) (ts' ++ sign.token :: us') := by
  have before := h.within apart_nil (sign.token :: us)
  have behind := h'.within (apart_mark ts' sign) []
  simp only [List.append_nil, List.append_assoc, List.singleton_append] at behind
  exact Relation.ReflTransGen.trans before behind

end

/-! ## Spellings -/

namespace Expr

def operandKinds (place : PredicateCalculus.Place) (e : Expr) : List TokenKind :=
  bracketedKinds (e.needsBrackets place) e.spelling

theorem spellingAll_eq (arguments : List Expr) :
    spellingAll arguments =
      List.intercalate [.symbol .comma] (arguments.map (operandKinds .elsewhere)) := by
  induction arguments with
  | nil => rfl
  | cons e rest ih =>
    cases rest with
    | nil => simp [spellingAll, operandKinds, List.intercalate]
    | cons e' rest => simp [spellingAll, operandKinds, ih, List.intercalate]

/-- What is a link of a chain already needs no brackets in front of the next one. -/
theorem operandKinds_chain (op : ChainOp) (token : Token) (left right : Expr) :
    (connect op.val token left right).operandKinds (.leftOf op.val) =
      (connect op.val token left right).spelling := by
  obtain ⟨op, chained⟩ := op
  cases op with
  | implies => exact absurd rfl chained
  | _ => rfl

/-- Binding does not change the tokens. -/
theorem spelling_bind (e : Expr) (name : String) (depth : Nat) :
    (e.bind name depth).spelling = e.spelling := by
  induction e generalizing depth with
  | var token reference => rfl
  | app kind head arguments ih =>
    have operands : (arguments.map (bind name depth)).map (operandKinds .elsewhere) =
        arguments.map (operandKinds .elsewhere) := by
      rw [List.map_map]
      refine List.map_congr_left fun e member => ?_
      simp only [Function.comp_apply, operandKinds, needsBrackets_bind, ih e member depth]
    simp only [bind, spelling, bindAll_eq, spellingAll_eq, operands]
  | connect op token left right ihLeft ihRight =>
    simp only [bind, spelling, needsBrackets_bind, ihLeft, ihRight]
  | compare op token left right ihLeft ihRight =>
    simp only [bind, spelling, needsBrackets_bind, ihLeft, ihRight]
  | neg token operand ih => simp only [bind, spelling, needsBrackets_bind, ih]
  | quant quantifier token bound body ih => simp only [bind, spelling, ih]

end Expr

/-! ## Operands -/

open PredicateCalculus.Expr

namespace Level

theorem Fits.trans {inner middle outer : Level} (h : inner.Fits middle) (h' : middle.Fits outer) :
    inner.Fits outer := by
  rcases h with rfl | less
  · exact h'
  · rcases h' with rfl | less'
    · exact .inr less
    · exact .inr (by omega)

end Level

/-- A list for an expression: its brackets can be left out as far as the written form has none, and
where the level of the expression does not fit, the outermost pair can be kept. -/
structure Fitted (level : Level) (ts : List Token) (e : Expr) : Prop where
  plain : ∃ kept, Reduces ts kept ∧ kept.map Token.kind = e.spelling
  enclosed : ¬e.level.Fits level →
    ∃ kept, Reduces ts kept ∧ kept.map Token.kind = bracketedKinds true e.spelling

section

variable {level : Level} {ts : List Token} {e : Expr}

theorem Fitted.of_fits (fits : e.level.Fits level)
    (plain : ∃ kept, Reduces ts kept ∧ kept.map Token.kind = e.spelling) : Fitted level ts e :=
  ⟨plain, fun loose => absurd fits loose⟩

theorem Fitted.loosen {outer : Level} (h : Fitted level ts e) (fits : level.Fits outer) :
    Fitted outer ts e :=
  ⟨h.plain, fun loose => h.enclosed fun inner => loose (inner.trans fits)⟩

theorem Fitted.operand (h : Fitted level ts e) (place : Place) (fits : level.Fits place.level) :
    ∃ kept, Reduces ts kept ∧
      kept.map Token.kind = e.operandKinds place := by
  rw [operandKinds]
  cases brackets : e.needsBrackets place with
  | false => exact h.plain
  | true => exact (h.loosen fits).enclosed (Level.not_fits_of_needsBrackets brackets)

/-- One more operand of a chain. -/
theorem Fitted.link {op : ChainOp} {left : Expr} {front : List Token}
    (h : Fitted .comparison ts e) (sign : Mark op.val.symbol)
    (spelled : front.map Token.kind = left.operandKinds (.leftOf op.val)) :
    ∃ kept, Reduces (front ++ sign.token :: ts) kept ∧
      kept.map Token.kind = (connect op.val sign.token left e).spelling := by
  have fits : Level.comparison.Fits (Place.rightOf op.val).level := by
    rw [Place.level, if_neg op.property]
    exact .inl rfl
  obtain ⟨back, reduces, spelledBack⟩ := h.operand (.rightOf op.val) fits
  refine ⟨front ++ sign.token :: back, Reduces.around .refl sign reduces, ?_⟩
  rw [List.map_append, List.map_cons, spelled, spelledBack]
  rfl

end

namespace Nonterminal

/-- What the tokens of a construct can be reduced to. Links and further arguments are reduced
together with what stands in front of them, which is reduced already. -/
def Simplifies : (l : Nonterminal) → List Token → l.Meaning → Prop
  | .quantified, ts, e => Fitted .quantified ts e
  | .implication, ts, e => Fitted .implication ts e
  | .chain, ts, e => Fitted .chain ts e
  | .links op, ts, extend =>
    ∀ (left : Expr) (front : List Token),
      front.map Token.kind = left.operandKinds (.leftOf op.val) →
        (extend left).level = .joined op ∧
          ∃ kept, Reduces (front ++ ts) kept ∧ kept.map Token.kind = (extend left).spelling
  | .comparison, ts, e => Fitted .comparison ts e
  | .term, ts, e => Fitted .term ts e
  | .arguments, ts, es => ∃ kept, Reduces ts kept ∧ kept.map Token.kind = spellingAll es
  | .furtherArguments, ts, es =>
    ∀ (first : Expr) (front : List Token),
      front.map Token.kind = first.operandKinds .elsewhere →
        ∃ kept, Reduces (front ++ ts) kept ∧ kept.map Token.kind = spellingAll (first :: es)

end Nonterminal

namespace Derivation

theorem balanced {l : Nonterminal} (d : Derivation l) : Balanced d.tokens := by
  induction d with
  | quant quantifier sign bound dot body ih =>
    exact ((ih.mark dot (by decide)).name bound).mark sign (by cases quantifier <;> decide)
  | ofImplication inner ih => exact ih
  | implies left sign right ihLeft ihRight =>
    exact ihLeft.append (ihRight.mark sign (by decide))
  | ofChain inner ih => exact ih
  | joined op first links ihFirst ihLinks => exact ihFirst.append ihLinks
  | ofComparison inner ih => exact ih
  | link op sign right more ihRight ihMore =>
    exact (ihRight.append ihMore).mark sign (by cases op.val <;> decide)
  | lastLink op sign right ih => exact ih.mark sign (by cases op.val <;> decide)
  | compare op left sign right ihLeft ihRight =>
    exact ihLeft.append (ihRight.mark sign (by cases op <;> decide))
  | ofTerm inner ih => exact ih
  | brackets opening inner closing ih => exact ih.enclosed opening closing
  | app kind head suits opening arguments closing ih =>
    exact (ih.enclosed opening closing).name head
  | var name => exact Balanced.nil.name name
  | neg sign operand ih => exact ih.mark sign (by decide)
  | noArguments => exact .nil
  | someArguments first more ihFirst ihMore => exact ihFirst.append ihMore
  | noFurther => exact .nil
  | further comma next more ihNext ihMore =>
    exact (ihNext.append ihMore).mark comma (by decide)

theorem fitted {l : Nonterminal} (d : Derivation l) : l.Simplifies d.tokens d.meaning := by
  induction d with
  | quant quantifier sign bound dot body ih =>
    obtain ⟨kept, reduces, spelled⟩ := Fitted.plain ih
    refine Fitted.of_fits (.inl rfl) ⟨sign.token :: bound.token :: dot.token :: kept, ?_, ?_⟩
    · have step := reduces.within (apart_mark [sign.token, bound.token] dot) []
      simpa [tokens] using step
    · rw [meaning, quantify, spelling, spelling_bind, ← spelled, ← dot.isSymbol]
      rfl
  | ofImplication inner ih => exact Fitted.loosen ih (by simp [Level.Fits, Level.rank])
  | implies left sign right ihLeft ihRight =>
    obtain ⟨front, reduces, spelled⟩ := Fitted.operand ihLeft (.leftOf .implies) (.inl rfl)
    obtain ⟨back, reduces', spelled'⟩ := Fitted.operand ihRight (.rightOf .implies) (.inl rfl)
    refine Fitted.of_fits (.inl rfl) ⟨_, reduces.around sign reduces', ?_⟩
    rw [List.map_append, List.map_cons, spelled, spelled']
    rfl
  | ofChain inner ih => exact Fitted.loosen ih (by simp [Level.Fits, Level.rank])
  | joined op first links ihFirst ihLinks =>
    have fits : Level.comparison.Fits (Place.leftOf op.val).level := by
      rw [Place.level, dif_neg op.property]
      exact .inr (Nat.lt_succ_self _)
    obtain ⟨front, reduces, spelled⟩ := Fitted.operand ihFirst (.leftOf op.val) fits
    obtain ⟨level, kept, reduces', spelled'⟩ := ihLinks first.meaning front spelled
    refine Fitted.of_fits ?_ ⟨kept, ?_, spelled'⟩
    · rw [meaning, level]
      exact .inr (Nat.lt_succ_self _)
    · exact (reduces.within apart_nil links.tokens).trans reduces'
  | ofComparison inner ih => exact Fitted.loosen ih (by simp [Level.Fits, Level.rank])
  | link op sign right more ihRight ihMore =>
    intro left front spelled
    obtain ⟨joined, reduces, spelledJoined⟩ := Fitted.link ihRight sign spelled
    rw [← operandKinds_chain] at spelledJoined
    obtain ⟨level, kept, reduces', spelledMore⟩ := ihMore _ joined spelledJoined
    refine ⟨level, kept, ?_, spelledMore⟩
    have first := reduces.within apart_nil more.tokens
    simp only [List.nil_append, List.append_assoc, List.cons_append] at first
    exact Relation.ReflTransGen.trans first reduces'
  | lastLink op sign right ih =>
    intro left front spelled
    refine ⟨?_, Fitted.link ih sign spelled⟩
    rw [meaning, level, dif_neg op.property]
  | compare op left sign right ihLeft ihRight =>
    obtain ⟨front, reduces, spelled⟩ := Fitted.operand ihLeft .elsewhere (.inl rfl)
    obtain ⟨back, reduces', spelled'⟩ := Fitted.operand ihRight .elsewhere (.inl rfl)
    refine Fitted.of_fits (.inl rfl) ⟨_, reduces.around sign reduces', ?_⟩
    rw [List.map_append, List.map_cons, spelled, spelled']
    rfl
  | ofTerm inner ih => exact Fitted.loosen ih (by simp [Level.Fits, Level.rank])
  | brackets opening inner closing ih =>
    obtain ⟨kept, reduces, spelled⟩ := Fitted.plain ih
    refine ⟨⟨kept, ?_, spelled⟩, fun _ => ⟨opening.token :: (kept ++ [closing.token]), ?_, ?_⟩⟩
    · have step := DropsBrackets.pair [] opening inner.tokens closing [] apart_nil inner.balanced
      rw [List.nil_append, List.nil_append, List.append_nil] at step
      exact reduces.head step
    · exact reduces.within (apart_mark [] opening) [closing.token]
    · rw [List.map_cons, List.map_append, spelled, opening.isSymbol, List.map_singleton,
        closing.isSymbol]
      rfl
  | app kind head suits opening arguments closing ih =>
    obtain ⟨kept, reduces, spelled⟩ := ih
    refine Fitted.of_fits (.inl rfl)
      ⟨head.token :: opening.token :: (kept ++ [closing.token]), ?_, ?_⟩
    · exact Reduces.within reduces (apart_mark [head.token] opening) [closing.token]
    · rw [List.map_cons, List.map_cons, List.map_append, spelled, opening.isSymbol,
        List.map_singleton, closing.isSymbol]
      rfl
  | var name => exact Fitted.of_fits (.inl rfl) ⟨_, .refl, rfl⟩
  | neg sign operand ih =>
    obtain ⟨kept, reduces, spelled⟩ := Fitted.operand ih .elsewhere (.inl rfl)
    refine Fitted.of_fits (.inl rfl) ⟨sign.token :: kept, ?_, ?_⟩
    · have step := reduces.within (apart_mark [] sign) []
      simpa [tokens] using step
    · rw [List.map_cons, spelled, sign.isSymbol]
      rfl
  | noArguments => exact ⟨[], .refl, rfl⟩
  | someArguments first more ihFirst ihMore =>
    obtain ⟨front, reduces, spelled⟩ := Fitted.operand ihFirst .elsewhere (.inl rfl)
    obtain ⟨kept, reduces', spelled'⟩ := ihMore first.meaning front spelled
    exact ⟨kept, (reduces.within apart_nil more.tokens).trans reduces', spelled'⟩
  | noFurther =>
    intro first front spelled
    exact ⟨front, by rw [tokens, List.append_nil], spelled⟩
  | further comma next more ihNext ihMore =>
    intro first front spelled
    obtain ⟨second, reduces, spelledNext⟩ := Fitted.operand ihNext .elsewhere (.inl rfl)
    obtain ⟨kept, reduces', spelledMore⟩ := ihMore next.meaning second spelledNext
    refine ⟨front ++ comma.token :: kept, ?_, ?_⟩
    · have onward := (reduces.within apart_nil more.tokens).trans reduces'
      have step := Reduces.within onward (apart_mark front comma) []
      simpa [tokens] using step
    · rw [List.map_append, List.map_cons, spelled, spelledMore, comma.isSymbol]
      rfl

end Derivation

end PredicateCalculus
