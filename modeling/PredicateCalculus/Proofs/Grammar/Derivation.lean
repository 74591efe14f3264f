import PredicateCalculus.Expr.Parser
import PredicateCalculus.Proofs.Token.Name

/-! # Derivations

A derivation shows how a list of tokens comes from the grammar. There is one constructor for each
production, and a token stands in it together with the proof that it is what the production asks
for. The expression of a derivation is built from the inside, quantifiers binding by name.

* `Nonterminal`: the constructs of the grammar. The links of a chain are all of one connective.
* `Derivation`: the derivations of a construct.
* `Derivation.tokens`, `Derivation.meaning`: the tokens derived and what they stand for.
* `Nonterminal.StopsAt`: the next symbol does not continue the construct.
* `Derivation.opens`: how terms, and what begins with a term, begin.
-/

set_option autoImplicit false

namespace PredicateCalculus

/-- Names of functions are written in lower case, names of predicates in upper case. -/
def HeadKind.Suits : HeadKind → String → Prop
  | .function, name => ∀ c ∈ name.toList, c.isLower = true
  | .predicate, name => ∀ c ∈ name.toList, c.isUpper = true

namespace HeadKind

theorem isFunctionName_iff {name : String} (h : IsName name) :
    isFunctionName name = true ↔ Suits .function name := by
  have nonempty : name.isEmpty = false := by simpa using h.nonempty
  simp only [isFunctionName, nonempty, Bool.not_false, Bool.true_and, List.all_eq_true,
    Bool.or_eq_true, Suits]
  refine forall₂_congr fun c member => or_iff_left fun digit => ?_
  have letter := h.letters c member
  rw [isAlpha_iff, isUpper_iff, isLower_iff] at letter
  have atMostNine : c.toNat ≤ 57 := (Char.isDigit_iff_toNat.mp digit).2
  omega

theorem isPredicateName_iff {name : String} (h : IsName name) :
    isPredicateName name = true ↔ Suits .predicate name := by
  have nonempty : name.isEmpty = false := by simpa using h.nonempty
  simp only [isPredicateName, nonempty, Bool.not_false, Bool.true_and, List.all_eq_true, Suits]

theorem not_both {name : String} (h : IsName name) (lower : Suits .function name)
    (upper : Suits .predicate name) : False := by
  obtain ⟨c, others, chars⟩ := List.exists_cons_of_ne_nil h.nonempty
  have member : c ∈ name.toList := by rw [chars]; exact List.mem_cons_self
  have low := isLower_iff.mp (lower c member)
  have high := isUpper_iff.mp (upper c member)
  omega

theorem ofName?_eq_some_iff {kind : HeadKind} {name : String} (h : IsName name) :
    ofName? name = some kind ↔ kind.Suits name := by
  rw [ofName?]
  by_cases lower : isFunctionName name = true
  · have low := (isFunctionName_iff h).mp lower
    rw [if_pos lower, Option.some.injEq]
    cases kind with
    | function => exact iff_of_true rfl low
    | predicate => exact iff_of_false (by simp) fun upper => not_both h low upper
  · rw [if_neg lower]
    by_cases upper : isPredicateName name = true
    · have high := (isPredicateName_iff h).mp upper
      rw [if_pos upper, Option.some.injEq]
      cases kind with
      | function => exact iff_of_false (by simp) fun low => not_both h low high
      | predicate => exact iff_of_true rfl high
    · rw [if_neg upper]
      refine iff_of_false (by simp) fun suits => ?_
      cases kind with
      | function => exact lower ((isFunctionName_iff h).mpr suits)
      | predicate => exact upper ((isPredicateName_iff h).mpr suits)

end HeadKind

/-- The connectives that make chains. -/
abbrev ChainOp := { op : Connective // op ≠ .implies }

inductive Nonterminal where
  | quantified
  | implication
  | chain
  | links (op : ChainOp)
  | comparison
  | term
  | arguments
  | furtherArguments

namespace Nonterminal

/-- Links stand for what they make of the expression to their left. -/
@[reducible] def Meaning : Nonterminal → Type
  | .quantified => Expr
  | .implication => Expr
  | .chain => Expr
  | .links _ => Expr → Expr
  | .comparison => Expr
  | .term => Expr
  | .arguments => List Expr
  | .furtherArguments => List Expr

end Nonterminal

inductive Derivation : Nonterminal → Type where
  | quant (quantifier : Quantifier) (sign : Mark quantifier.symbol) (bound : Name)
      (dot : Mark .dot) (body : Derivation .quantified) : Derivation .quantified
  | ofImplication (inner : Derivation .implication) : Derivation .quantified
  | implies (left : Derivation .chain) (sign : Mark .implies) (right : Derivation .implication) :
      Derivation .implication
  | ofChain (inner : Derivation .chain) : Derivation .implication
  | joined (op : ChainOp) (first : Derivation .comparison) (links : Derivation (.links op)) :
      Derivation .chain
  | ofComparison (inner : Derivation .comparison) : Derivation .chain
  | link (op : ChainOp) (sign : Mark op.val.symbol) (right : Derivation .comparison)
      (more : Derivation (.links op)) : Derivation (.links op)
  | lastLink (op : ChainOp) (sign : Mark op.val.symbol) (right : Derivation .comparison) :
      Derivation (.links op)
  | compare (op : Comparison) (left : Derivation .term) (sign : Mark op.symbol)
      (right : Derivation .term) : Derivation .comparison
  | ofTerm (inner : Derivation .term) : Derivation .comparison
  | brackets (opening : Mark .leftParen) (inner : Derivation .quantified)
      (closing : Mark .rightParen) : Derivation .term
  | app (kind : HeadKind) (head : Name) (suits : kind.Suits head.token.text)
      (opening : Mark .leftParen) (arguments : Derivation .arguments)
      (closing : Mark .rightParen) : Derivation .term
  | var (name : Name) : Derivation .term
  | neg (sign : Mark .not) (operand : Derivation .term) : Derivation .term
  | noArguments : Derivation .arguments
  | someArguments (first : Derivation .term) (more : Derivation .furtherArguments) :
      Derivation .arguments
  | noFurther : Derivation .furtherArguments
  | further (comma : Mark .comma) (next : Derivation .term)
      (more : Derivation .furtherArguments) : Derivation .furtherArguments

namespace Derivation

def tokens {l : Nonterminal} : Derivation l → List Token
  | .quant _ sign bound dot body => sign.token :: bound.token :: dot.token :: body.tokens
  | .ofImplication inner => inner.tokens
  | .implies left sign right => left.tokens ++ sign.token :: right.tokens
  | .ofChain inner => inner.tokens
  | .joined _ first links => first.tokens ++ links.tokens
  | .ofComparison inner => inner.tokens
  | .link _ sign right more => sign.token :: (right.tokens ++ more.tokens)
  | .lastLink _ sign right => sign.token :: right.tokens
  | .compare _ left sign right => left.tokens ++ sign.token :: right.tokens
  | .ofTerm inner => inner.tokens
  | .brackets opening inner closing => opening.token :: (inner.tokens ++ [closing.token])
  | .app _ head _ opening arguments closing =>
    head.token :: opening.token :: (arguments.tokens ++ [closing.token])
  | .var name => [name.token]
  | .neg sign operand => sign.token :: operand.tokens
  | .noArguments => []
  | .someArguments first more => first.tokens ++ more.tokens
  | .noFurther => []
  | .further comma next more => comma.token :: (next.tokens ++ more.tokens)

def meaning {l : Nonterminal} : Derivation l → l.Meaning
  | .quant quantifier sign bound _ body =>
    Expr.quantify quantifier sign.token bound.token body.meaning
  | .ofImplication inner => inner.meaning
  | .implies left sign right => Expr.connect .implies sign.token left.meaning right.meaning
  | .ofChain inner => inner.meaning
  | .joined _ first links => links.meaning first.meaning
  | .ofComparison inner => inner.meaning
  | .link op sign right more => fun left =>
    more.meaning (Expr.connect op sign.token left right.meaning)
  | .lastLink op sign right => fun left => Expr.connect op sign.token left right.meaning
  | .compare op left sign right => Expr.compare op sign.token left.meaning right.meaning
  | .ofTerm inner => inner.meaning
  | .brackets _ inner _ => inner.meaning
  | .app kind head _ _ arguments _ => Expr.app kind head.token arguments.meaning
  | .var name => Expr.named name.token
  | .neg sign operand => Expr.neg sign.token operand.meaning
  | .noArguments => []
  | .someArguments first more => first.meaning :: more.meaning
  | .noFurther => []
  | .further _ next more => next.meaning :: more.meaning

end Derivation

/-! ## What may follow -/

namespace Nonterminal

def StopsAt (ahead : Option Symbol) : Nonterminal → Prop
  | .term => ahead ≠ some .leftParen
  | .comparison => ahead ≠ some .leftParen ∧ ahead.bind Comparison.ofSymbol? = none
  | .chain | .links _ =>
    ahead ≠ some .leftParen ∧ ahead.bind Comparison.ofSymbol? = none ∧
      ahead.bind Connective.ofChainSymbol? = none
  | .implication | .quantified =>
    ahead ≠ some .leftParen ∧ ahead.bind Comparison.ofSymbol? = none ∧
      ahead.bind Connective.ofChainSymbol? = none ∧ ahead ≠ some .implies
  | .arguments | .furtherArguments => ahead = some .rightParen

theorem stopsAt_rightParen (l : Nonterminal) : l.StopsAt (some .rightParen) := by
  cases l <;> simp [StopsAt, Comparison.ofSymbol?, Connective.ofChainSymbol?]

theorem quantified_stopsAt_end : quantified.StopsAt none := by
  simp [StopsAt]

theorem term_stopsAt_comma : term.StopsAt (some .comma) := by
  simp [StopsAt]

theorem term_stopsAt_comparison (op : Comparison) : term.StopsAt (some op.symbol) := by
  cases op <;> simp [StopsAt, Comparison.symbol]

theorem comparison_stopsAt_connective (op : Connective) :
    comparison.StopsAt (some op.symbol) := by
  cases op <;> simp [StopsAt, Connective.symbol, Comparison.ofSymbol?]

theorem chain_stopsAt_implies : chain.StopsAt (some .implies) := by
  simp [StopsAt, Comparison.ofSymbol?, Connective.ofChainSymbol?]

section

variable {ahead : Option Symbol}

theorem StopsAt.implication (h : quantified.StopsAt ahead) : implication.StopsAt ahead := h

theorem StopsAt.chain (h : Nonterminal.implication.StopsAt ahead) :
    Nonterminal.chain.StopsAt ahead :=
  ⟨h.1, h.2.1, h.2.2.1⟩

theorem StopsAt.comparison (h : Nonterminal.chain.StopsAt ahead) :
    Nonterminal.comparison.StopsAt ahead :=
  ⟨h.1, h.2.1⟩

theorem StopsAt.term (h : Nonterminal.comparison.StopsAt ahead) :
    Nonterminal.term.StopsAt ahead :=
  h.1

end

end Nonterminal

/-! ## How a construct begins -/

namespace Mark

variable {s : Symbol}

theorem symbol?_eq (mark : Mark s) : mark.token.symbol? = some s := by
  rw [Token.symbol?, mark.isSymbol]

theorem ahead (mark : Mark s) (ts : List Token) :
    Parser.symbolAhead (mark.token :: ts) = some s :=
  mark.symbol?_eq

end Mark

namespace Token

def OpensTerm (t : Token) : Prop :=
  t.kind = .symbol .leftParen ∨ t.kind = .symbol .not ∨ t.kind = .identifier t.text

theorem OpensTerm.symbol? {t : Token} (h : t.OpensTerm) :
    t.symbol? = some .leftParen ∨ t.symbol? = some .not ∨ t.symbol? = none := by
  rcases h with kind | kind | kind <;> simp [Token.symbol?, kind]

theorem OpensTerm.not_quantifier {t : Token} (h : t.OpensTerm) :
    t.symbol?.bind Quantifier.ofSymbol? = none := by
  rcases h.symbol? with symbol | symbol | symbol <;> rw [symbol] <;> rfl

theorem OpensTerm.not_rightParen {t : Token} (h : t.OpensTerm) :
    t.symbol? ≠ some .rightParen := by
  rcases h.symbol? with symbol | symbol | symbol <;> simp [symbol]

end Token

namespace Nonterminal

def OpensWithTerm : Nonterminal → Prop
  | .implication | .chain | .comparison | .term => True
  | _ => False

end Nonterminal

namespace Derivation

theorem opens {l : Nonterminal} (d : Derivation l) (h : l.OpensWithTerm) :
    ∃ t ts, d.tokens = t :: ts ∧ t.OpensTerm := by
  induction d with
  | implies left sign right ihLeft ihRight =>
    obtain ⟨t, ts, eq, opensTerm⟩ := ihLeft trivial
    exact ⟨t, ts ++ sign.token :: right.tokens, by simp [tokens, eq], opensTerm⟩
  | ofChain inner ih => exact ih trivial
  | joined op first links ihFirst ihLinks =>
    obtain ⟨t, ts, eq, opensTerm⟩ := ihFirst trivial
    exact ⟨t, ts ++ links.tokens, by simp [tokens, eq], opensTerm⟩
  | ofComparison inner ih => exact ih trivial
  | compare op left sign right ihLeft ihRight =>
    obtain ⟨t, ts, eq, opensTerm⟩ := ihLeft trivial
    exact ⟨t, ts ++ sign.token :: right.tokens, by simp [tokens, eq], opensTerm⟩
  | ofTerm inner ih => exact ih trivial
  | brackets opening inner closing => exact ⟨_, _, rfl, Or.inl opening.isSymbol⟩
  | app kind head suits opening arguments closing =>
    exact ⟨_, _, rfl, Or.inr (Or.inr head.isIdentifier)⟩
  | var name => exact ⟨_, _, rfl, Or.inr (Or.inr name.isIdentifier)⟩
  | neg sign operand => exact ⟨_, _, rfl, Or.inr (Or.inl sign.isSymbol)⟩
  | _ => exact h.elim

/-- Links begin with the sign of their connective. -/
theorem begins {op : ChainOp} (d : Derivation (.links op)) :
    ∃ (sign : Mark op.val.symbol) (ts : List Token), d.tokens = sign.token :: ts := by
  cases d with
  | link _ sign right more => exact ⟨sign, _, rfl⟩
  | lastLink _ sign right => exact ⟨sign, _, rfl⟩

theorem comparison_stopsAt {op : ChainOp} (d : Derivation (.links op)) (rest : List Token) :
    Nonterminal.comparison.StopsAt (Parser.symbolAhead (d.tokens ++ rest)) := by
  obtain ⟨sign, ts, eq⟩ := d.begins
  rw [eq, List.cons_append, sign.ahead]
  exact Nonterminal.comparison_stopsAt_connective op.val

/-- An argument is followed by a comma or by the closing bracket. -/
theorem term_stopsAt (d : Derivation .furtherArguments) {rest : List Token}
    (h : Nonterminal.furtherArguments.StopsAt (Parser.symbolAhead rest)) :
    Nonterminal.term.StopsAt (Parser.symbolAhead (d.tokens ++ rest)) := by
  cases d with
  | noFurther =>
    rw [tokens, List.nil_append, show Parser.symbolAhead rest = some .rightParen from h]
    exact Nonterminal.stopsAt_rightParen .term
  | further comma next more =>
    rw [tokens, List.cons_append, comma.ahead]
    exact Nonterminal.term_stopsAt_comma

end Derivation

end PredicateCalculus
