import PredicateCalculus.Proofs.Grammar.Derivation
import PredicateCalculus.Proofs.Grammar.Steps

/-! # Derived lists are read

The reader of a construct takes the tokens of a derivation off a list, and no more, as long as what
follows does not continue the construct. It hands back the meaning of the derivation. The proof is
one induction on derivations, with a case for each production.

* `Reads`: what the reader of a construct makes of a list.
* `Derivation.reads`: the reader of a construct reads every derivation of it.
-/

set_option autoImplicit false

namespace PredicateCalculus

open PredicateCalculus.Parser

/-- Links are read after any expression that is joined by the same connective so far, if by any. -/
def Reads : (l : Nonterminal) → l.Meaning → List Token → List Token → Prop
  | .quantified, e, ts, rest => plain (quantified ts) = .ok (e, rest)
  | .implication, e, ts, rest => plain (implication ts) = .ok (e, rest)
  | .chain, e, ts, rest => plain (chain ts) = .ok (e, rest)
  | .links op, extend, ts, rest => ∀ joined left, ¬joined.any (· != op.val) = true →
    plain (links joined left ts) = .ok (extend left, rest)
  | .comparison, e, ts, rest => plain (comparison ts) = .ok (e, rest)
  | .term, e, ts, rest => plain (term ts) = .ok (e, rest)
  | .arguments, es, ts, rest => plain (arguments ts) = .ok (es, rest)
  | .furtherArguments, es, ts, rest => plain (furtherArguments ts) = .ok (es, rest)

/-! ## Tokens that fit -/

theorem plain_identifier_name (name : Name) (ts : List Token) :
    plain (identifier (name.token :: ts)) = .ok (name.token, ts) := by
  rw [plain_identifier]
  simp [Token.isIdentifier, name.isIdentifier]

theorem plain_symbol_mark {s : Symbol} (mark : Mark s) (ts : List Token) :
    plain (symbol s (mark.token :: ts)) = .ok (mark.token, ts) := by
  rw [plain_symbol, mark.ahead, if_pos rfl]
  rfl

theorem Quantifier.ofSymbol?_symbol (quantifier : Quantifier) :
    Quantifier.ofSymbol? quantifier.symbol = some quantifier := by
  cases quantifier <;> rfl

theorem Comparison.ofSymbol?_symbol (op : Comparison) :
    Comparison.ofSymbol? op.symbol = some op := by
  cases op <;> rfl

theorem Connective.ofChainSymbol?_symbol (op : ChainOp) :
    Connective.ofChainSymbol? op.val.symbol = some op.val := by
  obtain ⟨op, chains⟩ := op
  cases op with
  | and => rfl
  | or => rfl
  | implies => exact absurd rfl chains

/-! ## Productions -/

namespace Derivation

theorem reads {l : Nonterminal} (d : Derivation l) {rest : List Token}
    (stops : l.StopsAt (symbolAhead rest)) : Reads l d.meaning (d.tokens ++ rest) rest := by
  induction d generalizing rest with
  | quant quantifier sign bound dot body ih =>
    show plain (quantified (sign.token :: bound.token :: dot.token :: (body.tokens ++ rest))) = _
    have decided : (some quantifier.symbol).bind Quantifier.ofSymbol? = some quantifier :=
      Quantifier.ofSymbol?_symbol quantifier
    have inner : plain (quantified (body.tokens ++ rest)) = .ok (body.meaning, rest) := ih stops
    rw [plain_quantified, sign.ahead, decided]
    simp only [List.tail_cons, List.headD_cons, plain_identifier_name, bind, Except.bind,
      plain_symbol_mark, inner]
    rfl
  | ofImplication inner ih =>
    obtain ⟨t, ts, eq, opensTerm⟩ := inner.opens trivial
    have undecided : (symbolAhead (inner.tokens ++ rest)).bind Quantifier.ofSymbol? = none := by
      rw [eq]
      exact opensTerm.not_quantifier
    show plain (quantified (inner.tokens ++ rest)) = _
    rw [plain_quantified, undecided]
    exact ih stops.implication
  | implies left sign right ihLeft ihRight =>
    show plain (implication ((left.tokens ++ sign.token :: right.tokens) ++ rest)) = _
    have first : plain (chain (left.tokens ++ sign.token :: (right.tokens ++ rest))) =
        .ok (left.meaning, sign.token :: (right.tokens ++ rest)) :=
      ihLeft (by rw [sign.ahead]; exact Nonterminal.chain_stopsAt_implies)
    have second : plain (implication (right.tokens ++ rest)) = .ok (right.meaning, rest) :=
      ihRight stops
    rw [List.append_assoc, List.cons_append, plain_implication, first]
    simp only [bind, Except.bind, sign.ahead, if_true, List.tail_cons, List.headD_cons, second]
    rfl
  | ofChain inner ih =>
    show plain (implication (inner.tokens ++ rest)) = _
    have only : plain (chain (inner.tokens ++ rest)) = .ok (inner.meaning, rest) := ih stops.chain
    have noArrow : symbolAhead rest ≠ some .implies := stops.2.2.2
    rw [plain_implication, only]
    simp only [bind, Except.bind, if_neg noArrow]
    rfl
  | joined op first links ihFirst ihLinks =>
    show plain (chain ((first.tokens ++ links.tokens) ++ rest)) = _
    have start : plain (comparison (first.tokens ++ (links.tokens ++ rest))) =
        .ok (first.meaning, links.tokens ++ rest) := ihFirst (links.comparison_stopsAt rest)
    rw [List.append_assoc, plain_chain, start]
    exact ihLinks stops none first.meaning (by simp)
  | ofComparison inner ih =>
    show plain (chain (inner.tokens ++ rest)) = _
    have only : plain (comparison (inner.tokens ++ rest)) = .ok (inner.meaning, rest) :=
      ih stops.comparison
    have noLink : (symbolAhead rest).bind Connective.ofChainSymbol? = none := stops.2.2
    rw [plain_chain, only]
    simp only [bind, Except.bind]
    rw [plain_links, noLink]
    rfl
  | link op sign right more ihRight ihMore =>
    intro joined left fits
    show plain (links joined left (sign.token :: ((right.tokens ++ more.tokens) ++ rest))) = _
    have decided : (some op.val.symbol).bind Connective.ofChainSymbol? = some op.val :=
      Connective.ofChainSymbol?_symbol op
    have first : plain (comparison (right.tokens ++ (more.tokens ++ rest))) =
        .ok (right.meaning, more.tokens ++ rest) := ihRight (more.comparison_stopsAt rest)
    rw [plain_links, sign.ahead, decided]
    simp only [if_neg fits, List.tail_cons, List.headD_cons]
    rw [List.append_assoc, first]
    exact ihMore stops (some op.val) _ (by simp)
  | lastLink op sign right ih =>
    intro joined left fits
    show plain (links joined left (sign.token :: (right.tokens ++ rest))) = _
    have decided : (some op.val.symbol).bind Connective.ofChainSymbol? = some op.val :=
      Connective.ofChainSymbol?_symbol op
    have only : plain (comparison (right.tokens ++ rest)) = .ok (right.meaning, rest) :=
      ih (Nonterminal.StopsAt.comparison stops)
    have noLink : (symbolAhead rest).bind Connective.ofChainSymbol? = none := stops.2.2
    rw [plain_links, sign.ahead, decided]
    simp only [if_neg fits, List.tail_cons, List.headD_cons, only, bind, Except.bind]
    rw [plain_links, noLink]
    rfl
  | compare op left sign right ihLeft ihRight =>
    show plain (comparison ((left.tokens ++ sign.token :: right.tokens) ++ rest)) = _
    have decided : (some op.symbol).bind Comparison.ofSymbol? = some op :=
      Comparison.ofSymbol?_symbol op
    have first : plain (term (left.tokens ++ sign.token :: (right.tokens ++ rest))) =
        .ok (left.meaning, sign.token :: (right.tokens ++ rest)) :=
      ihLeft (by rw [sign.ahead]; exact Nonterminal.term_stopsAt_comparison op)
    have second : plain (term (right.tokens ++ rest)) = .ok (right.meaning, rest) :=
      ihRight stops.term
    rw [List.append_assoc, List.cons_append, plain_comparison, first]
    simp only [bind, Except.bind, sign.ahead]
    rw [show Option.bind (some op.symbol) Comparison.ofSymbol? = some op from decided]
    simp only [List.tail_cons, List.headD_cons, second]
    rfl
  | ofTerm inner ih =>
    show plain (comparison (inner.tokens ++ rest)) = _
    have only : plain (term (inner.tokens ++ rest)) = .ok (inner.meaning, rest) := ih stops.term
    have noSign : (symbolAhead rest).bind Comparison.ofSymbol? = none := stops.2
    rw [plain_comparison, only]
    simp only [bind, Except.bind]
    rw [show Option.bind (symbolAhead rest) Comparison.ofSymbol? = none from noSign]
    rfl
  | brackets opening inner closing ih =>
    show plain (term (opening.token :: ((inner.tokens ++ [closing.token]) ++ rest))) = _
    have body : plain (quantified (inner.tokens ++ closing.token :: rest)) =
        .ok (inner.meaning, closing.token :: rest) :=
      ih (by rw [closing.ahead]; exact Nonterminal.stopsAt_rightParen _)
    rw [plain_term_brackets opening.isSymbol, List.append_assoc, List.singleton_append, body]
    simp only [bind, Except.bind, plain_symbol_mark]
    rfl
  | app kind head suits opening arguments closing ih =>
    show plain (term (head.token :: opening.token ::
      ((arguments.tokens ++ [closing.token]) ++ rest))) = _
    have inner : plain (Parser.arguments (arguments.tokens ++ closing.token :: rest)) =
        .ok (arguments.meaning, closing.token :: rest) :=
      ih (by rw [closing.ahead]; exact Nonterminal.stopsAt_rightParen _)
    rw [plain_term_identifier head.isIdentifier, opening.ahead, if_pos rfl,
      (HeadKind.ofName?_eq_some_iff head.isName).mpr suits, List.append_assoc,
      List.singleton_append]
    simp only [List.tail_cons, inner, bind, Except.bind, plain_symbol_mark]
    rfl
  | var name =>
    show plain (term (name.token :: rest)) = _
    rw [plain_term_identifier name.isIdentifier, if_neg stops]
    rfl
  | neg sign operand ih =>
    show plain (term (sign.token :: (operand.tokens ++ rest))) = _
    have inner : plain (term (operand.tokens ++ rest)) = .ok (operand.meaning, rest) := ih stops
    rw [plain_term_neg sign.isSymbol, inner]
    rfl
  | noArguments =>
    have closed : symbolAhead rest = some .rightParen := stops
    show plain (arguments rest) = _
    rw [plain_arguments, if_pos closed]
    rfl
  | someArguments first more ihFirst ihMore =>
    show plain (arguments ((first.tokens ++ more.tokens) ++ rest)) = _
    obtain ⟨t, ts, eq, opensTerm⟩ := first.opens trivial
    have unclosed : symbolAhead (first.tokens ++ (more.tokens ++ rest)) ≠ some .rightParen := by
      rw [eq]
      exact opensTerm.not_rightParen
    have start : plain (term (first.tokens ++ (more.tokens ++ rest))) =
        .ok (first.meaning, more.tokens ++ rest) := ihFirst (more.term_stopsAt stops)
    have following : plain (furtherArguments (more.tokens ++ rest)) = .ok (more.meaning, rest) :=
      ihMore stops
    rw [List.append_assoc, plain_arguments, if_neg unclosed, start]
    simp only [bind, Except.bind, following]
    rfl
  | noFurther =>
    have closed : symbolAhead rest = some .rightParen := stops
    have noComma : symbolAhead rest ≠ some .comma := by simp [closed]
    show plain (furtherArguments rest) = _
    rw [plain_furtherArguments, if_neg noComma]
    rfl
  | further comma next more ihNext ihMore =>
    show plain (furtherArguments (comma.token :: ((next.tokens ++ more.tokens) ++ rest))) = _
    have start : plain (term (next.tokens ++ (more.tokens ++ rest))) =
        .ok (next.meaning, more.tokens ++ rest) := ihNext (more.term_stopsAt stops)
    have following : plain (furtherArguments (more.tokens ++ rest)) = .ok (more.meaning, rest) :=
      ihMore stops
    rw [plain_furtherArguments, comma.ahead, if_pos rfl, List.tail_cons, List.append_assoc, start]
    simp only [bind, Except.bind, following]
    rfl

end Derivation

/-- A whole list that has a derivation is read as what it stands for. -/
theorem Derivation.whole_tokens (d : Derivation .quantified) : whole d.tokens = .ok d.meaning := by
  have read : plain (quantified (d.tokens ++ [])) = .ok (d.meaning, []) :=
    d.reads Nonterminal.quantified_stopsAt_end
  rw [List.append_nil] at read
  rw [whole_eq, read]
  rfl

end PredicateCalculus
