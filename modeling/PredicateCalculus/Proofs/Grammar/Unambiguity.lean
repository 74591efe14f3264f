import PredicateCalculus.Proofs.Grammar.Completeness
import PredicateCalculus.Proofs.Grammar.Soundness

/-! # One derivation for each list

Two derivations of one construct at the front of one list are the same, as long as neither is
followed by something that continues the construct. Where the grammar has a choice, the first symbol
that differs decides. With the theorems about the readers this is all there is to say about them.

* `Derivation.unique`: at most one derivation at the front of a list.
* `Parser.whole_iff_derivation`: the lists that are read are those that have a derivation.
-/

set_option autoImplicit false

namespace PredicateCalculus

open PredicateCalculus.Parser

/-! ## Tokens that differ -/

theorem Quantifier.symbol_injective : Function.Injective Quantifier.symbol := by
  intro left right h
  cases left <;> cases right <;> first | rfl | cases h

theorem Comparison.symbol_injective : Function.Injective Comparison.symbol := by
  intro left right h
  cases left <;> cases right <;> first | rfl | cases h

theorem Connective.symbol_injective : Function.Injective Connective.symbol := by
  intro left right h
  cases left <;> cases right <;> first | rfl | cases h

theorem Mark.symbol_eq {s s' : Symbol} {mark : Mark s} {mark' : Mark s'}
    (h : mark.token = mark'.token) : s = s' := by
  have kinds : mark.token.kind = mark'.token.kind := congrArg Token.kind h
  rw [mark.isSymbol, mark'.isSymbol] at kinds
  exact TokenKind.symbol.inj kinds

theorem Mark.ne_name {s : Symbol} (mark : Mark s) (name : Name) : mark.token ≠ name.token := by
  intro h
  have kinds : mark.token.kind = name.token.kind := congrArg Token.kind h
  rw [mark.isSymbol, name.isIdentifier] at kinds
  cases kinds

theorem Mark.comparison_not_stopsAt {op : Comparison} (sign : Mark op.symbol) {ts : List Token}
    (h : Nonterminal.comparison.StopsAt (symbolAhead (sign.token :: ts))) : False := by
  have decided := Comparison.ofSymbol?_symbol op
  have undecided := h.2
  rw [sign.ahead, Option.bind_some, decided] at undecided
  cases undecided

namespace Derivation

/-! ## The front of a list -/

/-- A quantifier is no beginning of a term. -/
theorem quantifier_not_begins {quantifier : Quantifier} {sign : Mark quantifier.symbol}
    {ts rest : List Token} {d : Derivation .implication}
    (h : sign.token :: ts = d.tokens ++ rest) : False := by
  obtain ⟨t, others, eq, opensTerm⟩ := d.opens trivial
  rw [eq, List.cons_append, List.cons.injEq] at h
  have decided := Quantifier.ofSymbol?_symbol quantifier
  have undecided := opensTerm.not_quantifier
  rw [← h.1, sign.symbol?_eq, Option.bind_some, decided] at undecided
  cases undecided

/-- A list of arguments that is empty ends at once. -/
theorem closing_not_begins {ts rest : List Token} {d : Derivation .term}
    (closed : symbolAhead ts = some .rightParen) (h : d.tokens ++ rest = ts) : False := by
  obtain ⟨t, others, eq, opensTerm⟩ := d.opens trivial
  rw [← h, eq] at closed
  exact opensTerm.not_rightParen closed

/-- Nothing stops before its own links. -/
theorem not_stopsAt {op : ChainOp} (d : Derivation (.links op)) {rest : List Token}
    (h : Nonterminal.chain.StopsAt (symbolAhead (d.tokens ++ rest))) : False := by
  obtain ⟨sign, ts, eq⟩ := d.begins
  have decided := Connective.ofChainSymbol?_symbol op
  have undecided := h.2.2
  rw [eq, List.cons_append, sign.ahead, Option.bind_some, decided] at undecided
  cases undecided

theorem links_op_eq {op op' : ChainOp} {d : Derivation (.links op)} {d' : Derivation (.links op')}
    {rest rest' : List Token} (h : d.tokens ++ rest = d'.tokens ++ rest') : op = op' := by
  obtain ⟨sign, ts, eq⟩ := d.begins
  obtain ⟨sign', ts', eq'⟩ := d'.begins
  rw [eq, eq'] at h
  exact Subtype.ext (Connective.symbol_injective (Mark.symbol_eq (List.cons.inj h).1))

/-! ## Uniqueness -/

theorem unique {l : Nonterminal} (d d' : Derivation l) {rest rest' : List Token}
    (stops : l.StopsAt (symbolAhead rest)) (stops' : l.StopsAt (symbolAhead rest'))
    (eq : d.tokens ++ rest = d'.tokens ++ rest') : d = d' ∧ rest = rest' := by
  -- Where the second derivation takes another production, the part that both begin with is the
  -- same by induction, and what follows it contradicts one of the two stops.
  induction d generalizing rest rest' with
  | quant quantifier sign bound dot body ih =>
    cases d' with
    | ofImplication inner => exact (quantifier_not_begins eq).elim
    | quant quantifier' sign' bound' dot' body' =>
      simp only [tokens, List.cons_append, List.cons.injEq] at eq
      obtain ⟨eqSign, eqBound, eqDot, eqBody⟩ := eq
      obtain rfl := Quantifier.symbol_injective (Mark.symbol_eq eqSign)
      obtain ⟨rfl, rfl⟩ := ih body' stops stops' eqBody
      rw [Mark.ext eqSign, Name.ext eqBound, Mark.ext eqDot]
      exact ⟨rfl, rfl⟩
  | ofImplication inner ih =>
    cases d' with
    | quant => exact (quantifier_not_begins eq.symm).elim
    | ofImplication inner' =>
      obtain ⟨rfl, rfl⟩ := ih inner' stops.implication stops'.implication eq
      exact ⟨rfl, rfl⟩
  | implies left sign right ihLeft ihRight =>
    have stopsLeft : Nonterminal.chain.StopsAt (symbolAhead (sign.token :: (right.tokens ++ rest))) :=
      sign.ahead _ ▸ Nonterminal.chain_stopsAt_implies
    rw [tokens, List.append_assoc, List.cons_append] at eq
    cases d' with
    | ofChain inner' =>
      obtain ⟨-, rfl⟩ := ihLeft inner' stopsLeft stops'.chain eq
      exact absurd (sign.ahead _) stops'.2.2.2
    | implies left' sign' right' =>
      rw [tokens, List.append_assoc, List.cons_append] at eq
      obtain ⟨rfl, eqRest⟩ :=
        ihLeft left' stopsLeft (sign'.ahead _ ▸ Nonterminal.chain_stopsAt_implies) eq
      obtain ⟨eqSign, eqRight⟩ := List.cons.inj eqRest
      obtain ⟨rfl, rfl⟩ := ihRight right' stops stops' eqRight
      rw [Mark.ext eqSign]
      exact ⟨rfl, rfl⟩
  | ofChain inner ih =>
    cases d' with
    | ofChain inner' =>
      obtain ⟨rfl, rfl⟩ := ih inner' stops.chain stops'.chain eq
      exact ⟨rfl, rfl⟩
    | implies left' sign' right' =>
      rw [tokens, tokens, List.append_assoc, List.cons_append] at eq
      obtain ⟨-, rfl⟩ :=
        ih left' stops.chain (sign'.ahead _ ▸ Nonterminal.chain_stopsAt_implies) eq
      exact absurd (sign'.ahead _) stops.2.2.2
  | joined op first links ihFirst ihLinks =>
    rw [tokens, List.append_assoc] at eq
    cases d' with
    | ofComparison inner' =>
      obtain ⟨-, rfl⟩ :=
        ihFirst inner' (links.comparison_stopsAt rest) stops'.comparison eq
      exact (links.not_stopsAt stops').elim
    | joined op' first' links' =>
      rw [tokens, List.append_assoc] at eq
      obtain ⟨rfl, eqLinks⟩ := ihFirst first' (links.comparison_stopsAt rest)
        (links'.comparison_stopsAt rest') eq
      obtain rfl : op = op' := links_op_eq eqLinks
      obtain ⟨rfl, rfl⟩ := ihLinks links' stops stops' eqLinks
      exact ⟨rfl, rfl⟩
  | ofComparison inner ih =>
    cases d' with
    | ofComparison inner' =>
      obtain ⟨rfl, rfl⟩ := ih inner' stops.comparison stops'.comparison eq
      exact ⟨rfl, rfl⟩
    | joined op' first' links' =>
      rw [tokens, tokens, List.append_assoc] at eq
      obtain ⟨-, rfl⟩ :=
        ih first' stops.comparison (links'.comparison_stopsAt rest') eq
      exact (links'.not_stopsAt stops).elim
  | link op sign right more ihRight ihMore =>
    rw [tokens, List.cons_append, List.append_assoc] at eq
    cases d' with
    | lastLink _ sign' right' =>
      obtain ⟨-, eqRight⟩ := List.cons.inj eq
      obtain ⟨-, rfl⟩ := ihRight right' (more.comparison_stopsAt rest)
        (Nonterminal.StopsAt.comparison stops') eqRight
      exact (more.not_stopsAt stops').elim
    | link _ sign' right' more' =>
      rw [tokens, List.cons_append, List.append_assoc] at eq
      obtain ⟨eqSign, eqRight⟩ := List.cons.inj eq
      obtain ⟨rfl, eqMore⟩ := ihRight right' (more.comparison_stopsAt rest)
        (more'.comparison_stopsAt rest') eqRight
      obtain ⟨rfl, rfl⟩ := ihMore more' stops stops' eqMore
      rw [Mark.ext eqSign]
      exact ⟨rfl, rfl⟩
  | lastLink op sign right ih =>
    cases d' with
    | lastLink _ sign' right' =>
      obtain ⟨eqSign, eqRight⟩ := List.cons.inj eq
      obtain ⟨rfl, rfl⟩ := ih right' (Nonterminal.StopsAt.comparison stops)
        (Nonterminal.StopsAt.comparison stops') eqRight
      rw [Mark.ext eqSign]
      exact ⟨rfl, rfl⟩
    | link _ sign' right' more' =>
      rw [tokens, tokens, List.cons_append, List.cons_append, List.append_assoc] at eq
      obtain ⟨-, eqRight⟩ := List.cons.inj eq
      obtain ⟨-, rfl⟩ := ih right' (Nonterminal.StopsAt.comparison stops)
        (more'.comparison_stopsAt rest') eqRight
      exact (more'.not_stopsAt stops).elim
  | compare op left sign right ihLeft ihRight =>
    have stopsLeft : Nonterminal.term.StopsAt (symbolAhead (sign.token :: (right.tokens ++ rest))) :=
      sign.ahead _ ▸ Nonterminal.term_stopsAt_comparison op
    rw [tokens, List.append_assoc, List.cons_append] at eq
    cases d' with
    | ofTerm inner' =>
      obtain ⟨-, rfl⟩ := ihLeft inner' stopsLeft stops'.term eq
      exact (sign.comparison_not_stopsAt stops').elim
    | compare op' left' sign' right' =>
      rw [tokens, List.append_assoc, List.cons_append] at eq
      obtain ⟨rfl, eqRest⟩ :=
        ihLeft left' stopsLeft (sign'.ahead _ ▸ Nonterminal.term_stopsAt_comparison op') eq
      obtain ⟨eqSign, eqRight⟩ := List.cons.inj eqRest
      obtain rfl := Comparison.symbol_injective (Mark.symbol_eq eqSign)
      obtain ⟨rfl, rfl⟩ := ihRight right' stops.term stops'.term eqRight
      rw [Mark.ext eqSign]
      exact ⟨rfl, rfl⟩
  | ofTerm inner ih =>
    cases d' with
    | ofTerm inner' =>
      obtain ⟨rfl, rfl⟩ := ih inner' stops.term stops'.term eq
      exact ⟨rfl, rfl⟩
    | compare op' left' sign' right' =>
      rw [tokens, tokens, List.append_assoc, List.cons_append] at eq
      obtain ⟨-, rfl⟩ :=
        ih left' stops.term (sign'.ahead _ ▸ Nonterminal.term_stopsAt_comparison op') eq
      exact (sign'.comparison_not_stopsAt stops).elim
  | brackets opening inner closing ih =>
    cases d' with
    | brackets opening' inner' closing' =>
      simp only [tokens, List.cons_append, List.append_assoc, List.cons.injEq] at eq
      obtain ⟨eqOpening, eqInner⟩ := eq
      obtain ⟨rfl, eqRest⟩ := ih inner' (closing.ahead _ ▸ Nonterminal.stopsAt_rightParen _)
        (closing'.ahead _ ▸ Nonterminal.stopsAt_rightParen _) eqInner
      obtain ⟨eqClosing, rfl⟩ := List.cons.inj eqRest
      rw [Mark.ext eqOpening, Mark.ext eqClosing]
      exact ⟨rfl, rfl⟩
    | app _ head' => exact absurd (List.cons.inj eq).1 (opening.ne_name head')
    | var name' => exact absurd (List.cons.inj eq).1 (opening.ne_name name')
    | neg sign' operand' => cases Mark.symbol_eq (List.cons.inj eq).1
  | app kind head suits opening arguments closing ih =>
    cases d' with
    | brackets opening' => exact absurd (List.cons.inj eq).1.symm (opening'.ne_name head)
    | app kind' head' suits' opening' arguments' closing' =>
      simp only [tokens, List.cons_append, List.append_assoc, List.cons.injEq] at eq
      obtain ⟨eqHead, eqOpening, eqArguments⟩ := eq
      obtain rfl := Name.ext eqHead
      have same : some kind = some kind' :=
        ((HeadKind.ofName?_eq_some_iff head.isName).mpr suits).symm.trans
          ((HeadKind.ofName?_eq_some_iff head.isName).mpr suits')
      obtain rfl := Option.some.inj same
      obtain ⟨rfl, eqRest⟩ := ih arguments' (closing.ahead _ ▸ Nonterminal.stopsAt_rightParen _)
        (closing'.ahead _ ▸ Nonterminal.stopsAt_rightParen _) eqArguments
      obtain ⟨eqClosing, rfl⟩ := List.cons.inj eqRest
      rw [Mark.ext eqOpening, Mark.ext eqClosing]
      exact ⟨rfl, rfl⟩
    | var name' =>
      obtain ⟨-, rfl⟩ := List.cons.inj eq
      exact absurd (opening.ahead _) stops'
    | neg sign' => exact absurd (List.cons.inj eq).1.symm (sign'.ne_name head)
  | var name =>
    cases d' with
    | brackets opening' => exact absurd (List.cons.inj eq).1.symm (opening'.ne_name name)
    | app _ head' _ opening' =>
      obtain ⟨-, rfl⟩ := List.cons.inj eq
      exact absurd (opening'.ahead _) stops
    | var name' =>
      obtain ⟨eqName, rfl⟩ := List.cons.inj eq
      rw [Name.ext eqName]
      exact ⟨rfl, rfl⟩
    | neg sign' => exact absurd (List.cons.inj eq).1.symm (sign'.ne_name name)
  | neg sign operand ih =>
    cases d' with
    | brackets opening' => cases Mark.symbol_eq (List.cons.inj eq).1
    | app _ head' => exact absurd (List.cons.inj eq).1 (sign.ne_name head')
    | var name' => exact absurd (List.cons.inj eq).1 (sign.ne_name name')
    | neg sign' operand' =>
      obtain ⟨eqSign, eqOperand⟩ := List.cons.inj eq
      obtain ⟨rfl, rfl⟩ := ih operand' stops stops' eqOperand
      rw [Mark.ext eqSign]
      exact ⟨rfl, rfl⟩
  | noArguments =>
    cases d' with
    | noArguments => exact ⟨rfl, eq⟩
    | someArguments first' more' =>
      rw [tokens, tokens, List.append_assoc] at eq
      exact (closing_not_begins stops eq.symm).elim
  | someArguments first more ihFirst ihMore =>
    rw [tokens, List.append_assoc] at eq
    cases d' with
    | noArguments => exact (closing_not_begins stops' eq).elim
    | someArguments first' more' =>
      rw [tokens, List.append_assoc] at eq
      obtain ⟨rfl, eqMore⟩ :=
        ihFirst first' (more.term_stopsAt stops) (more'.term_stopsAt stops') eq
      obtain ⟨rfl, rfl⟩ := ihMore more' stops stops' eqMore
      exact ⟨rfl, rfl⟩
  | noFurther =>
    cases d' with
    | noFurther => exact ⟨rfl, eq⟩
    | further comma' next' more' =>
      rw [tokens, List.nil_append] at eq
      have closed : symbolAhead rest = some .rightParen := stops
      rw [eq, tokens, List.cons_append, comma'.ahead] at closed
      cases closed
  | further comma next more ihNext ihMore =>
    cases d' with
    | noFurther =>
      rw [tokens, tokens, List.nil_append] at eq
      have closed : symbolAhead rest' = some .rightParen := stops'
      rw [← eq, List.cons_append, comma.ahead] at closed
      cases closed
    | further comma' next' more' =>
      simp only [tokens, List.cons_append, List.append_assoc, List.cons.injEq] at eq
      obtain ⟨eqComma, eqNext⟩ := eq
      obtain ⟨rfl, eqMore⟩ :=
        ihNext next' (more.term_stopsAt stops) (more'.term_stopsAt stops') eqNext
      obtain ⟨rfl, rfl⟩ := ihMore more' stops stops' eqMore
      rw [Mark.ext eqComma]
      exact ⟨rfl, rfl⟩

end Derivation

/-! ## Whole lists -/

namespace Parser

theorem derivation_of_whole {ts : List Token} {e : Expr} (lexed : Lexed ts)
    (h : whole ts = .ok e) : ∃ d : Derivation .quantified, d.tokens = ts ∧ d.meaning = e := by
  rw [whole_eq] at h
  obtain ⟨⟨value, rest⟩, read, h⟩ := bind_eq_ok.mp h
  simp only at h
  split at h
  · next atEnd =>
    obtain ⟨d, meaning, tokens⟩ := derivation_of_quantified lexed read
    rw [List.isEmpty_iff.mp atEnd, List.append_nil] at tokens
    exact ⟨d, tokens, meaning.trans (Except.ok.inj h)⟩
  · cases h

/-- Reading a list of tokens finds its derivation, of which there is at most one, and fails when
there is none. -/
theorem whole_iff_derivation {source : String} {ts : List Token}
    (h : Lexer.tokenize source = .ok ts) :
    (∀ e, whole ts = .ok e ↔ ∃ d : Derivation .quantified, d.tokens = ts ∧ d.meaning = e) ∧
      (∀ d d' : Derivation .quantified, d.tokens = ts → d'.tokens = ts → d = d') ∧
      ((∀ d : Derivation .quantified, d.tokens ≠ ts) → ∃ fault, whole ts = .error fault) := by
  have sound : ∀ e, whole ts = .ok e →
      ∃ d : Derivation .quantified, d.tokens = ts ∧ d.meaning = e :=
    fun e => derivation_of_whole (lexed_of_tokenize h)
  refine ⟨fun e => ⟨sound e, ?_⟩, ?_, fun none => ?_⟩
  · rintro ⟨d, rfl, rfl⟩
    exact d.whole_tokens
  · intro d d' tokens tokens'
    have eq : d.tokens ++ [] = d'.tokens ++ [] := by rw [tokens, tokens']
    have ends : Nonterminal.quantified.StopsAt (symbolAhead []) := Nonterminal.quantified_stopsAt_end
    exact (d.unique d' ends ends eq).1
  · cases read : whole ts with
    | error fault => exact ⟨fault, rfl⟩
    | ok e =>
      obtain ⟨d, tokens, -⟩ := sound e read
      exact absurd tokens (none d)

/-- A chain of one connective has a derivation and one that mixes connectives has none. -/
theorem whole_iff_derivation_of_chain :
    (∃ ts e, Lexer.tokenize "P(x) ^ ~y ^ z" = .ok ts ∧ whole ts = .ok e ∧
      ∃ d : Derivation .quantified, d.tokens = ts ∧ d.meaning = e) ∧
    ∃ ts, Lexer.tokenize "x ^ y v z" = .ok ts ∧ ∀ d : Derivation .quantified, d.tokens ≠ ts := by
  obtain ⟨ts, lexed, read⟩ := exists_ok_of_any (Lexer.tokenize "P(x) ^ ~y ^ z")
    (fun ts => (whole ts).isOk) (by decide +kernel)
  obtain ⟨us, lexed', fails⟩ := exists_ok_of_any (Lexer.tokenize "x ^ y v z")
    (fun ts => !(whole ts).isOk) (by decide +kernel)
  refine ⟨?_, us, lexed', fun d tokens => ?_⟩
  · cases parsed : whole ts with
    | error fault =>
      rw [parsed] at read
      cases read
    | ok e => exact ⟨ts, e, lexed, parsed, ((whole_iff_derivation lexed).1 e).mp parsed⟩
  · have parsed := ((whole_iff_derivation lexed').1 d.meaning).mpr ⟨d, tokens, rfl⟩
    rw [parsed] at fails
    cases fails

end Parser

end PredicateCalculus
