import PredicateCalculus.Proofs.Grammar.Derivation
import PredicateCalculus.Proofs.Grammar.Steps
import PredicateCalculus.Proofs.Token.Decomposition

/-! # What is read is derived

Whatever a reader takes off a list has a derivation, and what it hands back is the meaning of that
derivation. The argument follows the readers: each of the theorems below is about one of them and
uses the theorems about those that it calls.

* `Lexed`: the identifiers of a list are names.
* `derivation_of_quantified` and the theorems about the other readers.
-/

set_option autoImplicit false

namespace PredicateCalculus

open PredicateCalculus.Parser

/-- The identifiers of the list are names, as they are when the list was read from a text. -/
def Lexed (ts : List Token) : Prop :=
  ∀ t ∈ ts, ∀ name, t.kind = .identifier name → IsName name

theorem lexed_of_tokenize {source : String} {ts : List Token}
    (h : Lexer.tokenize source = .ok ts) : Lexed ts :=
  (Lexer.decomposes_of_tokenize h).isName

section

variable {ts rest : List Token} {t : Token}

theorem Lexed.of_append (h : Lexed ts) (front : List Token) (eq : front ++ rest = ts) :
    Lexed rest :=
  fun t member => h t (by rw [← eq]; exact List.mem_append_right front member)

theorem Lexed.name (h : Lexed ts) (member : t ∈ ts) (isIdentifier : t.isIdentifier = true) :
    ∃ name : Name, name.token = t := by
  unfold Token.isIdentifier at isIdentifier
  split at isIdentifier
  · cases isIdentifier
  · next text kind =>
    have same : t.text = text := by rw [Token.text, kind]
    exact ⟨⟨t, by rw [kind, same], by rw [same]; exact h t member text kind⟩, rfl⟩

theorem mark_of_symbolAhead {s : Symbol} (h : symbolAhead ts = some s) :
    ∃ (mark : Mark s) (rest : List Token), ts = mark.token :: rest := by
  obtain ⟨t, rest, eq, kind⟩ := symbolAhead_eq_some h
  exact ⟨⟨t, kind⟩, rest, eq⟩

theorem name_of_identifier (lexed : Lexed ts) (h : plain (identifier ts) = .ok (t, rest)) :
    ∃ name : Name, name.token = t ∧ name.token :: rest = ts := by
  rw [plain_identifier] at h
  split at h
  · next isIdentifier =>
    cases ts with
    | nil => cases isIdentifier
    | cons u ts =>
      obtain ⟨rfl, rfl⟩ := Prod.mk.inj (Except.ok.inj h)
      obtain ⟨name, eq⟩ := lexed.name List.mem_cons_self isIdentifier
      exact ⟨name, eq, by rw [eq]; rfl⟩
  · cases h

theorem mark_of_symbol {s : Symbol} (h : plain (symbol s ts) = .ok (t, rest)) :
    ∃ mark : Mark s, mark.token = t ∧ mark.token :: rest = ts := by
  rw [plain_symbol] at h
  split at h
  · next ahead =>
    obtain ⟨mark, others, rfl⟩ := mark_of_symbolAhead ahead
    obtain ⟨rfl, rfl⟩ := Prod.mk.inj (Except.ok.inj h)
    exact ⟨mark, rfl, rfl⟩
  · cases h

theorem Quantifier.symbol_of_ofSymbol? {s : Symbol} {quantifier : Quantifier}
    (h : Quantifier.ofSymbol? s = some quantifier) : s = quantifier.symbol := by
  cases s <;> cases h <;> rfl

theorem Comparison.symbol_of_ofSymbol? {s : Symbol} {op : Comparison}
    (h : Comparison.ofSymbol? s = some op) : s = op.symbol := by
  cases s <;> cases h <;> rfl

theorem Connective.chainOp_of_ofChainSymbol? {s : Symbol} {op : Connective}
    (h : Connective.ofChainSymbol? s = some op) :
    ∃ chainOp : ChainOp, chainOp.val = op ∧ s = chainOp.val.symbol := by
  cases s <;> cases h
  · exact ⟨⟨.and, by simp⟩, rfl, rfl⟩
  · exact ⟨⟨.or, by simp⟩, rfl, rfl⟩

end

/-! ## Readers -/

-- The measure is that of the readers: a shorter list, or the same list and a tighter construct.
mutual

theorem derivation_of_quantified {ts rest : List Token} {e : Expr} (lexed : Lexed ts)
    (h : plain (quantified ts) = .ok (e, rest)) :
    ∃ d : Derivation .quantified, d.meaning = e ∧ d.tokens ++ rest = ts := by
  rw [plain_quantified] at h
  split at h
  · obtain ⟨d, meaning, tokens⟩ := derivation_of_implication lexed h
    exact ⟨.ofImplication d, meaning, tokens⟩
  · next quantifier found =>
    obtain ⟨s, ahead, decided⟩ := Option.bind_eq_some_iff.mp found
    obtain rfl := Quantifier.symbol_of_ofSymbol? decided
    obtain ⟨sign, afterSign, eqSign⟩ := mark_of_symbolAhead ahead
    rw [eqSign, List.tail_cons, List.headD_cons] at h
    rw [eqSign] at lexed ⊢
    obtain ⟨⟨boundToken, afterName⟩, readName, h⟩ := bind_eq_ok.mp h
    obtain ⟨⟨dotToken, afterDot⟩, readDot, h⟩ := bind_eq_ok.mp h
    obtain ⟨⟨bodyExpr, afterBody⟩, readBody, h⟩ := bind_eq_ok.mp h
    obtain ⟨rfl, rfl⟩ := Prod.mk.inj (Except.ok.inj h)
    obtain ⟨bound, rfl, eqName⟩ :=
      name_of_identifier (lexed.of_append [sign.token] rfl) readName
    obtain ⟨dot, rfl, eqDot⟩ := mark_of_symbol readDot
    have eqFront : bound.token :: dot.token :: afterDot = afterSign := by rw [eqDot, eqName]
    obtain ⟨body, rfl, eqBody⟩ := derivation_of_quantified
      (lexed.of_append [sign.token, bound.token, dot.token] (by rw [← eqFront]; rfl))
      readBody
    exact ⟨.quant quantifier sign bound dot body, rfl, by rw [← eqFront, ← eqBody]; rfl⟩
termination_by 6 * ts.length + 5
decreasing_by
  · omega
  · have lengths : ts.length = afterDot.length + 3 := by
      rw [eqSign, ← eqFront]
      rfl
    omega

theorem derivation_of_implication {ts rest : List Token} {e : Expr} (lexed : Lexed ts)
    (h : plain (implication ts) = .ok (e, rest)) :
    ∃ d : Derivation .implication, d.meaning = e ∧ d.tokens ++ rest = ts := by
  rw [plain_implication] at h
  obtain ⟨⟨leftExpr, afterLeft⟩, readLeft, h⟩ := bind_eq_ok.mp h
  obtain ⟨left, rfl, eqLeft⟩ := derivation_of_chain lexed readLeft
  have shorter := length_lt_of_plain readLeft
  simp only at h
  split at h
  · next ahead =>
    obtain ⟨sign, afterSign, eqSign⟩ := mark_of_symbolAhead ahead
    rw [eqSign] at h eqLeft
    obtain ⟨⟨rightExpr, afterRight⟩, readRight, h⟩ := bind_eq_ok.mp h
    obtain ⟨rfl, rfl⟩ := Prod.mk.inj (Except.ok.inj h)
    obtain ⟨right, rfl, eqRight⟩ := derivation_of_implication
      (lexed.of_append (left.tokens ++ [sign.token]) (by simpa using eqLeft)) readRight
    refine ⟨.implies left sign right, rfl, ?_⟩
    rw [List.tail_cons] at eqRight
    rw [← eqLeft, ← eqRight]
    simp [Derivation.tokens]
  · obtain ⟨rfl, rfl⟩ := Prod.mk.inj (Except.ok.inj h)
    exact ⟨.ofChain left, rfl, eqLeft⟩
termination_by 6 * ts.length + 4
decreasing_by
  · omega
  · have := congrArg List.length eqSign
    simp only [List.length_cons, List.tail_cons] at *
    omega

theorem derivation_of_chain {ts rest : List Token} {e : Expr} (lexed : Lexed ts)
    (h : plain (chain ts) = .ok (e, rest)) :
    ∃ d : Derivation .chain, d.meaning = e ∧ d.tokens ++ rest = ts := by
  rw [plain_chain] at h
  obtain ⟨⟨firstExpr, afterFirst⟩, readFirst, h⟩ := bind_eq_ok.mp h
  obtain ⟨first, rfl, eqFirst⟩ := derivation_of_comparison lexed readFirst
  have shorter := length_lt_of_plain readFirst
  rcases derivation_of_links (lexed.of_append _ eqFirst) h with ⟨rfl, rfl⟩ | ⟨op, links, -, rfl, eq⟩
  · exact ⟨.ofComparison first, rfl, eqFirst⟩
  · exact ⟨.joined op first links, rfl, by
      rw [← eqFirst, ← eq, Derivation.tokens, List.append_assoc]⟩
termination_by 6 * ts.length + 3
decreasing_by all_goals omega

/-- Either there is no link, or all links are of one connective, the one that joined before. -/
theorem derivation_of_links {joined : Option Connective} {left : Expr} {ts rest : List Token}
    {e : Expr} (lexed : Lexed ts) (h : plain (links joined left ts) = .ok (e, rest)) :
    (left = e ∧ rest = ts) ∨
      ∃ (op : ChainOp) (d : Derivation (.links op)), ¬joined.any (· != op.val) = true ∧
        d.meaning left = e ∧ d.tokens ++ rest = ts := by
  rw [plain_links] at h
  split at h
  · obtain ⟨rfl, rfl⟩ := Prod.mk.inj (Except.ok.inj h)
    exact Or.inl ⟨rfl, rfl⟩
  · next symbol found =>
    obtain ⟨s, ahead, decided⟩ := Option.bind_eq_some_iff.mp found
    obtain ⟨op, rfl, rfl⟩ := Connective.chainOp_of_ofChainSymbol? decided
    obtain ⟨sign, afterSign, eqSign⟩ := mark_of_symbolAhead ahead
    rw [eqSign] at h lexed ⊢
    split at h
    · cases h
    · next fits =>
      obtain ⟨⟨rightExpr, afterRight⟩, readRight, h⟩ := bind_eq_ok.mp h
      obtain ⟨right, rfl, eqRight⟩ :=
        derivation_of_comparison (lexed.of_append [sign.token] rfl) readRight
      have shorter := length_lt_of_plain readRight
      have lexedRight : Lexed afterRight :=
        lexed.of_append (sign.token :: right.tokens) (congrArg (sign.token :: ·) eqRight)
      rcases derivation_of_links lexedRight h with ⟨rfl, rfl⟩ | ⟨op', more, same, rfl, eq⟩
      · exact Or.inr ⟨op, .lastLink op sign right, fits, rfl, congrArg (sign.token :: ·) eqRight⟩
      · obtain rfl : op = op' := Subtype.ext (by simpa using same)
        refine Or.inr ⟨op, .link op sign right more, fits, rfl, ?_⟩
        rw [Derivation.tokens, List.cons_append, List.append_assoc, eq, eqRight]
termination_by 6 * ts.length + 3
decreasing_by
  all_goals
    have := congrArg List.length eqSign
    simp only [List.length_cons, List.tail_cons] at *
    omega

theorem derivation_of_comparison {ts rest : List Token} {e : Expr} (lexed : Lexed ts)
    (h : plain (comparison ts) = .ok (e, rest)) :
    ∃ d : Derivation .comparison, d.meaning = e ∧ d.tokens ++ rest = ts := by
  rw [plain_comparison] at h
  obtain ⟨⟨leftExpr, afterLeft⟩, readLeft, h⟩ := bind_eq_ok.mp h
  obtain ⟨left, rfl, eqLeft⟩ := derivation_of_term lexed readLeft
  have shorter := length_lt_of_plain readLeft
  simp only at h
  split at h
  · obtain ⟨rfl, rfl⟩ := Prod.mk.inj (Except.ok.inj h)
    exact ⟨.ofTerm left, rfl, eqLeft⟩
  · next op found =>
    obtain ⟨s, ahead, decided⟩ := Option.bind_eq_some_iff.mp found
    obtain rfl := Comparison.symbol_of_ofSymbol? decided
    obtain ⟨sign, afterSign, eqSign⟩ := mark_of_symbolAhead ahead
    rw [eqSign] at h eqLeft
    obtain ⟨⟨rightExpr, afterRight⟩, readRight, h⟩ := bind_eq_ok.mp h
    obtain ⟨rfl, rfl⟩ := Prod.mk.inj (Except.ok.inj h)
    obtain ⟨right, rfl, eqRight⟩ := derivation_of_term
      (lexed.of_append (left.tokens ++ [sign.token]) (by simpa using eqLeft)) readRight
    refine ⟨.compare op left sign right, rfl, ?_⟩
    rw [List.tail_cons] at eqRight
    rw [← eqLeft, ← eqRight]
    simp [Derivation.tokens]
termination_by 6 * ts.length + 2
decreasing_by
  · omega
  · have := congrArg List.length eqSign
    simp only [List.length_cons, List.tail_cons] at *
    omega

theorem derivation_of_term {ts rest : List Token} {e : Expr} (lexed : Lexed ts)
    (h : plain (term ts) = .ok (e, rest)) :
    ∃ d : Derivation .term, d.meaning = e ∧ d.tokens ++ rest = ts := by
  match ts, lexed, h with
  | [], lexed, h =>
    rw [plain_term_symbol (by simp)] at h
    cases h
  | t :: ts, lexed, h =>
    cases kind : t.kind with
    | symbol s =>
      by_cases opens : s = .leftParen
      · rw [opens] at kind
        rw [plain_term_brackets kind] at h
        obtain ⟨⟨bodyExpr, afterBody⟩, readBody, h⟩ := bind_eq_ok.mp h
        obtain ⟨⟨closingToken, afterClosing⟩, readClosing, h⟩ := bind_eq_ok.mp h
        obtain ⟨rfl, rfl⟩ := Prod.mk.inj (Except.ok.inj h)
        obtain ⟨inner, rfl, eqInner⟩ :=
          derivation_of_quantified (lexed.of_append [t] rfl) readBody
        obtain ⟨closing, rfl, eqClosing⟩ := mark_of_symbol readClosing
        refine ⟨.brackets ⟨t, kind⟩ inner closing, rfl, ?_⟩
        rw [← eqInner, ← eqClosing]
        simp [Derivation.tokens]
      · by_cases negates : s = .not
        · rw [negates] at kind
          rw [plain_term_neg kind] at h
          obtain ⟨⟨operandExpr, afterOperand⟩, readOperand, h⟩ := bind_eq_ok.mp h
          obtain ⟨rfl, rfl⟩ := Prod.mk.inj (Except.ok.inj h)
          obtain ⟨operand, rfl, eq⟩ :=
            derivation_of_term (lexed.of_append [t] rfl) readOperand
          exact ⟨.neg ⟨t, kind⟩ operand, rfl, congrArg (t :: ·) eq⟩
        · have other : ∀ u ∈ (t :: ts).head?,
              ∃ s, u.kind = .symbol s ∧ s ≠ .leftParen ∧ s ≠ .not := by
            rintro u ⟨⟩
            exact ⟨s, kind, opens, negates⟩
          rw [plain_term_symbol other] at h
          cases h
    | identifier text =>
      obtain ⟨head, rfl⟩ := lexed.name List.mem_cons_self (by rw [Token.isIdentifier, kind])
      rw [plain_term_identifier head.isIdentifier] at h
      split at h
      · next ahead =>
        obtain ⟨opening, afterOpening, eqOpening⟩ := mark_of_symbolAhead ahead
        rw [eqOpening] at h lexed ⊢
        split at h
        · cases h
        · next headKind found =>
          obtain ⟨⟨argumentExprs, afterArguments⟩, readArguments, h⟩ := bind_eq_ok.mp h
          obtain ⟨⟨closingToken, afterClosing⟩, readClosing, h⟩ := bind_eq_ok.mp h
          obtain ⟨rfl, rfl⟩ := Prod.mk.inj (Except.ok.inj h)
          obtain ⟨arguments, rfl, eqArguments⟩ := derivation_of_arguments
            (lexed.of_append [head.token, opening.token] rfl) readArguments
          obtain ⟨closing, rfl, eqClosing⟩ := mark_of_symbol readClosing
          have suits := (HeadKind.ofName?_eq_some_iff head.isName).mp found
          refine ⟨.app headKind head suits opening arguments closing, rfl, ?_⟩
          rw [← eqArguments, ← eqClosing]
          simp [Derivation.tokens]
      · obtain ⟨rfl, rfl⟩ := Prod.mk.inj (Except.ok.inj h)
        exact ⟨.var head, rfl, rfl⟩
termination_by 6 * ts.length + 1
decreasing_by
  · simp only [List.length_cons]
    omega
  · simp only [List.length_cons]
    omega
  · have := congrArg List.length eqOpening
    simp only [List.length_cons, List.tail_cons] at *
    omega

theorem derivation_of_arguments {ts rest : List Token} {es : List Expr} (lexed : Lexed ts)
    (h : plain (arguments ts) = .ok (es, rest)) :
    ∃ d : Derivation .arguments, d.meaning = es ∧ d.tokens ++ rest = ts := by
  rw [plain_arguments] at h
  split at h
  · obtain ⟨rfl, rfl⟩ := Prod.mk.inj (Except.ok.inj h)
    exact ⟨.noArguments, rfl, rfl⟩
  · obtain ⟨⟨firstExpr, afterFirst⟩, readFirst, h⟩ := bind_eq_ok.mp h
    obtain ⟨⟨moreExprs, afterMore⟩, readMore, h⟩ := bind_eq_ok.mp h
    obtain ⟨rfl, rfl⟩ := Prod.mk.inj (Except.ok.inj h)
    obtain ⟨first, rfl, eqFirst⟩ := derivation_of_term lexed readFirst
    have shorter := length_lt_of_plain readFirst
    obtain ⟨more, rfl, eqMore⟩ :=
      derivation_of_furtherArguments (lexed.of_append _ eqFirst) readMore
    exact ⟨.someArguments first more, rfl, by
      rw [← eqFirst, ← eqMore, Derivation.tokens, List.append_assoc]⟩
termination_by 6 * ts.length + 2
decreasing_by all_goals omega

theorem derivation_of_furtherArguments {ts rest : List Token} {es : List Expr} (lexed : Lexed ts)
    (h : plain (furtherArguments ts) = .ok (es, rest)) :
    ∃ d : Derivation .furtherArguments, d.meaning = es ∧ d.tokens ++ rest = ts := by
  rw [plain_furtherArguments] at h
  split at h
  · next ahead =>
    obtain ⟨comma, afterComma, eqComma⟩ := mark_of_symbolAhead ahead
    rw [eqComma] at h lexed ⊢
    obtain ⟨⟨nextExpr, afterNext⟩, readNext, h⟩ := bind_eq_ok.mp h
    obtain ⟨⟨moreExprs, afterMore⟩, readMore, h⟩ := bind_eq_ok.mp h
    obtain ⟨rfl, rfl⟩ := Prod.mk.inj (Except.ok.inj h)
    obtain ⟨next, rfl, eqNext⟩ :=
      derivation_of_term (lexed.of_append [comma.token] rfl) readNext
    have shorter := length_lt_of_plain readNext
    have lexedNext : Lexed afterNext :=
      lexed.of_append (comma.token :: next.tokens) (congrArg (comma.token :: ·) eqNext)
    obtain ⟨more, rfl, eqMore⟩ := derivation_of_furtherArguments lexedNext readMore
    refine ⟨.further comma next more, rfl, ?_⟩
    rw [← eqNext, ← eqMore]
    simp [Derivation.tokens]
  · obtain ⟨rfl, rfl⟩ := Prod.mk.inj (Except.ok.inj h)
    exact ⟨.noFurther, rfl, rfl⟩
termination_by 6 * ts.length + 2
decreasing_by
  all_goals
    have := congrArg List.length eqComma
    simp only [List.length_cons, List.tail_cons] at *
    omega

end

end PredicateCalculus
