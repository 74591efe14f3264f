import PredicateCalculus.Proofs.Grammar.Lookahead
import PredicateCalculus.Proofs.Grammar.Unambiguity
import PredicateCalculus.Proofs.RoundTrip.Parse

/-! # Where faults are found

When reading stops, everything up to the fault could still have been continued to an expression, so
no earlier token is to blame; and with the offending token it can no longer be continued, whatever
comes behind it. The one exception is a name in front of arguments that is neither that of a
function nor that of a predicate: it could stand as a variable, and the bracket behind it is what
cannot be.

* `Token.Readable`: the tokens that a text can have.
* `Viable`: a list that can be continued to one that is read.
* `Begins`: a list that a derivation begins with.
* `Fault.Explains`: what a fault says of the tokens in front of it.
* `Parser.explains_quantified` and the theorems about the other readers.
* `Expr.parse_stops_earliest`: the place of a fault.
-/

set_option autoImplicit false

namespace PredicateCalculus

open PredicateCalculus.Parser

/-! ## Continuations -/

/-- There is a text that splits into tokens with this one among them. -/
def Token.Readable (t : Token) : Prop :=
  ∃ source ts, Lexer.tokenize source = .ok ts ∧ t ∈ ts

/-- Some tokens that a text can have make an expression of the list. -/
def Viable (ts : List Token) : Prop :=
  ∃ more : List Token, (∀ t ∈ more, t.Readable) ∧ ∃ e, whole (ts ++ more) = .ok e

def Begins (l : Nonterminal) (ts : List Token) : Prop :=
  ∃ (d : Derivation l) (more : List Token), (∀ t ∈ more, t.Readable) ∧ d.tokens = ts ++ more

theorem exists_readable_mark {s : Symbol} (written : s ≠ .endOfText) :
    ∃ mark : Mark s, mark.token.Readable := by
  have splits := Lexer.splitsInto_nil.mark s written
  rw [List.append_nil] at splits
  obtain ⟨ts, lexed, kinds⟩ := splits.tokenize
  obtain ⟨mark, rest, rfl, -⟩ := mark_of_kinds kinds
  exact ⟨mark, _, _, lexed, List.mem_cons_self⟩

theorem exists_readable_name : ∃ name : Name, name.token.Readable := by
  have isName : IsName "x" := by decide +kernel
  have splits := Lexer.splitsInto_nil.name (.of "x" isName) rfl
  rw [List.append_nil] at splits
  obtain ⟨ts, lexed, kinds⟩ := splits.tokenize
  obtain ⟨name, rest, rfl, -⟩ := name_of_kinds kinds
  exact ⟨name, _, _, lexed, List.mem_cons_self⟩

namespace Begins

variable {ts : List Token}

theorem of_derivation {l : Nonterminal} (d : Derivation l) : Begins l d.tokens :=
  ⟨d, [], nofun, (List.append_nil _).symm⟩

theorem viable (h : Begins .quantified ts) : Viable ts := by
  obtain ⟨d, more, readable, tokens⟩ := h
  exact ⟨more, readable, d.meaning, tokens ▸ d.whole_tokens⟩

/-- A production that puts tokens in front of a construct. -/
theorem lift {l l' : Nonterminal} (h : Begins l ts) (front : List Token)
    (production : Derivation l → Derivation l')
    (tokens : ∀ d, (production d).tokens = front ++ d.tokens) : Begins l' (front ++ ts) := by
  obtain ⟨d, more, readable, eq⟩ := h
  exact ⟨production d, more, readable, by rw [tokens, eq, List.append_assoc]⟩

/-- A production that also puts one token behind it. -/
theorem close {l l' : Nonterminal} {s : Symbol} (h : Begins l ts) (front : List Token)
    (written : s ≠ .endOfText) (production : Derivation l → Mark s → Derivation l')
    (tokens : ∀ d mark, (production d mark).tokens = front ++ (d.tokens ++ [mark.token])) :
    Begins l' (front ++ ts) := by
  obtain ⟨d, more, readable, eq⟩ := h
  obtain ⟨mark, readableMark⟩ := exists_readable_mark written
  refine ⟨production d mark, more ++ [mark.token], ?_, ?_⟩
  · simpa [or_imp, forall_and] using ⟨readable, readableMark⟩
  · rw [tokens, eq, List.append_assoc, List.append_assoc]

theorem shorten {l : Nonterminal} {t : Token} (h : Begins l (ts ++ [t])) (readable : t.Readable) :
    Begins l ts := by
  obtain ⟨d, more, readableMore, eq⟩ := h
  refine ⟨d, t :: more, ?_, by rw [eq, List.append_assoc, List.singleton_append]⟩
  exact List.forall_mem_cons.mpr ⟨readable, readableMore⟩

theorem term_nil : Begins .term [] := by
  obtain ⟨name, readable⟩ := exists_readable_name
  exact ⟨.var name, [name.token], by simpa using readable, rfl⟩

theorem quantified_nil : Begins .quantified [] :=
  term_nil.lift [] (fun d => .ofImplication (.ofChain (.ofComparison (.ofTerm d)))) fun _ => rfl

section

variable {quantifier : Quantifier} (sign : Mark quantifier.symbol)

theorem quant (bound : Name) (dot : Mark .dot) (h : Begins .quantified ts) :
    Begins .quantified (sign.token :: bound.token :: dot.token :: ts) :=
  h.lift [sign.token, bound.token, dot.token] (.quant quantifier sign bound dot) fun _ => rfl

theorem quant_name (bound : Name) : Begins .quantified [sign.token, bound.token] := by
  obtain ⟨dot, readable⟩ := exists_readable_mark (s := .dot) (by decide)
  have dotted : Begins .quantified ([sign.token, bound.token] ++ [dot.token]) :=
    quantified_nil.quant sign bound dot
  exact dotted.shorten readable

theorem quant_sign : Begins .quantified [sign.token] := by
  obtain ⟨bound, readable⟩ := exists_readable_name
  have named : Begins .quantified ([sign.token] ++ [bound.token]) := quant_name sign bound
  exact named.shorten readable

end

end Begins

/-! ## What a fault says -/

/-- A name in front of arguments that is neither that of a function nor that of a predicate. -/
def UnsuitableHead (ts : List Token) : Prop :=
  ∃ (head : Name) (opening : Mark .leftParen) (rest : List Token),
    ts = head.token :: opening.token :: rest ∧ ∀ kind, ¬HeadKind.Suits kind head.token.text

namespace Fault

/-- The tokens in front of the fault, with those that could still be read, begin the construct. -/
structure Explains (fault : Fault) (l : Nonterminal) (ts : List Token) : Prop where
  begins : ∃ front, front ++ fault.rest = ts ∧ Begins l (front ++ fault.passed)
  head : fault.cause = .unsuitableHead → UnsuitableHead fault.rest

theorem passed_of_ordinary {fault : Fault} (h : fault.cause ≠ .unsuitableHead) :
    fault.passed = [] := by
  unfold passed
  split
  · next unsuitable => exact absurd unsuitable h
  · rfl

theorem token_of_drop {fault : Fault} {ts : List Token} {k : Nat} (h : fault.rest = ts.drop k) :
    fault.token = ts.getD k .endOfText := by
  rw [token, h, List.headD_eq_head?_getD, List.head?_drop, List.getD_eq_getElem?_getD]

theorem refused_of_ordinary {fault : Fault} (h : fault.cause ≠ .unsuitableHead) :
    fault.refused = fault.rest := by
  rw [← fault.passed_append_refused, passed_of_ordinary h, List.nil_append]

namespace Explains

variable {fault : Fault} {l l' : Nonterminal} {ts : List Token}

theorem after (h : fault.Explains l ts) (front : List Token)
    (begins : ∀ good, Begins l good → Begins l' (front ++ good)) :
    fault.Explains l' (front ++ ts) := by
  refine ⟨?_, h.head⟩
  obtain ⟨inner, eq, good⟩ := h.begins
  refine ⟨front ++ inner, ?_, ?_⟩
  · rw [List.append_assoc, eq]
  · rw [List.append_assoc]
    exact begins _ good

/-- The fault is at the end of what the construct has so far. -/
theorem here {cause : FaultCause} (front rest : List Token) (begins : Begins l front)
    (ordinary : cause ≠ .unsuitableHead) : (Fault.mk cause rest).Explains l (front ++ rest) := by
  refine ⟨⟨front, rfl, ?_⟩, fun unsuitable => absurd unsuitable ordinary⟩
  rw [passed_of_ordinary ordinary, List.append_nil]
  exact begins

end Explains

end Fault

namespace Parser

theorem bind_eq_error {ε β γ : Type} {first : Except ε β} {next : β → Except ε γ} {error : ε} :
    first >>= next = .error error ↔
      first = .error error ∨ ∃ value, first = .ok value ∧ next value = .error error := by
  cases first with
  | error other => simp [bind, Except.bind]
  | ok value => simp [bind, Except.bind]

section

variable {ts : List Token} {fault : Fault}

theorem fault_of_symbol {s : Symbol} (h : plain (symbol s ts) = .error fault) :
    fault = ⟨.symbolExpected s, ts⟩ := by
  rw [plain_symbol] at h
  split at h
  · cases h
  · exact (Except.error.inj h).symm

theorem fault_of_identifier (h : plain (identifier ts) = .error fault) :
    fault = ⟨.identifierExpected, ts⟩ := by
  rw [plain_identifier] at h
  split at h
  · cases h
  · exact (Except.error.inj h).symm

/-- A construct up to a closing bracket: the fault is inside, or in the place of the bracket. -/
theorem explains_closed {β : Type} {l : Nonterminal} {inside : Except Fault (β × List Token)}
    (front : List Token) (finish : β → Expr)
    (production : Derivation l → Mark .rightParen → Derivation .term)
    (tokens : ∀ d mark, (production d mark).tokens = front ++ (d.tokens ++ [mark.token]))
    (within : inside = .error fault → fault.Explains l ts)
    (derived : ∀ value rest, inside = .ok (value, rest) →
      ∃ d : Derivation l, d.tokens ++ rest = ts)
    (h : (do
      let (value, afterInside) ← inside
      let (_, rest) ← plain (symbol .rightParen afterInside)
      return (finish value, rest)) = .error fault) :
    fault.Explains .term (front ++ ts) := by
  have closes : ∀ {good}, Begins l good → Begins .term (front ++ good) :=
    fun begins => begins.close front (by decide) production tokens
  rcases bind_eq_error.mp h with failed | ⟨⟨value, rest⟩, read, h⟩
  · exact (within failed).after front fun good begins => closes begins
  · obtain ⟨d, rfl⟩ := derived value rest read
    rcases bind_eq_error.mp h with failed | ⟨_, _, h⟩
    · obtain rfl := fault_of_symbol failed
      rw [← List.append_assoc]
      exact .here (front ++ d.tokens) rest (closes (.of_derivation d)) nofun
    · cases h

end

/-! ## Readers -/

mutual

theorem explains_quantified {ts : List Token} {fault : Fault} (lexed : Lexed ts)
    (h : plain (quantified ts) = .error fault) : fault.Explains .quantified ts := by
  rw [plain_quantified] at h
  split at h
  · have inner := explains_implication lexed h
    exact inner.after [] fun good begins => begins.lift [] .ofImplication fun _ => rfl
  · next quantifier found =>
    obtain ⟨s, ahead, decided⟩ := Option.bind_eq_some_iff.mp found
    obtain rfl := Quantifier.symbol_of_ofSymbol? decided
    obtain ⟨sign, afterSign, eqSign⟩ := mark_of_symbolAhead ahead
    rw [eqSign, List.tail_cons, List.headD_cons] at h
    rw [eqSign] at lexed ⊢
    rcases bind_eq_error.mp h with failed | ⟨⟨boundToken, afterName⟩, readName, h⟩
    · obtain rfl := fault_of_identifier failed
      exact .here [sign.token] afterSign (.quant_sign sign) nofun
    · obtain ⟨bound, rfl, eqName⟩ :=
        name_of_identifier (lexed.of_append [sign.token] rfl) readName
      rcases bind_eq_error.mp h with failed | ⟨⟨dotToken, afterDot⟩, readDot, h⟩
      · obtain rfl := fault_of_symbol failed
        rw [← eqName]
        exact .here [sign.token, bound.token] afterName (.quant_name sign bound) nofun
      · obtain ⟨dot, rfl, eqDot⟩ := mark_of_symbol readDot
        have eqFront : bound.token :: dot.token :: afterDot = afterSign := by rw [eqDot, eqName]
        rcases bind_eq_error.mp h with failed | ⟨_, _, h⟩
        · have inner := explains_quantified
            (lexed.of_append [sign.token, bound.token, dot.token] (by rw [← eqFront]; rfl)) failed
          rw [← eqFront]
          exact inner.after [sign.token, bound.token, dot.token]
            fun good begins => begins.quant sign bound dot
        · cases h
termination_by 6 * ts.length + 5
decreasing_by
  · omega
  · have lengths : ts.length = afterDot.length + 3 := by
      rw [eqSign, ← eqFront]
      rfl
    omega

theorem explains_implication {ts : List Token} {fault : Fault} (lexed : Lexed ts)
    (h : plain (implication ts) = .error fault) : fault.Explains .implication ts := by
  rw [plain_implication] at h
  rcases bind_eq_error.mp h with failed | ⟨⟨leftExpr, afterLeft⟩, readLeft, h⟩
  · have inner := explains_chain lexed failed
    exact inner.after [] fun good begins => begins.lift [] .ofChain fun _ => rfl
  · obtain ⟨left, rfl, eqLeft⟩ := derivation_of_chain lexed readLeft
    have shorter := length_lt_of_plain readLeft
    simp only at h
    split at h
    · next ahead =>
      obtain ⟨sign, afterSign, eqSign⟩ := mark_of_symbolAhead ahead
      rw [eqSign] at h eqLeft
      have eq : (left.tokens ++ [sign.token]) ++ afterSign = ts := by simpa using eqLeft
      rcases bind_eq_error.mp h with failed | ⟨_, _, h⟩
      · have inner := explains_implication (lexed.of_append _ eq) failed
        rw [← eq]
        refine inner.after _ fun good begins => ?_
        exact begins.lift _ (.implies left sign) fun d => by simp [Derivation.tokens]
      · cases h
    · cases h
termination_by 6 * ts.length + 4
decreasing_by
  · omega
  · have := congrArg List.length eqSign
    simp only [List.length_cons, List.tail_cons] at *
    omega

theorem explains_chain {ts : List Token} {fault : Fault} (lexed : Lexed ts)
    (h : plain (chain ts) = .error fault) : fault.Explains .chain ts := by
  rw [plain_chain] at h
  rcases bind_eq_error.mp h with failed | ⟨⟨firstExpr, afterFirst⟩, readFirst, h⟩
  · have inner := explains_comparison lexed failed
    exact inner.after [] fun good begins => begins.lift [] .ofComparison fun _ => rfl
  · obtain ⟨first, rfl, eqFirst⟩ := derivation_of_comparison lexed readFirst
    have shorter := length_lt_of_plain readFirst
    rw [← eqFirst]
    rcases explains_links (lexed.of_append _ eqFirst) h with rfl | ⟨op, -, inner⟩
    · exact .here first.tokens afterFirst (.of_derivation (.ofComparison first)) nofun
    · exact inner.after first.tokens fun good begins =>
        begins.lift first.tokens (.joined op first) fun _ => rfl
termination_by 6 * ts.length + 3
decreasing_by all_goals omega

/-- Either the next link would mix connectives, or the fault is in the links of one connective. -/
theorem explains_links {joined : Option Connective} {left : Expr} {ts : List Token} {fault : Fault}
    (lexed : Lexed ts) (h : plain (links joined left ts) = .error fault) :
    fault = ⟨.mixedChain, ts⟩ ∨
      ∃ op : ChainOp, ¬joined.any (· != op.val) = true ∧ fault.Explains (.links op) ts := by
  rw [plain_links] at h
  split at h
  · cases h
  · next symbol found =>
    obtain ⟨s, ahead, decided⟩ := Option.bind_eq_some_iff.mp found
    obtain ⟨op, rfl, rfl⟩ := Connective.chainOp_of_ofChainSymbol? decided
    obtain ⟨sign, afterSign, eqSign⟩ := mark_of_symbolAhead ahead
    rw [eqSign] at h lexed ⊢
    split at h
    · exact .inl (Except.error.inj h).symm
    · next fits =>
      refine .inr ⟨op, fits, ?_⟩
      rcases bind_eq_error.mp h with failed | ⟨⟨rightExpr, afterRight⟩, readRight, h⟩
      · have inner := explains_comparison (lexed.of_append [sign.token] rfl) failed
        exact inner.after [sign.token] fun good begins =>
          begins.lift [sign.token] (.lastLink op sign) fun _ => rfl
      · obtain ⟨right, rfl, eqRight⟩ :=
          derivation_of_comparison (lexed.of_append [sign.token] rfl) readRight
        have shorter := length_lt_of_plain readRight
        have eq : (sign.token :: right.tokens) ++ afterRight = sign.token :: afterSign :=
          congrArg (sign.token :: ·) eqRight
        rw [← eq]
        rcases explains_links (lexed.of_append _ eq) h with rfl | ⟨op', same, inner⟩
        · exact .here _ afterRight (.of_derivation (.lastLink op sign right)) nofun
        · obtain rfl : op = op' := Subtype.ext (by simpa using same)
          refine inner.after _ fun good begins => ?_
          exact begins.lift _ (.link op sign right) fun _ => rfl
termination_by 6 * ts.length + 3
decreasing_by
  all_goals
    have := congrArg List.length eqSign
    simp only [List.length_cons, List.tail_cons] at *
    omega

theorem explains_comparison {ts : List Token} {fault : Fault} (lexed : Lexed ts)
    (h : plain (comparison ts) = .error fault) : fault.Explains .comparison ts := by
  rw [plain_comparison] at h
  rcases bind_eq_error.mp h with failed | ⟨⟨leftExpr, afterLeft⟩, readLeft, h⟩
  · have inner := explains_term lexed failed
    exact inner.after [] fun good begins => begins.lift [] .ofTerm fun _ => rfl
  · obtain ⟨left, rfl, eqLeft⟩ := derivation_of_term lexed readLeft
    have shorter := length_lt_of_plain readLeft
    simp only at h
    split at h
    · cases h
    · next op found =>
      obtain ⟨s, ahead, decided⟩ := Option.bind_eq_some_iff.mp found
      obtain rfl := Comparison.symbol_of_ofSymbol? decided
      obtain ⟨sign, afterSign, eqSign⟩ := mark_of_symbolAhead ahead
      rw [eqSign] at h eqLeft
      have eq : (left.tokens ++ [sign.token]) ++ afterSign = ts := by simpa using eqLeft
      rcases bind_eq_error.mp h with failed | ⟨_, _, h⟩
      · have inner := explains_term (lexed.of_append _ eq) failed
        rw [← eq]
        refine inner.after _ fun good begins => ?_
        exact begins.lift _ (.compare op left sign) fun d => by simp [Derivation.tokens]
      · cases h
termination_by 6 * ts.length + 2
decreasing_by
  · omega
  · have := congrArg List.length eqSign
    simp only [List.length_cons, List.tail_cons] at *
    omega

theorem explains_term {ts : List Token} {fault : Fault} (lexed : Lexed ts)
    (h : plain (term ts) = .error fault) : fault.Explains .term ts := by
  match ts, lexed, h with
  | [], lexed, h =>
    rw [plain_term_symbol (by simp)] at h
    obtain rfl := Except.error.inj h
    exact .here [] [] .term_nil nofun
  | t :: ts, lexed, h =>
    cases kind : t.kind with
    | symbol s =>
      by_cases opens : s = .leftParen
      · rw [opens] at kind
        rw [plain_term_brackets kind] at h
        refine explains_closed [t] (fun e => e) (.brackets ⟨t, kind⟩) (fun _ _ => rfl)
          (fun failed => explains_quantified (lexed.of_append [t] rfl) failed) ?_ h
        intro bodyExpr afterBody readBody
        obtain ⟨d, -, eq⟩ := derivation_of_quantified (lexed.of_append [t] rfl) readBody
        exact ⟨d, eq⟩
      · by_cases negates : s = .not
        · rw [negates] at kind
          rw [plain_term_neg kind] at h
          rcases bind_eq_error.mp h with failed | ⟨_, _, h⟩
          · have inner := explains_term (lexed.of_append [t] rfl) failed
            refine inner.after [t] fun good begins => ?_
            exact begins.lift [t] (.neg ⟨t, kind⟩) fun _ => rfl
          · cases h
        · have other : ∀ u ∈ (t :: ts).head?,
              ∃ s, u.kind = .symbol s ∧ s ≠ .leftParen ∧ s ≠ .not := by
            rintro u ⟨⟩
            exact ⟨s, kind, opens, negates⟩
          rw [plain_term_symbol other] at h
          obtain rfl := Except.error.inj h
          exact .here [] (t :: ts) .term_nil nofun
    | identifier text =>
      obtain ⟨head, rfl⟩ := lexed.name List.mem_cons_self (by rw [Token.isIdentifier, kind])
      rw [plain_term_identifier head.isIdentifier] at h
      split at h
      · next ahead =>
        obtain ⟨opening, afterOpening, eqOpening⟩ := mark_of_symbolAhead ahead
        rw [eqOpening] at h lexed ⊢
        split at h
        · next unsuited =>
          obtain rfl := Except.error.inj h
          refine ⟨⟨[], rfl, .of_derivation (.var head)⟩, fun _ => ?_⟩
          refine ⟨head, opening, afterOpening, rfl, fun headKind suits => ?_⟩
          rw [(HeadKind.ofName?_eq_some_iff head.isName).mpr suits] at unsuited
          cases unsuited
        · next headKind found =>
          have suits := (HeadKind.ofName?_eq_some_iff head.isName).mp found
          have inside := lexed.of_append [head.token, opening.token] rfl
          refine explains_closed [head.token, opening.token] (.app headKind head.token)
            (.app headKind head suits opening) (fun _ _ => rfl)
            (fun failed => explains_arguments inside failed) ?_ h
          intro argumentExprs afterArguments read
          obtain ⟨d, -, eq⟩ := derivation_of_arguments inside read
          exact ⟨d, eq⟩
      · cases h
termination_by 6 * ts.length + 1
decreasing_by
  · simp only [List.length_cons]
    omega
  · simp only [List.length_cons]
    omega
  · have := congrArg List.length eqOpening
    simp only [List.length_cons, List.tail_cons] at *
    omega

theorem explains_arguments {ts : List Token} {fault : Fault} (lexed : Lexed ts)
    (h : plain (arguments ts) = .error fault) : fault.Explains .arguments ts := by
  rw [plain_arguments] at h
  split at h
  · cases h
  · rcases bind_eq_error.mp h with failed | ⟨⟨firstExpr, afterFirst⟩, readFirst, h⟩
    · have inner := explains_term lexed failed
      refine inner.after [] fun good begins => ?_
      exact begins.lift [] (.someArguments · .noFurther) fun d => by simp [Derivation.tokens]
    · obtain ⟨first, rfl, eqFirst⟩ := derivation_of_term lexed readFirst
      have shorter := length_lt_of_plain readFirst
      rcases bind_eq_error.mp h with failed | ⟨_, _, h⟩
      · have inner := explains_furtherArguments (lexed.of_append _ eqFirst) failed
        rw [← eqFirst]
        refine inner.after first.tokens fun good begins => ?_
        exact begins.lift first.tokens (.someArguments first) fun _ => rfl
      · cases h
termination_by 6 * ts.length + 2
decreasing_by all_goals omega

theorem explains_furtherArguments {ts : List Token} {fault : Fault} (lexed : Lexed ts)
    (h : plain (furtherArguments ts) = .error fault) : fault.Explains .furtherArguments ts := by
  rw [plain_furtherArguments] at h
  split at h
  · next ahead =>
    obtain ⟨comma, afterComma, eqComma⟩ := mark_of_symbolAhead ahead
    rw [eqComma] at h lexed ⊢
    rcases bind_eq_error.mp h with failed | ⟨⟨nextExpr, afterNext⟩, readNext, h⟩
    · have inner := explains_term (lexed.of_append [comma.token] rfl) failed
      refine inner.after [comma.token] fun good begins => ?_
      exact begins.lift [comma.token] (.further comma · .noFurther) fun d => by
        simp [Derivation.tokens]
    · obtain ⟨next, rfl, eqNext⟩ :=
        derivation_of_term (lexed.of_append [comma.token] rfl) readNext
      have shorter := length_lt_of_plain readNext
      have eq : (comma.token :: next.tokens) ++ afterNext = comma.token :: afterComma :=
        congrArg (comma.token :: ·) eqNext
      rcases bind_eq_error.mp h with failed | ⟨_, _, h⟩
      · have inner := explains_furtherArguments (lexed.of_append _ eq) failed
        rw [← eq]
        refine inner.after _ fun good begins => ?_
        exact begins.lift _ (.further comma next) fun d => by simp [Derivation.tokens]
      · cases h
  · cases h
termination_by 6 * ts.length + 2
decreasing_by
  all_goals
    have := congrArg List.length eqComma
    simp only [List.length_cons, List.tail_cons] at *
    omega

end

/-! ## Whole lists -/

theorem explains_whole {ts : List Token} {fault : Fault} (lexed : Lexed ts)
    (h : whole ts = .error fault) : fault.Explains .quantified ts := by
  rw [whole_eq] at h
  rcases bind_eq_error.mp h with failed | ⟨⟨e, rest⟩, read, h⟩
  · exact explains_quantified lexed failed
  · simp only at h
    split at h
    · cases h
    · obtain rfl := Except.error.inj h
      obtain ⟨d, -, eq⟩ := derivation_of_quantified lexed read
      rw [← eq]
      exact .here d.tokens rest (.of_derivation d) nofun

theorem rest_of_whole {ts : List Token} {fault : Fault} (lexed : Lexed ts)
    (h : whole ts = .error fault) : ∃ k, k ≤ ts.length ∧ fault.rest = ts.drop k := by
  obtain ⟨front, rfl, -⟩ := (explains_whole lexed h).begins
  exact ⟨front.length, by simp, by simp⟩

/-- No continuation helps, because the fault lies before all of them. -/
theorem not_viable_of_refused {good beyond : List Token} {t : Token} {fault : Fault}
    (h : whole (good ++ t :: beyond) = .error fault) (refused : fault.refused = t :: beyond) :
    ¬Viable (good ++ [t]) := by
  rintro ⟨more, -, e, read⟩
  rw [← List.singleton_append, ← List.append_assoc] at h
  have before : beyond.length < fault.refused.length := by rw [refused, List.length_cons]; omega
  exact whole_append_ne_ok h before more e read

end Parser

namespace Expr

theorem parse_eq_error_iff {source : String} {ts : List Token} {error : ParseError}
    (lexed : Lexer.tokenize source = .ok ts) :
    parse source = .error error ↔
      ∃ fault, error = .malformed source fault ∧ whole ts = .error fault := by
  simp only [parse, lexed]
  cases read : whole ts with
  | ok e => simp
  | error fault => simp [eq_comm]

/-- The fault is at the first token that cannot be continued, or at the end. Only for a name in
front of arguments that suits neither functions nor predicates is it one token earlier. -/
theorem parse_stops_earliest {source : String} {ts : List Token} {error : ParseError}
    (lexed : Lexer.tokenize source = .ok ts) (failed : parse source = .error error) :
    ∃ fault k, error = .malformed source fault ∧ k ≤ ts.length ∧ fault.rest = ts.drop k ∧
      error.token? = some (ts.getD k .endOfText) ∧
      (fault.cause ≠ .unsuitableHead →
        Viable (ts.take k) ∧ (k < ts.length → ¬Viable (ts.take (k + 1))) ∧
          (k = ts.length → ∀ e, whole ts ≠ .ok e)) ∧
      (fault.cause = .unsuitableHead →
        (∃ name, ts[k]?.map Token.kind = some (.identifier name) ∧
          ∀ kind, ¬HeadKind.Suits kind name) ∧
        ts[k + 1]?.map Token.kind = some (.symbol .leftParen) ∧
        Viable (ts.take (k + 1)) ∧ ¬Viable (ts.take (k + 2))) := by
  obtain ⟨fault, rfl, stopped⟩ := (parse_eq_error_iff lexed).mp failed
  have explains := explains_whole (lexed_of_tokenize lexed) stopped
  obtain ⟨front, rfl, begins⟩ := explains.begins
  refine ⟨fault, front.length, rfl, by simp, by simp, ?_, fun ordinary => ?_, fun unsuitable => ?_⟩
  · exact congrArg some (Fault.token_of_drop (by simp))
  · have refused := Fault.refused_of_ordinary ordinary
    rw [Fault.passed_of_ordinary ordinary, List.append_nil] at begins
    refine ⟨?_, fun inside => ?_, fun _ e read => ?_⟩
    · rw [List.take_left]
      exact begins.viable
    · obtain ⟨t, beyond, rest⟩ : ∃ t beyond, fault.rest = t :: beyond := by
        apply List.exists_cons_of_length_pos
        rw [List.length_append] at inside
        omega
      rw [rest] at refused stopped ⊢
      have taken : (front ++ t :: beyond).take (front.length + 1) = front ++ [t] := by
        rw [List.take_length_add_append]
        rfl
      rw [taken]
      exact not_viable_of_refused stopped refused
    · rw [stopped] at read
      cases read
  · obtain ⟨head, opening, beyond, rest, unsuited⟩ := explains.head unsuitable
    have passed : fault.passed = [head.token] := by
      rw [Fault.passed, unsuitable, rest]
      rfl
    have refused : fault.refused = opening.token :: beyond := by
      rw [Fault.refused, unsuitable, rest]
      rfl
    rw [passed] at begins
    rw [rest] at stopped ⊢
    refine ⟨⟨head.token.text, ?_, unsuited⟩, ?_, ?_, ?_⟩
    · simpa using head.isIdentifier
    · simpa using opening.isSymbol
    · have taken : (front ++ head.token :: opening.token :: beyond).take (front.length + 1) =
          front ++ [head.token] := by
        rw [List.take_length_add_append]
        rfl
      rw [taken]
      exact begins.viable
    · have taken : (front ++ head.token :: opening.token :: beyond).take (front.length + 2) =
          (front ++ [head.token]) ++ [opening.token] := by
        rw [List.take_length_add_append, List.append_assoc]
        rfl
      rw [taken]
      refine not_viable_of_refused ?_ refused
      rw [List.append_assoc]
      exact stopped

/-- A fault at the fourth of five tokens, and one at the second of five, a bad head before `(`. -/
theorem parse_stops_earliest_of_chain :
    (∃ ts, Lexer.tokenize "x ^ y v z" = .ok ts ∧ Viable (ts.take 3) ∧ ¬Viable (ts.take 4)) ∧
      ∃ ts, Lexer.tokenize "~Foo(x)" = .ok ts ∧ Viable (ts.take 2) ∧ ¬Viable (ts.take 3) := by
  obtain ⟨ts, lexed, test⟩ := exists_ok_of_any (Lexer.tokenize "x ^ y v z")
    (fun ts => ts.length == 5 &&
      failsWith (fun fault => fault.cause == .mixedChain && fault.rest.length == 2) (whole ts))
    (by decide +kernel)
  obtain ⟨us, lexed', test'⟩ := exists_ok_of_any (Lexer.tokenize "~Foo(x)")
    (fun ts => ts.length == 5 &&
      failsWith (fun fault => fault.cause == .unsuitableHead && fault.rest.length == 4) (whole ts))
    (by decide +kernel)
  rw [Bool.and_eq_true, beq_iff_eq] at test test'
  refine ⟨⟨ts, lexed, ?_⟩, us, lexed', ?_⟩
  · obtain ⟨fault, stopped, found⟩ := exists_error_of_failsWith test.2
    rw [Bool.and_eq_true, beq_iff_eq, beq_iff_eq] at found
    obtain ⟨_, k, malformed, le, rest, -, ordinary, -⟩ :=
      parse_stops_earliest lexed ((parse_eq_error_iff lexed).mpr ⟨fault, rfl, stopped⟩)
    obtain ⟨-, rfl⟩ := ParseError.malformed.inj malformed
    have five := test.1
    have two := found.2
    rw [rest, List.length_drop] at two
    obtain rfl : k = 3 := by omega
    obtain ⟨viable, stuck, -⟩ := ordinary (by rw [found.1]; decide)
    exact ⟨viable, stuck (by omega)⟩
  · obtain ⟨fault, stopped, found⟩ := exists_error_of_failsWith test'.2
    rw [Bool.and_eq_true, beq_iff_eq, beq_iff_eq] at found
    obtain ⟨_, k, malformed, le, rest, -, -, unsuitable⟩ :=
      parse_stops_earliest lexed' ((parse_eq_error_iff lexed').mpr ⟨fault, rfl, stopped⟩)
    obtain ⟨-, rfl⟩ := ParseError.malformed.inj malformed
    have five := test'.1
    have four := found.2
    rw [rest, List.length_drop] at four
    obtain rfl : k = 1 := by omega
    obtain ⟨-, -, viable, stuck⟩ := unsuitable found.1
    exact ⟨viable, stuck⟩

end Expr

end PredicateCalculus
