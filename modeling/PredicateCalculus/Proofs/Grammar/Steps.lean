import PredicateCalculus.Expr.Parser

/-! # The steps of a reader

What a reader hands back carries a bound on the rest, which its further steps do not look at. Without
the bound each reader has one equation, in which the first symbol of the list decides.

* `Parser.plain`: the value and the rest.
* `Parser.plain_bind`: what comes after a reader sees no more than that.
* `Parser.plain_quantified` and the equations for the other readers.
* `Parser.whole_eq`: a whole list is read when nothing is left.
-/

set_option autoImplicit false

namespace PredicateCalculus.Parser

section

variable {β γ : Type} {m n : Nat}

def plain (result : Except Fault (Reading Token n β)) : Except Fault (β × List Token) :=
  result.map fun reading => (reading.value, reading.rest)

theorem plain_bind {result : Except Fault (Reading Token n β)}
    {next : Reading Token n β → Except Fault (Reading Token m γ)}
    {plainNext : β × List Token → Except Fault (γ × List Token)}
    (h : ∀ reading, plain (next reading) = plainNext (reading.value, reading.rest)) :
    plain (result >>= next) = plain result >>= plainNext := by
  cases result with
  | error fault => rfl
  | ok reading => exact h reading

theorem length_lt_of_plain {result : Except Fault (Reading Token n β)} {value : β}
    {rest : List Token} (h : plain result = .ok (value, rest)) : rest.length < n := by
  cases result with
  | error fault => cases h
  | ok reading =>
    have parts : (reading.value, reading.rest) = (value, rest) := Except.ok.inj h
    rw [← (Prod.mk.inj parts).2]
    exact reading.shorter

/-- Two steps succeed when the second succeeds on what the first has left. -/
theorem bind_eq_ok {ε : Type} {first : Except ε β} {next : β → Except ε γ} {result : γ} :
    first >>= next = .ok result ↔ ∃ value, first = .ok value ∧ next value = .ok result := by
  cases first with
  | error error => simp [bind, Except.bind]
  | ok value => simp [bind, Except.bind]

theorem exists_ok_of_any {ε : Type} (result : Except ε β) (test : β → Bool)
    (h : result.toOption.any test = true) : ∃ value, result = .ok value ∧ test value = true := by
  cases result with
  | error error => cases h
  | ok value => exact ⟨value, rfl, h⟩

def failsWith {ε : Type} (test : ε → Bool) : Except ε β → Bool
  | .error error => test error
  | .ok _ => false

theorem exists_error_of_failsWith {ε : Type} {test : ε → Bool} {result : Except ε β}
    (h : failsWith test result = true) :
    ∃ error, result = .error error ∧ test error = true := by
  cases result with
  | error error => exact ⟨error, rfl, h⟩
  | ok value => cases h

end

/-! ## Single tokens -/

theorem symbolAhead_cons (t : Token) (ts : List Token) : symbolAhead (t :: ts) = t.symbol? := rfl

theorem symbolAhead_eq_some {ts : List Token} {s : Symbol} (h : symbolAhead ts = some s) :
    ∃ t rest, ts = t :: rest ∧ t.kind = .symbol s := by
  cases ts with
  | nil => cases h
  | cons t rest =>
    refine ⟨t, rest, rfl, ?_⟩
    rw [symbolAhead_cons, Token.symbol?] at h
    split at h
    · next found => rw [found, Option.some.inj h]
    · cases h

theorem plain_identifier (ts : List Token) :
    plain (identifier ts) =
      if (ts.head?.any Token.isIdentifier) = true then .ok (ts.headD .endOfText, ts.tail)
      else .error ⟨.identifierExpected, ts⟩ := by
  cases ts with
  | nil => rfl
  | cons t ts =>
    by_cases h : t.isIdentifier = true
    · simp [identifier, h, plain, Except.map]
    · simp [identifier, h, plain, Except.map]

theorem plain_symbol (expected : Symbol) (ts : List Token) :
    plain (symbol expected ts) =
      if symbolAhead ts = some expected then .ok (ts.headD .endOfText, ts.tail)
      else .error ⟨.symbolExpected expected, ts⟩ := by
  cases ts with
  | nil => rfl
  | cons t ts =>
    by_cases h : t.symbol? = some expected
    · simp [symbol, symbolAhead_cons, h, plain, Except.map]
    · simp [symbol, symbolAhead_cons, h, plain, Except.map]

/-! ## Formulas -/

theorem plain_quantified (ts : List Token) :
    plain (quantified ts) =
      match (symbolAhead ts).bind Quantifier.ofSymbol? with
      | none => plain (implication ts)
      | some quantifier => do
        let (bound, afterName) ← plain (identifier ts.tail)
        let (_, afterDot) ← plain (symbol .dot afterName)
        let (body, rest) ← plain (quantified afterDot)
        return (.quantify quantifier (ts.headD .endOfText) bound body, rest) := by
  cases ts with
  | nil => rw [quantified]; rfl
  | cons t ts =>
    rw [quantified, symbolAhead_cons]
    cases t.symbol?.bind Quantifier.ofSymbol? with
    | none => rfl
    | some quantifier => exact plain_bind fun _ => plain_bind fun _ => plain_bind fun _ => rfl

theorem plain_implication (ts : List Token) :
    plain (implication ts) = do
      let (left, afterLeft) ← plain (chain ts)
      if symbolAhead afterLeft = some .implies then
        let (right, rest) ← plain (implication afterLeft.tail)
        return (.connect .implies (afterLeft.headD .endOfText) left right, rest)
      else
        return (left, afterLeft) := by
  rw [implication]
  refine plain_bind fun reading => ?_
  obtain ⟨left, afterLeft, _⟩ := reading
  cases afterLeft with
  | nil => rfl
  | cons t afterOp =>
    by_cases h : symbolAhead (t :: afterOp) = some .implies
    · simp only [if_pos h, if_pos (symbolAhead_cons t afterOp ▸ h)]
      exact plain_bind fun _ => rfl
    · simp only [if_neg h, if_neg (symbolAhead_cons t afterOp ▸ h)]
      rfl

theorem plain_chain (ts : List Token) :
    plain (chain ts) =
      plain (comparison ts) >>= fun (first, rest) => plain (links none first rest) := by
  rw [chain]
  refine plain_bind fun reading => ?_
  obtain ⟨first, rest, _⟩ := reading
  simp only
  cases links none first rest <;> rfl

theorem plain_links (joined : Option Connective) (left : Expr) (ts : List Token) :
    plain (links joined left ts) =
      match (symbolAhead ts).bind Connective.ofChainSymbol? with
      | none => .ok (left, ts)
      | some op =>
        if joined.any (· != op) then .error ⟨.mixedChain, ts⟩
        else plain (comparison ts.tail) >>= fun (right, rest) =>
          plain (links (some op) (.connect op (ts.headD .endOfText) left right) rest) := by
  cases ts with
  | nil => rw [links]; rfl
  | cons t afterOp =>
    rw [links, symbolAhead_cons]
    cases t.symbol?.bind Connective.ofChainSymbol? with
    | none => rfl
    | some op =>
      by_cases mixed : joined.any (· != op) = true
      · simp only [if_pos mixed]
        rfl
      · simp only [if_neg mixed]
        refine plain_bind fun reading => ?_
        obtain ⟨right, rest, _⟩ := reading
        simp only [List.headD_cons]
        cases links (some op) (.connect op t left right) rest <;> rfl

theorem plain_comparison (ts : List Token) :
    plain (comparison ts) = do
      let (left, afterLeft) ← plain (term ts)
      match (symbolAhead afterLeft).bind Comparison.ofSymbol? with
      | none => return (left, afterLeft)
      | some op =>
        let (right, rest) ← plain (term afterLeft.tail)
        return (.compare op (afterLeft.headD .endOfText) left right, rest) := by
  rw [comparison]
  refine plain_bind fun reading => ?_
  obtain ⟨left, afterLeft, _⟩ := reading
  cases afterLeft with
  | nil => rfl
  | cons t afterOp =>
    simp only [symbolAhead_cons]
    cases t.symbol?.bind Comparison.ofSymbol? with
    | none => rfl
    | some op => exact plain_bind fun _ => rfl

/-! ## Terms -/

theorem plain_term_brackets {t : Token} (h : t.kind = .symbol .leftParen) (ts : List Token) :
    plain (term (t :: ts)) = do
      let (e, afterBody) ← plain (quantified ts)
      let (_, rest) ← plain (symbol .rightParen afterBody)
      return (e, rest) := by
  rw [term]
  simp only [h]
  exact plain_bind fun _ => plain_bind fun _ => rfl

theorem plain_term_neg {t : Token} (h : t.kind = .symbol .not) (ts : List Token) :
    plain (term (t :: ts)) = do
      let (operand, rest) ← plain (term ts)
      return (.neg t operand, rest) := by
  rw [term]
  simp only [h]
  exact plain_bind fun _ => rfl

theorem plain_term_symbol {ts : List Token}
    (h : ∀ t ∈ ts.head?, ∃ s, t.kind = .symbol s ∧ s ≠ .leftParen ∧ s ≠ .not) :
    plain (term ts) = .error ⟨.termExpected, ts⟩ := by
  cases ts with
  | nil => rw [term]; rfl
  | cons t ts =>
    obtain ⟨s, kind, notBracket, notNeg⟩ := h t rfl
    rw [term]
    split
    · next found => exact absurd (TokenKind.symbol.inj (kind.symm.trans found)) notBracket
    · next found => exact absurd (TokenKind.symbol.inj (kind.symm.trans found)) notNeg
    · rfl
    · next found => cases kind.symm.trans found

theorem plain_term_identifier {t : Token} {name : String} (h : t.kind = .identifier name)
    (ts : List Token) :
    plain (term (t :: ts)) =
      if symbolAhead ts = some .leftParen then
        match HeadKind.ofName? name with
        | none => .error ⟨.unsuitableHead, t :: ts⟩
        | some kind => do
          let (args, afterArgs) ← plain (arguments ts.tail)
          let (_, rest) ← plain (symbol .rightParen afterArgs)
          return (.app kind t args, rest)
      else .ok (.named t, ts) := by
  rw [term]
  simp only [h]
  cases ts with
  | nil => rfl
  | cons u afterParen =>
    by_cases opened : symbolAhead (u :: afterParen) = some .leftParen
    · simp only [if_pos opened, if_pos (symbolAhead_cons u afterParen ▸ opened)]
      cases HeadKind.ofName? name with
      | none => rfl
      | some kind => exact plain_bind fun _ => plain_bind fun _ => rfl
    · simp only [if_neg opened, if_neg (symbolAhead_cons u afterParen ▸ opened)]
      rfl

theorem plain_arguments (ts : List Token) :
    plain (arguments ts) =
      if symbolAhead ts = some .rightParen then .ok ([], ts)
      else do
        let (first, afterFirst) ← plain (term ts)
        let (following, rest) ← plain (furtherArguments afterFirst)
        return (first :: following, rest) := by
  rw [arguments]
  by_cases closed : symbolAhead ts = some .rightParen
  · simp only [if_pos closed]
    rfl
  · simp only [if_neg closed]
    exact plain_bind fun _ => plain_bind fun _ => rfl

theorem plain_furtherArguments (ts : List Token) :
    plain (furtherArguments ts) =
      if symbolAhead ts = some .comma then do
        let (next, afterNext) ← plain (term ts.tail)
        let (following, rest) ← plain (furtherArguments afterNext)
        return (next :: following, rest)
      else .ok ([], ts) := by
  cases ts with
  | nil => rw [furtherArguments]; rfl
  | cons t afterComma =>
    rw [furtherArguments, symbolAhead_cons]
    by_cases comma : t.symbol? = some .comma
    · simp only [if_pos comma]
      exact plain_bind fun _ => plain_bind fun _ => rfl
    · simp only [if_neg comma]
      rfl

/-! ## Whole lists -/

theorem whole_eq (ts : List Token) :
    whole ts = plain (quantified ts) >>= fun (e, rest) =>
      if rest.isEmpty then .ok e else .error ⟨.trailing, rest⟩ := by
  rw [whole]
  cases quantified ts <;> rfl

end PredicateCalculus.Parser
