import PredicateCalculus.Expr.ParseError
import PredicateCalculus.Proofs.Grammar.Unambiguity
import PredicateCalculus.Proofs.RoundTrip.Levels

/-! # Reading what was written

The written form of any tree that can be built is read back, as a tree that is written in the same
way. Reading resolves all names, so the two are equal exactly when the first tree does so too.

* `Derivation.built`: whatever has a derivation can be built, using each subtree once.
* `Expr.Usual.written_parse_print`: a written form is read back.
* `Expr.Built.parse_print`: when the tree that is read back equals the one that was written.
-/

set_option autoImplicit false

namespace PredicateCalculus

namespace Nonterminal

/-- What a construct stands for can be built; links keep what they extend so. -/
def Builds : (l : Nonterminal) → l.Meaning → Prop
  | .quantified, e => Expr.Built False e
  | .implication, e => Expr.Built False e
  | .chain, e => Expr.Built False e
  | .links _, extend => ∀ left, Expr.Built False left → Expr.Built False (extend left)
  | .comparison, e => Expr.Built False e
  | .term, e => Expr.Built False e
  | .arguments, es => ∀ e ∈ es, Expr.Built False e
  | .furtherArguments, es => ∀ e ∈ es, Expr.Built False e

end Nonterminal

theorem Derivation.built {l : Nonterminal} (d : Derivation l) : l.Builds d.meaning := by
  induction d with
  | quant quantifier sign bound dot body ih => exact .quant quantifier sign bound _ ih
  | ofImplication inner ih => exact ih
  | implies left sign right ihLeft ihRight => exact .connect .implies sign _ _ ihLeft ihRight
  | ofChain inner ih => exact ih
  | joined op first links ihFirst ihLinks => exact ihLinks _ ihFirst
  | ofComparison inner ih => exact ih
  | link op sign right more ihRight ihMore =>
    exact fun left built => ihMore _ (.connect op.val sign _ _ built ihRight)
  | lastLink op sign right ih => exact fun left built => .connect op.val sign _ _ built ih
  | compare op left sign right ihLeft ihRight => exact .compare op sign _ _ ihLeft ihRight
  | ofTerm inner ih => exact ih
  | brackets opening inner closing ih => exact ih
  | app kind head suits opening arguments closing ih => exact .app kind head suits _ ih
  | var name => exact .var name
  | neg sign operand ih => exact .neg sign _ ih
  | noArguments => exact fun e member => absurd member List.not_mem_nil
  | someArguments first more ihFirst ihMore =>
    exact fun e member => (List.mem_cons.mp member).elim (fun same => same ▸ ihFirst) (ihMore e)
  | noFurther => exact fun e member => absurd member List.not_mem_nil
  | further comma next more ihNext ihMore =>
    exact fun e member => (List.mem_cons.mp member).elim (fun same => same ▸ ihNext) (ihMore e)

namespace Expr

theorem parse_eq_ok_iff {source : String} {e : Expr} :
    parse source = .ok e ↔
      ∃ ts, Lexer.tokenize source = .ok ts ∧ Parser.whole ts = .ok e := by
  rw [parse]
  cases lexed : Lexer.tokenize source with
  | error stop => simp
  | ok ts =>
    simp only [Except.ok.injEq, exists_eq_left']
    cases Parser.whole ts <;> simp

/-- What is read was built from the outside, each subtree used once. -/
theorem built_of_parse {source : String} {e : Expr} (h : parse source = .ok e) :
    e.Built False := by
  obtain ⟨ts, lexed, read⟩ := parse_eq_ok_iff.mp h
  obtain ⟨d, -, rfl⟩ := Parser.derivation_of_whole (lexed_of_tokenize lexed) read
  exact d.built

theorem resolved_of_parse {source : String} {e : Expr} (h : parse source = .ok e) :
    e.Resolved [] :=
  (built_of_parse h).resolved not_false

theorem Usual.tokenize_print {e : Expr} (h : e.Usual) :
    ∃ ts, Lexer.tokenize e.print = .ok ts ∧ ts.map Token.kind = e.spelling := by
  have splits := h.spells [] [] rfl Lexer.splitsInto_nil
  rw [List.append_nil, List.append_nil] at splits
  exact splits.tokenize

theorem Usual.written_parse_print {e : Expr} (h : e.Usual) :
    ∃ read, parse e.print = .ok read ∧ read.written = e.written := by
  obtain ⟨ts, lexed, kinds⟩ := h.tokenize_print
  obtain ⟨d, rfl, written⟩ := (h.derived ts kinds).quantified
  exact ⟨d.meaning, parse_eq_ok_iff.mpr ⟨d.tokens, lexed, d.whole_tokens⟩, written⟩

/-- A tree is read back with the same shape and the same texts. It is read back as it was exactly
when every bound variable belongs to the nearest quantifier of its name; so it always is when no
subtree was used again. -/
theorem Built.parse_print {reuse : Prop} {e : Expr} (h : Built reuse e) :
    ∃ read, parse e.print = .ok read ∧ read.written = e.written ∧
      ((read == e) = true ↔ ∀ o ∈ e.occurrences [], o.BoundToNearest) ∧
      (¬reuse → (read == e) = true) := by
  obtain ⟨read, parsed, written⟩ := h.usual.written_parse_print
  have equal : (read == e) = true ↔ e.Resolved [] :=
    beq_iff_resolved (resolved_of_parse parsed) written
  exact ⟨read, parsed, written, equal.trans h.freeInNames.resolved_iff,
    fun once => equal.mpr (h.resolved once)⟩

/-- The variable of `forall x. P(x)`, taken out of it, is read back as a free variable. -/
theorem parse_print_detached :
    Built True (.var (.ofName "x") (.bound 0)) ∧
      ∃ read, parse (Expr.var (.ofName "x") (.bound 0)).print = .ok read ∧
        read.written = (Expr.var (.ofName "x") (.bound 0)).written ∧
        (read == .var (.ofName "x") (.bound 0)) = false := by
  have isName : IsName "x" ∧ IsName "P" := by decide +kernel
  have suits : HeadKind.predicate.Suits "P" := by simp [HeadKind.Suits]
  have whole : Built True (.quantify .universal (.ofSymbol .forAll) (.ofName "x")
      (.app .predicate (.ofName "P") [.named (.ofName "x")])) := by
    refine .quant .universal (.of .forAll) (.of "x" isName.1) _ ?_
    refine .app .predicate (.of "P" isName.2) suits _ fun e member => ?_
    rw [List.mem_singleton.mp member]
    exact .var (.of "x" isName.1)
  have detached : Built True (.var (.ofName "x") (.bound 0)) := by
    refine .part trivial _ _ whole ?_
    simp [quantify, bind, bindAll, named, preorder, preorderAll, Reference.bind, Token.ofName,
      Token.text]
  obtain ⟨read, parsed, written, equal, -⟩ := detached.parse_print
  refine ⟨detached, read, parsed, written, Bool.eq_false_iff.mpr fun same => ?_⟩
  have nearest := equal.mp same ⟨.ofName "x", .bound 0, []⟩ List.mem_cons_self
  cases (nearest 0 rfl).1

end Expr

end PredicateCalculus
