import PredicateCalculus.Proofs.Equality.Alike
import PredicateCalculus.Proofs.Evaluation.ByName
import PredicateCalculus.Proofs.Grammar.Viability
import PredicateCalculus.Proofs.Token.Decomposition

/-! # Other ways to write a text

A symbol may be written in several ways, and any blanks may stand between the words of a text. A
text that is written out anew in such a way has the same tokens, up to how and where they were
written. Reading does not look at that: it hands back equal trees with the same written form and the
same free variables, or it stops at the same place.

* `TokenKind.Word`: the words for a token.
* `Spaced`, `WrittenOut`: the texts that have words for given tokens, kept apart by blanks.
* `WrittenOut.splitsInto`: such a text splits into those tokens.
* `Expr.print_written`: the written form shows all that is printed.
* `Expr.parse_respelled`: reading two texts for the same tokens.
-/

set_option autoImplicit false

namespace PredicateCalculus

/-! ## Words and blanks -/

def TokenKind.Word : TokenKind → String → Prop
  | .symbol s, word => word ∈ s.spellings
  | .identifier name, word => word = name

instance (kind : TokenKind) (word : String) : Decidable (kind.Word word) :=
  match kind with
  | .symbol s => inferInstanceAs (Decidable (word ∈ s.spellings))
  | .identifier name => inferInstanceAs (Decidable (word = name))

/-- A word for each token, and blanks behind it: at least one, unless no more words come. -/
inductive Spaced : List TokenKind → List Char → Prop where
  | nil : Spaced [] []
  | word {kind : TokenKind} {kinds : List TokenKind} {text : List Char} (word : String)
      (blanks : List Char) (isWord : kind.Word word) (blank : Blanks blanks)
      (apart : kinds = [] ∨ blanks ≠ []) (rest : Spaced kinds text) :
      Spaced (kind :: kinds) (word.toList ++ (blanks ++ text))

/-- There may be blanks in front of the first word, too. -/
def WrittenOut (kinds : List TokenKind) (text : List Char) : Prop :=
  ∃ blanks words, Blanks blanks ∧ Spaced kinds words ∧ text = blanks ++ words

namespace Lexer

variable {text blanks : List Char} {kinds : List TokenKind}

theorem SplitsInto.behind (h : SplitsInto text kinds) (blank : Blanks blanks) :
    SplitsInto (blanks ++ text) kinds := by
  induction blanks with
  | nil => exact h
  | cons c blanks ih =>
    obtain ⟨first, others⟩ := List.forall_mem_cons.mp blank
    exact (ih others).skip first

theorem separated_of_blanks (blank : Blanks blanks) (some : blanks ≠ []) :
    Separated (blanks ++ text) := by
  obtain ⟨c, others, rfl⟩ := List.exists_cons_of_ne_nil some
  exact separated_of_isBlank (blank c List.mem_cons_self) (others ++ text)

end Lexer

open Lexer

theorem Spaced.splitsInto {kinds : List TokenKind} {text : List Char} (h : Spaced kinds text)
    (names : ∀ name, .identifier name ∈ kinds → IsName name) : SplitsInto text kinds := by
  induction h with
  | nil => exact splitsInto_nil
  | @word kind kinds text word blanks isWord blank apart rest ih =>
    have afterWord : SplitsInto (blanks ++ text) kinds :=
      (ih fun name member => names name (List.mem_cons_of_mem _ member)).behind blank
    cases kind with
    | symbol symbol => exact afterWord.spelled (Symbol.mem_table.mpr isWord)
    | identifier name =>
      obtain rfl : word = name := isWord
      have isName : IsName word := names word List.mem_cons_self
      refine afterWord.name (.of word isName) ?_
      rcases apart with rfl | some
      · -- Nothing but blanks comes behind the last word.
        cases rest
        by_cases none : blanks = []
        · rw [none]
          rfl
        · exact separated_of_blanks blank none
      · exact separated_of_blanks blank some

theorem WrittenOut.splitsInto {kinds : List TokenKind} {text : List Char}
    (h : WrittenOut kinds text) (names : ∀ name, .identifier name ∈ kinds → IsName name) :
    SplitsInto text kinds := by
  obtain ⟨blanks, words, blank, spaced, rfl⟩ := h
  exact (spaced.splitsInto names).behind blank

theorem tokenize_writtenOut {source other : String} {ts : List Token}
    (lexed : tokenize source = .ok ts) (h : WrittenOut (ts.map Token.kind) other.toList) :
    ∃ us, tokenize other = .ok us ∧ List.Forall₂ (fun t u => (t == u) = true) ts us := by
  have names : ∀ name, .identifier name ∈ ts.map Token.kind → IsName name := by
    intro name member
    obtain ⟨t, isToken, kind⟩ := List.mem_map.mp member
    exact lexed_of_tokenize lexed t isToken name kind
  obtain ⟨us, lexed', kinds⟩ := (h.splitsInto names).tokenize
  exact ⟨us, lexed', forall₂_beq_iff.mpr kinds.symm⟩

/-! ## What is printed -/

theorem Named.needsBrackets_bare (t : Named) (place : Place) :
    t.bare.build.needsBrackets place = t.build.needsBrackets place := by
  cases t <;> rfl

theorem Named.print_bare (t : Named) : t.bare.build.print = t.build.print := by
  induction t with
  | var token => rfl
  | app kind head arguments ih =>
    simp only [bare, build, Expr.print, bareAll_eq, buildAll_eq]
    congr 2
    refine Expr.printAll_congr ?_
    rw [List.map_map, List.map_map, List.map_map]
    refine List.map_congr_left fun t member => ?_
    simp only [Function.comp_apply, needsBrackets_bare, ih t member]
  | connect op token left right ihLeft ihRight =>
    simp only [bare, build, Expr.print, needsBrackets_bare, ihLeft, ihRight]
    rfl
  | compare op token left right ihLeft ihRight =>
    simp only [bare, build, Expr.print, needsBrackets_bare, ihLeft, ihRight]
    rfl
  | neg token operand ih => simp only [bare, build, Expr.print, needsBrackets_bare, ih]
  | quant quantifier token bound body ih =>
    simp only [bare, build, Expr.quantify, Expr.print, Expr.print_bind, ih]
    rfl

namespace Expr

theorem print_written (e : Expr) : e.written.build.print = e.print := by
  rw [written, Named.print_bare, print_unbound]

/-! ## Reading -/

/-- A text that is written out anew has equal tokens. Texts with equal tokens are both read, as
equal trees that are printed alike and have the same free variables; or neither of them is, and the
fault is at the same place, be it a token or the end. -/
theorem parse_respelled {source : String} {ts : List Token} (lexed : tokenize source = .ok ts) :
    (∀ other : String, WrittenOut (ts.map Token.kind) other.toList →
      ∃ us, tokenize other = .ok us ∧ List.Forall₂ (fun t u => (t == u) = true) ts us) ∧
    ∀ (other : String) (us : List Token), tokenize other = .ok us →
      List.Forall₂ (fun t u => (t == u) = true) ts us →
        (∃ e e', parse source = .ok e ∧ parse other = .ok e' ∧ (e == e') = true ∧
          e.print = e'.print ∧ e.freeVariables = e'.freeVariables) ∨
        ∃ fault fault' k, parse source = .error (.malformed source fault) ∧
          parse other = .error (.malformed other fault') ∧ fault.cause = fault'.cause ∧
          k ≤ ts.length ∧ fault.rest = ts.drop k ∧ fault'.rest = us.drop k ∧
          fault.token = ts.getD k .endOfText ∧ fault'.token = us.getD k .endOfText := by
  refine ⟨fun other writtenOut => tokenize_writtenOut lexed writtenOut,
    fun other us lexed' equal => ?_⟩
  have kinds := forall₂_beq_iff.mp equal
  rcases Parser.whole_of_kinds kinds with
    ⟨e, e', read, read', same⟩ | ⟨cause, rest, rest', stopped, stopped', lengths⟩
  · have parsed : parse source = .ok e := parse_eq_ok_iff.mpr ⟨ts, lexed, read⟩
    have parsed' : parse other = .ok e' := parse_eq_ok_iff.mpr ⟨us, lexed', read'⟩
    have alike : (e == e') = true :=
      (beq_iff_resolved (resolved_of_parse parsed) same).mpr (resolved_of_parse parsed')
    have prints : e.print = e'.print := by rw [← e.print_written, same, e'.print_written]
    have names : e.freeVariables = e'.freeVariables :=
      congrArg List.eraseDups (beq_iff_alike.mp alike).freeOccurrences_eq
    exact .inl ⟨e, e', parsed, parsed', alike, prints, names⟩
  · obtain ⟨k, le, dropped⟩ := Parser.rest_of_whole (lexed_of_tokenize lexed) stopped
    obtain ⟨k', le', dropped'⟩ := Parser.rest_of_whole (lexed_of_tokenize lexed') stopped'
    simp only at dropped dropped'
    have sizes : ts.length = us.length := equal.length_eq
    have places : k = k' := by
      rw [dropped, dropped', List.length_drop, List.length_drop] at lengths
      omega
    subst places
    refine .inr ⟨⟨cause, rest⟩, ⟨cause, rest'⟩, k, ?_, ?_, rfl, le, dropped, dropped',
      Fault.token_of_drop dropped, Fault.token_of_drop dropped'⟩
    · exact (parse_eq_error_iff lexed).mpr ⟨_, rfl, stopped⟩
    · exact (parse_eq_error_iff lexed').mpr ⟨_, rfl, stopped'⟩

/-- `x^~y` written out with other words and blanks is read in the same way. Where the last sign is
out of place, this is found at the same token. -/
theorem parse_respelled_apart :
    (∃ e e', parse "x^~y" = .ok e ∧ parse "\u00A0x  and\tnot\u3000y " = .ok e' ∧
      (e == e') = true ∧ e.print = e'.print) ∧
    ∃ fault fault', parse "x^~^" = .error (.malformed "x^~^" fault) ∧
      parse " x & not and" = .error (.malformed " x & not and" fault') ∧
      fault.rest.length = 1 ∧ fault'.rest.length = 1 := by
  constructor
  · obtain ⟨ts, lexed, kinds⟩ := Parser.exists_ok_of_any (tokenize "x^~y")
      (fun ts => ts.map Token.kind ==
        [.identifier "x", .symbol .and, .symbol .not, .identifier "y"]) (by decide +kernel)
    have writtenOut : WrittenOut (ts.map Token.kind) "\u00A0x  and\tnot\u3000y ".toList := by
      rw [beq_iff_eq.mp kinds]
      refine ⟨['\u00A0'], _, by decide, ?_, rfl⟩
      refine .word "x" [' ', ' '] (by decide) (by decide) (by decide) ?_
      refine .word "and" ['\t'] (by decide) (by decide) (by decide) ?_
      refine .word "not" ['\u3000'] (by decide) (by decide) (by decide) ?_
      exact .word "y" [' '] (by decide) (by decide) (by decide) .nil
    obtain ⟨us, lexed', equal⟩ := (parse_respelled lexed).1 _ writtenOut
    obtain ⟨read, parsed, -⟩ := Parser.exists_ok_of_any (parse "x^~y") (fun _ => true)
      (by decide +kernel)
    rcases (parse_respelled lexed).2 _ us lexed' equal with
      ⟨e, e', isRead, isRead', alike, prints, -⟩ | ⟨fault, -, -, failed, -⟩
    · exact ⟨e, e', isRead, isRead', alike, prints⟩
    · rw [parsed] at failed
      cases failed
  · obtain ⟨ts, lexed, test⟩ := Parser.exists_ok_of_any (tokenize "x^~^")
      (fun ts => ts.map Token.kind == [.identifier "x", .symbol .and, .symbol .not, .symbol .and] &&
        Parser.failsWith (fun fault => fault.rest.length == 1) (Parser.whole ts))
      (by decide +kernel)
    rw [Bool.and_eq_true, beq_iff_eq] at test
    have writtenOut : WrittenOut (ts.map Token.kind) " x & not and".toList := by
      rw [test.1]
      refine ⟨[' '], _, by decide, ?_, rfl⟩
      refine .word "x" [' '] (by decide) (by decide) (by decide) ?_
      refine .word "&" [' '] (by decide) (by decide) (by decide) ?_
      refine .word "not" [' '] (by decide) (by decide) (by decide) ?_
      exact .word "and" [] (by decide) (by decide) (by decide) .nil
    obtain ⟨us, lexed', equal⟩ := (parse_respelled lexed).1 _ writtenOut
    have sizes : us.length = ts.length := equal.length_eq.symm
    rcases (parse_respelled lexed).2 _ us lexed' equal with
      ⟨e, -, isRead, -⟩ | ⟨fault, fault', k, failed, failed', -, -, rest, rest', -⟩
    · obtain ⟨_, relexed, read⟩ := parse_eq_ok_iff.mp isRead
      obtain rfl := Except.ok.inj (lexed.symm.trans relexed)
      rw [read] at test
      cases test.2
    · obtain ⟨_, same, stopped⟩ := (parse_eq_error_iff lexed).mp failed
      obtain ⟨-, rfl⟩ := ParseError.malformed.inj same
      have one : fault.rest.length = 1 := by
        rw [stopped] at test
        exact beq_iff_eq.mp test.2
      refine ⟨fault, fault', failed, failed', one, ?_⟩
      rw [rest', List.length_drop, sizes, ← List.length_drop, ← rest, one]

end Expr

end PredicateCalculus
