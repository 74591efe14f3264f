import Mathlib.Combinatorics.Enumerative.DyckWord
import PredicateCalculus.Proofs.Token.Decomposition

/-! # The brackets of a text

Brackets occur in no lexeme but their own, so a text has those of its tokens, in the same order.

* `TokenKind.bracket?`, `Text.bracket?`: a bracket as a step of a Dyck word.
* `Lexer.brackets_tokenize`: a text has the brackets of its tokens.
-/

set_option autoImplicit false

namespace PredicateCalculus

namespace TokenKind

def bracket? : TokenKind → Option DyckStep
  | .symbol .leftParen => some .U
  | .symbol .rightParen => some .D
  | _ => none

end TokenKind

namespace Text

def bracket? (c : Char) : Option DyckStep :=
  if c = '(' then some .U else if c = ')' then some .D else none

theorem bracket?_eq_none {c : Char} {test : Char → Bool} (h : test c = true)
    (opening : test '(' = false) (closing : test ')' = false) : bracket? c = none := by
  have notOpening : c ≠ '(' := by
    rintro rfl
    rw [opening] at h
    cases h
  have notClosing : c ≠ ')' := by
    rintro rfl
    rw [closing] at h
    cases h
  rw [bracket?, if_neg notOpening, if_neg notClosing]

end Text

namespace Lexer

theorem brackets_spelling : ∀ entry ∈ Symbol.table,
    entry.2.toList.filterMap Text.bracket? = (TokenKind.symbol entry.1).bracket?.toList := by
  decide +kernel

theorem Front.brackets {behind : List Char} {kind : TokenKind} {lexeme : String}
    (h : Front behind kind lexeme) :
    lexeme.toList.filterMap Text.bracket? = kind.bracket?.toList := by
  cases h with
  | symbol listed only => exact brackets_spelling _ listed
  | identifier nonempty letters longest unspelled =>
    exact List.filterMap_eq_nil_iff.mpr fun c member =>
      Text.bracket?_eq_none (letters c member) rfl rfl

theorem Decomposes.brackets {before text rest : List Char} {tokens : List Token}
    (h : Decomposes before text tokens rest) :
    text.filterMap Text.bracket? =
      tokens.filterMap (fun t => t.kind.bracket?) ++ rest.filterMap Text.bracket? := by
  have none_of_blanks : ∀ {blanks : List Char}, Blanks blanks →
      blanks.filterMap Text.bracket? = [] := fun blank =>
    List.filterMap_eq_nil_iff.mpr fun c member =>
      Text.bracket?_eq_none (blank c member) (by decide) (by decide)
  induction h with
  | rest blanks blank =>
    rw [List.filterMap_append, none_of_blanks blank]
    rfl
  | @token before behind rest kind lexeme tokens blanks blank front others ih =>
    rw [List.filterMap_append, List.filterMap_append, none_of_blanks blank, front.brackets, ih,
      List.filterMap_cons]
    cases kind.bracket? <;> rfl

theorem brackets_tokenize {source : String} {ts : List Token} (h : tokenize source = .ok ts) :
    source.toList.filterMap Text.bracket? = ts.filterMap fun t => t.kind.bracket? := by
  rw [(decomposes_of_tokenize h).brackets, List.filterMap_nil, List.append_nil]

end Lexer

end PredicateCalculus
