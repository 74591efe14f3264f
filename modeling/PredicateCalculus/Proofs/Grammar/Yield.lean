import PredicateCalculus.Proofs.RoundTrip.Brackets

/-! # What is kept of the tokens

Reading a text takes every one of its tokens into the tree, in its place and as it was written, but
for those that only group: brackets, and the signs between a name and a body and between arguments.
The brackets that are left out belong together in pairs.

* `Token.isPunctuation`, `Token.unpunctuated`: the tokens that only group, and a list without them.
* `Expr.yield`: the tokens of a tree from left to right.
* `Nonterminal.Keeps`: what the tokens of a construct have to do with its meaning.
* `Derivation.keeps`: no token of a derivation is lost or moved.
* `Balanced.dyckWord`: the brackets of a balanced list.
* `Expr.parse_keeps_tokens`: the tokens of a text that was read.
-/

set_option autoImplicit false

namespace PredicateCalculus

/-! ## Tokens that only group -/

namespace Symbol

def isPunctuation : Symbol → Bool
  | .leftParen | .rightParen | .dot | .comma => true
  | _ => false

end Symbol

namespace Token

def isPunctuation (t : Token) : Bool :=
  t.symbol?.any Symbol.isPunctuation

def unpunctuated (ts : List Token) : List Token :=
  ts.filter (!·.isPunctuation)

section

variable {ts us : List Token} {s : Symbol}

@[simp]
theorem unpunctuated_append :
    unpunctuated (ts ++ us) = unpunctuated ts ++ unpunctuated us :=
  List.filter_append ts us

@[simp]
theorem unpunctuated_name (name : Name) :
    unpunctuated (name.token :: ts) = name.token :: unpunctuated ts := by
  have kept : name.token.isPunctuation = false := by
    rw [isPunctuation, symbol?, name.isIdentifier]
    rfl
  exact List.filter_cons_of_pos (by rw [kept]; rfl)

theorem isPunctuation_mark (sign : Mark s) : sign.token.isPunctuation = s.isPunctuation := by
  rw [isPunctuation, sign.symbol?_eq]
  rfl

theorem unpunctuated_mark (sign : Mark s) (kept : s.isPunctuation = false) :
    unpunctuated (sign.token :: ts) = sign.token :: unpunctuated ts :=
  List.filter_cons_of_pos (by rw [isPunctuation_mark, kept]; rfl)

theorem unpunctuated_punctuation (sign : Mark s) (dropped : s.isPunctuation = true) :
    unpunctuated (sign.token :: ts) = unpunctuated ts :=
  List.filter_cons_of_neg (by rw [isPunctuation_mark, dropped]; simp)

theorem unpunctuated_enclosed (opening : Mark .leftParen) (closing : Mark .rightParen) :
    unpunctuated (opening.token :: (ts ++ [closing.token])) = unpunctuated ts := by
  rw [unpunctuated_punctuation opening rfl, unpunctuated_append,
    unpunctuated_punctuation closing rfl]
  exact List.append_nil _

end

end Token

/-! ## Tokens of a tree -/

namespace Expr

mutual

/-- The tokens of the nodes; those of an operator stand between its operands. -/
def yield : Expr → List Token
  | .var token _ => [token]
  | .app _ head arguments => head :: yieldAll arguments
  | .connect _ token left right => yield left ++ token :: yield right
  | .compare _ token left right => yield left ++ token :: yield right
  | .neg token operand => token :: yield operand
  | .quant _ token bound body => token :: bound :: yield body

def yieldAll : List Expr → List Token
  | [] => []
  | e :: rest => yield e ++ yieldAll rest

end

theorem yieldAll_eq (arguments : List Expr) : yieldAll arguments = arguments.flatMap yield := by
  induction arguments with
  | nil => rfl
  | cons e rest ih => rw [yieldAll, ih, List.flatMap_cons]

/-- Binding changes what variables stand for, but not their tokens. -/
theorem yield_bind (e : Expr) (name : String) (depth : Nat) :
    (e.bind name depth).yield = e.yield := by
  induction e generalizing depth with
  | var token reference => rfl
  | app kind head arguments ih =>
    have inside : (arguments.map (bind name depth)).flatMap yield = arguments.flatMap yield := by
      rw [List.flatMap_map]
      exact List.flatMap_congr fun e member => ih e member depth
    rw [bind, yield, yield, bindAll_eq, yieldAll_eq, yieldAll_eq, inside]
  | connect op token left right ihLeft ihRight => rw [bind, yield, yield, ihLeft, ihRight]
  | compare op token left right ihLeft ihRight => rw [bind, yield, yield, ihLeft, ihRight]
  | neg token operand ih => rw [bind, yield, yield, ih]
  | quant quantifier token bound body ih => rw [bind, yield, yield, ih]

end Expr

/-! ## Tokens of a derivation -/

namespace Nonterminal

/-- Links add their tokens to those of the expression to their left. -/
def Keeps : (l : Nonterminal) → List Token → l.Meaning → Prop
  | .quantified, ts, e => e.yield = Token.unpunctuated ts
  | .implication, ts, e => e.yield = Token.unpunctuated ts
  | .chain, ts, e => e.yield = Token.unpunctuated ts
  | .links _, ts, extend => ∀ left, (extend left).yield = left.yield ++ Token.unpunctuated ts
  | .comparison, ts, e => e.yield = Token.unpunctuated ts
  | .term, ts, e => e.yield = Token.unpunctuated ts
  | .arguments, ts, es => Expr.yieldAll es = Token.unpunctuated ts
  | .furtherArguments, ts, es => Expr.yieldAll es = Token.unpunctuated ts

end Nonterminal

namespace Derivation

open PredicateCalculus.Expr PredicateCalculus.Token

theorem keeps {l : Nonterminal} (d : Derivation l) : l.Keeps d.tokens d.meaning := by
  induction d with
  | quant quantifier sign bound dot body ih =>
    simp only [Nonterminal.Keeps] at ih ⊢
    rw [meaning, quantify, yield, yield_bind, ih, tokens,
      unpunctuated_mark sign (by cases quantifier <;> rfl), unpunctuated_name,
      unpunctuated_punctuation dot rfl]
  | ofImplication inner ih => exact ih
  | implies left sign right ihLeft ihRight =>
    simp only [Nonterminal.Keeps] at ihLeft ihRight ⊢
    rw [meaning, yield, ihLeft, ihRight, tokens, unpunctuated_append, unpunctuated_mark sign rfl]
  | ofChain inner ih => exact ih
  | joined op first links ihFirst ihLinks =>
    simp only [Nonterminal.Keeps] at ihFirst ihLinks ⊢
    rw [meaning, ihLinks, ihFirst, tokens, unpunctuated_append]
  | ofComparison inner ih => exact ih
  | link op sign right more ihRight ihMore =>
    simp only [Nonterminal.Keeps] at ihRight ihMore ⊢
    intro left
    rw [meaning, ihMore, yield, ihRight, tokens,
      unpunctuated_mark sign (by cases op.val <;> rfl), unpunctuated_append, List.append_assoc,
      List.cons_append]
  | lastLink op sign right ih =>
    simp only [Nonterminal.Keeps] at ih ⊢
    intro left
    rw [meaning, yield, ih, tokens, unpunctuated_mark sign (by cases op.val <;> rfl)]
  | compare op left sign right ihLeft ihRight =>
    simp only [Nonterminal.Keeps] at ihLeft ihRight ⊢
    rw [meaning, yield, ihLeft, ihRight, tokens, unpunctuated_append,
      unpunctuated_mark sign (by cases op <;> rfl)]
  | ofTerm inner ih => exact ih
  | brackets opening inner closing ih =>
    simp only [Nonterminal.Keeps] at ih ⊢
    rw [meaning, ih, tokens, unpunctuated_enclosed]
  | app kind head suits opening arguments closing ih =>
    simp only [Nonterminal.Keeps] at ih ⊢
    rw [meaning, yield, ih, tokens, unpunctuated_name, unpunctuated_enclosed]
  | var name =>
    rw [Nonterminal.Keeps, tokens, unpunctuated_name]
    rfl
  | neg sign operand ih =>
    simp only [Nonterminal.Keeps] at ih ⊢
    rw [meaning, yield, ih, tokens, unpunctuated_mark sign rfl]
  | noArguments => rfl
  | someArguments first more ihFirst ihMore =>
    simp only [Nonterminal.Keeps] at ihFirst ihMore ⊢
    rw [meaning, yieldAll, ihFirst, ihMore, tokens, unpunctuated_append]
  | noFurther => rfl
  | further comma next more ihNext ihMore =>
    simp only [Nonterminal.Keeps] at ihNext ihMore ⊢
    rw [meaning, yieldAll, ihNext, ihMore, tokens, unpunctuated_punctuation comma rfl,
      unpunctuated_append]

end Derivation

/-! ## Brackets -/

/-- The brackets of a balanced list are a Dyck word. -/
theorem Balanced.dyckWord {ts : List Token} (h : Balanced ts) :
    ∃ word : DyckWord, word.toList = ts.filterMap fun t => t.kind.bracket? := by
  induction h with
  | nil => exact ⟨0, rfl⟩
  | @other t ts other _ ih =>
    obtain ⟨word, steps⟩ := ih
    have none : t.kind.bracket? = none := by
      rw [TokenKind.isBracket_eq, Option.isSome_eq_false_iff, Option.isNone_iff_eq_none] at other
      exact other
    exact ⟨word, by rw [List.filterMap_cons, none, steps]⟩
  | pair opening closing _ _ ihInside ihRest =>
    obtain ⟨inside, stepsInside⟩ := ihInside
    obtain ⟨rest, stepsRest⟩ := ihRest
    refine ⟨inside.nest + rest, ?_⟩
    have whole : (inside.nest + rest).toList =
        .U :: (inside.toList ++ .D :: rest.toList) := by
      show [DyckStep.U] ++ inside.toList ++ [DyckStep.D] ++ rest.toList = _
      simp
    rw [whole, stepsInside, stepsRest]
    simp [opening.isSymbol, closing.isSymbol, TokenKind.bracket?]

/-! ## Texts -/

namespace Expr

/-- From left to right the tree has the tokens of the text, with their lexemes and columns, but for
those that only group. The brackets of the text belong together in pairs. -/
theorem parse_keeps_tokens {source : String} {e : Expr} (h : parse source = .ok e) :
    ∃ ts, Lexer.tokenize source = .ok ts ∧ e.yield = ts.filter (!·.isPunctuation) ∧
      ∃ word : DyckWord, word.toList = source.toList.filterMap Text.bracket? := by
  obtain ⟨ts, lexed, read⟩ := parse_eq_ok_iff.mp h
  obtain ⟨d, rfl, rfl⟩ := Parser.derivation_of_whole (lexed_of_tokenize lexed) read
  obtain ⟨word, steps⟩ := d.balanced.dyckWord
  exact ⟨d.tokens, lexed, d.keeps, word, steps.trans (Lexer.brackets_tokenize lexed).symm⟩

/-- The columns left out are those of blanks, brackets, the dot and the comma. -/
theorem parse_keeps_tokens_nested :
    ∃ e, parse "A x.\u3000(P(x, f(y)) and not (x equals y))" = .ok e ∧
      e.yield.map Token.lexeme =
        ["A", "x", "P", "x", "f", "y", "and", "not", "x", "equals", "y"] ∧
      e.yield.map Token.offset =
        [0, 2, 6, 8, 11, 13, 17, 21, 26, 28, 35].map some := by
  obtain ⟨e, parsed, -⟩ := Parser.exists_ok_of_any
    (parse "A x.\u3000(P(x, f(y)) and not (x equals y))") (fun _ => true) (by decide +kernel)
  obtain ⟨ts, lexed, same, -⟩ := parse_keeps_tokens parsed
  obtain ⟨us, lexed', test⟩ := Parser.exists_ok_of_any
    (Lexer.tokenize "A x.\u3000(P(x, f(y)) and not (x equals y))")
    (fun us =>
      (us.filter (!·.isPunctuation)).map Token.lexeme ==
        ["A", "x", "P", "x", "f", "y", "and", "not", "x", "equals", "y"] &&
      (us.filter (!·.isPunctuation)).map Token.offset ==
        [0, 2, 6, 8, 11, 13, 17, 21, 26, 28, 35].map some)
    (by decide +kernel)
  obtain rfl : ts = us := Except.ok.inj (lexed.symm.trans lexed')
  rw [Bool.and_eq_true, beq_iff_eq, beq_iff_eq, ← same] at test
  exact ⟨e, parsed, test⟩

end Expr

end PredicateCalculus
