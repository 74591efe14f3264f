import PredicateCalculus.Proofs.RoundTrip.Brackets

/-! # How many brackets are needed

Leaving out a pair of brackets leaves two brackets fewer, and equal expressions are written with
equally many. So no text for an expression has fewer brackets than the written form of what is read
from it, and a bracket that is taken out of the written form is missed.

* `bracketCount`, `Text.bracketCount`: the brackets among tokens, and in a text.
* `Lexer.bracketCount_tokenize`: a text has as many as its tokens.
* `Expr.Alike.bracketCount_eq`: equal expressions are spelled with equally many.
* `Expr.print_has_fewest_brackets`: the written form of what was read.
-/

set_option autoImplicit false

namespace PredicateCalculus

/-! ## Brackets among tokens -/

@[simp]
theorem TokenKind.isBracket_identifier (name : String) :
    (TokenKind.identifier name).isBracket = false := rfl

def bracketCount (kinds : List TokenKind) : Nat :=
  kinds.countP TokenKind.isBracket

section

variable {kinds kinds' : List TokenKind}

@[simp]
theorem bracketCount_nil : bracketCount [] = 0 := rfl

@[simp]
theorem bracketCount_cons (kind : TokenKind) :
    bracketCount (kind :: kinds) = bracketCount kinds + if kind.isBracket then 1 else 0 :=
  List.countP_cons

@[simp]
theorem bracketCount_append :
    bracketCount (kinds ++ kinds') = bracketCount kinds + bracketCount kinds' :=
  List.countP_append

theorem bracketCount_bracketedKinds (brackets : Bool) :
    bracketCount (Expr.bracketedKinds brackets kinds) =
      bracketCount kinds + if brackets then 2 else 0 := by
  cases brackets with
  | false => rfl
  | true => simp [Expr.bracketedKinds, TokenKind.isBracket]

end

theorem DropsBrackets.bracketCount_eq {ts ts' : List Token} (h : DropsBrackets ts ts') :
    bracketCount (ts.map Token.kind) = bracketCount (ts'.map Token.kind) + 2 := by
  obtain ⟨front, opening, inner, closing, back, -, -⟩ := h
  simp only [List.map_append, List.map_cons, opening.isSymbol, closing.isSymbol,
    bracketCount_append, bracketCount_cons, TokenKind.isBracket, if_true]
  omega

theorem Reduces.bracketCount_le {ts ts' : List Token} (h : Reduces ts ts') :
    bracketCount (ts'.map Token.kind) ≤ bracketCount (ts.map Token.kind) := by
  induction h with
  | refl => exact Nat.le_refl _
  | tail _ step ih =>
    have fewer := step.bracketCount_eq
    omega

/-! ## Brackets in a text -/

namespace Text

def isBracket (c : Char) : Bool :=
  c == '(' || c == ')'

def bracketCount (text : List Char) : Nat :=
  text.countP isBracket

theorem bracketCount_eq_length (text : List Char) :
    bracketCount text = (text.filterMap bracket?).length := by
  have same : isBracket = fun c => (bracket? c).isSome := by
    funext c
    by_cases opening : c = '('
    · simp [isBracket, bracket?, opening]
    · by_cases closing : c = ')' <;> simp [isBracket, bracket?, opening, closing]
  rw [List.length_filterMap_eq_countP, bracketCount, same]

theorem bracketCount_pair (front inner back : List Char) :
    bracketCount (front ++ '(' :: (inner ++ ')' :: back)) =
      bracketCount (front ++ (inner ++ back)) + 2 := by
  have opening : isBracket '(' = true := rfl
  have closing : isBracket ')' = true := rfl
  simp only [bracketCount, List.countP_append, List.countP_cons, opening, closing, if_true]
  omega

end Text

namespace Lexer

theorem bracketCount_tokenize {source : String} {ts : List Token}
    (h : tokenize source = .ok ts) :
    Text.bracketCount source.toList = bracketCount (ts.map Token.kind) := by
  rw [Text.bracketCount_eq_length, brackets_tokenize h, List.length_filterMap_eq_countP,
    bracketCount, List.countP_map, funext TokenKind.isBracket_eq]
  rfl

end Lexer

namespace Expr

/-! ## Equal expressions -/

theorem bracketCount_operandKinds (e : Expr) (place : PredicateCalculus.Place) :
    bracketCount (e.operandKinds place) =
      bracketCount e.spelling + if e.needsBrackets place then 2 else 0 :=
  bracketCount_bracketedKinds _

theorem bracketCount_spellingAll (arguments : List Expr) :
    bracketCount (spellingAll arguments) =
      bracketCount (arguments.flatMap fun e => e.operandKinds .elsewhere) := by
  induction arguments with
  | nil => rfl
  | cons e rest ih =>
    cases rest with
    | nil => simp [spellingAll, operandKinds]
    | cons e' rest =>
      rw [List.flatMap_cons, bracketCount_append, ← ih]
      simp [spellingAll, operandKinds, TokenKind.isBracket]

theorem Alike.needsBrackets_eq {e e' : Expr} (h : Alike e e')
    (place : PredicateCalculus.Place) : e.needsBrackets place = e'.needsBrackets place := by
  cases h <;> rfl

/-- The tokens of variables and quantifiers do not count, as the usual ones are no brackets. -/
theorem Alike.bracketCount_eq {e e' : Expr} (h : Alike e e') (usual : e.Usual)
    (usual' : e'.Usual) : bracketCount e.spelling = bracketCount e'.spelling := by
  induction h with
  | var token token' reference =>
    cases usual with
    | var name =>
      cases usual' with
      | var name' => simp [spelling, name.isIdentifier, name'.isIdentifier]
  | app kind head head' arguments arguments' heads lengths each ih =>
    have operands : arguments.map (fun e => bracketCount (e.operandKinds .elsewhere)) =
        arguments'.map fun e => bracketCount (e.operandKinds .elsewhere) := by
      refine map_eq_of_getElem lengths fun i below below' => ?_
      have same := ih i below below' (usual.child (List.getElem_mem below))
        (usual'.child (List.getElem_mem below'))
      simp only [bracketCount_operandKinds, (each i below below').needsBrackets_eq, same]
    have inside : bracketCount (spellingAll arguments) = bracketCount (spellingAll arguments') := by
      rw [bracketCount_spellingAll, bracketCount_spellingAll, bracketCount, bracketCount,
        List.countP_flatMap, List.countP_flatMap]
      exact congrArg List.sum operands
    simp only [spelling, bracketCount_cons, bracketCount_append, heads, inside]
  | connect op token token' left left' right right' tokens first second ihFirst ihSecond =>
    have lefts := ihFirst (usual.child List.mem_cons_self) (usual'.child List.mem_cons_self)
    have rights := ihSecond (usual.child (List.mem_cons_of_mem _ List.mem_cons_self))
      (usual'.child (List.mem_cons_of_mem _ List.mem_cons_self))
    simp only [spelling, bracketCount_append, bracketCount_cons, bracketCount_bracketedKinds,
      first.needsBrackets_eq, second.needsBrackets_eq, lefts, rights, tokens]
  | compare op token token' left left' right right' tokens first second ihFirst ihSecond =>
    have lefts := ihFirst (usual.child List.mem_cons_self) (usual'.child List.mem_cons_self)
    have rights := ihSecond (usual.child (List.mem_cons_of_mem _ List.mem_cons_self))
      (usual'.child (List.mem_cons_of_mem _ List.mem_cons_self))
    simp only [spelling, bracketCount_append, bracketCount_cons, bracketCount_bracketedKinds,
      first.needsBrackets_eq, second.needsBrackets_eq, lefts, rights, tokens]
  | neg token token' operand operand' tokens inner ih =>
    have operands := ih (usual.child List.mem_cons_self) (usual'.child List.mem_cons_self)
    simp only [spelling, bracketCount_cons, bracketCount_bracketedKinds, inner.needsBrackets_eq,
      operands]
  | quant quantifier token token' bound bound' body body' inner ih =>
    have bodies := ih (usual.child List.mem_cons_self) (usual'.child List.mem_cons_self)
    cases usual with
    | quant _ sign name =>
      cases usual' with
      | quant _ sign' name' =>
        simp [spelling, sign.isSymbol, sign'.isSymbol, name.isIdentifier, name'.isIdentifier,
          bodies]

/-! ## The written form of what was read -/

theorem reduces_of_parse {source : String} {e : Expr} (h : parse source = .ok e) :
    ∃ ts us kept, Lexer.tokenize source = .ok ts ∧ Lexer.tokenize e.print = .ok us ∧
      Reduces ts kept ∧ kept.map Token.kind = us.map Token.kind ∧
      us.map Token.kind = e.spelling := by
  obtain ⟨ts, lexed, read⟩ := parse_eq_ok_iff.mp h
  obtain ⟨d, rfl, rfl⟩ := Parser.derivation_of_whole (lexed_of_tokenize lexed) read
  obtain ⟨us, printed, spelled⟩ := (built_of_parse h).usual.tokenize_print
  obtain ⟨kept, reduces, spelledKept⟩ := Fitted.plain d.fitted
  exact ⟨d.tokens, us, kept, lexed, printed, reduces, spelledKept.trans spelled.symm, spelled⟩

theorem bracketCount_print_le {source other : String} {e e' : Expr} (h : parse source = .ok e)
    (h' : parse other = .ok e') (equal : (e' == e) = true) :
    Text.bracketCount e.print.toList ≤ Text.bracketCount other.toList := by
  obtain ⟨-, us, -, -, printed, -, -, spelled⟩ := reduces_of_parse h
  obtain ⟨ts, us', kept, lexed, -, reduces, sameKinds, spelled'⟩ := reduces_of_parse h'
  have asMany : bracketCount e'.spelling = bracketCount e.spelling :=
    (beq_iff_alike.mp equal).bracketCount_eq (built_of_parse h').usual (built_of_parse h).usual
  calc Text.bracketCount e.print.toList
      = bracketCount (kept.map Token.kind) := by
        rw [Lexer.bracketCount_tokenize printed, sameKinds, spelled, spelled', asMany]
    _ ≤ bracketCount (ts.map Token.kind) := reduces.bracketCount_le
    _ = Text.bracketCount other.toList := (Lexer.bracketCount_tokenize lexed).symm

/-- The tokens of the written form are those of the text, but for pairs of brackets that are left
out. No text for an equal expression has fewer brackets; so without any one pair of its brackets the
written form is not read, or is read as something else. -/
theorem print_has_fewest_brackets {source : String} {e : Expr} (h : parse source = .ok e) :
    (∃ ts us kept, Lexer.tokenize source = .ok ts ∧ Lexer.tokenize e.print = .ok us ∧
      Reduces ts kept ∧ List.Forall₂ (fun t u => (t == u) = true) kept us) ∧
    (∀ (other : String) (e' : Expr), parse other = .ok e' → (e' == e) = true →
      Text.bracketCount e.print.toList ≤ Text.bracketCount other.toList) ∧
    ∀ front inner back : List Char, e.print.toList = front ++ '(' :: (inner ++ ')' :: back) →
      ∀ e', parse (String.ofList (front ++ (inner ++ back))) = .ok e' → (e' == e) = false := by
  refine ⟨?_, fun other e' parsed equal => bracketCount_print_le h parsed equal, ?_⟩
  · obtain ⟨ts, us, kept, lexed, printed, reduces, sameKinds, -⟩ := reduces_of_parse h
    exact ⟨ts, us, kept, lexed, printed, reduces, forall₂_beq_iff.mpr sameKinds⟩
  · intro front inner back written e' parsed
    by_contra equal
    have least := bracketCount_print_le h parsed (by simpa using equal)
    rw [written, String.toList_ofList, Text.bracketCount_pair] at least
    omega

/-- Of three pairs two are left out, and without the last one the implication leans to the right. -/
theorem print_has_fewest_brackets_leaning :
    ∃ e, parse "((x -> (y)) -> z)" = .ok e ∧ e.print = "(x -> y) -> z" ∧
      (∀ (other : String) (e' : Expr), parse other = .ok e' → (e' == e) = true →
        2 ≤ Text.bracketCount other.toList) ∧
      ∀ e', parse "x -> y -> z" = .ok e' → (e' == e) = false := by
  obtain ⟨e, parsed, test⟩ := Parser.exists_ok_of_any (parse "((x -> (y)) -> z)")
    (fun e => e.print == "(x -> y) -> z") (by decide +kernel)
  have printed : e.print = "(x -> y) -> z" := beq_iff_eq.mp test
  obtain ⟨-, fewest, needed⟩ := print_has_fewest_brackets parsed
  refine ⟨e, parsed, printed, fun other e' read equal => ?_, fun e' read => ?_⟩
  · have least := fewest other e' read equal
    rw [printed] at least
    exact least
  · exact needed [] "x -> y".toList " -> z".toList (by rw [printed]; decide) e' read

end Expr

end PredicateCalculus
