import PredicateCalculus.Proofs.Grammar.Descent
import PredicateCalculus.Proofs.Token.Decomposition

/-! # Reading comes to an end

Six levels for each token that is left, and six more, suffice for every reader at every place of a
list. Six readers, from the loosest construct to the bracketed one, can call each other in turn at
one place before a token is taken.

* `Descent.proceeds_quantified` and the theorems about the other readers.
* `Descent.Moves`: what every reader does at a position.
* `Descent.parse_within`: what this says of all places in all lists, and of all texts.
-/

set_option autoImplicit false

namespace PredicateCalculus

open PredicateCalculus.Parser

namespace Descent

/-! ## The readers -/

-- The induction is on the levels. Each theorem asks for one level more than those about the readers
-- that it calls at the same place, and a token that was taken gives six of them back.
mutual

theorem proceeds_quantified {tokens : List Token} {position depth : Nat}
    (inside : position ≤ tokens.length)
    (deep : 6 * (tokens.length - position) + 6 ≤ depth) :
    Proceeds tokens (fun _ => position + 1) position (quantified depth)
      (plain (Parser.quantified (tokens.drop position))) := by
  obtain ⟨depth, rfl⟩ := Nat.exists_eq_add_one.mpr (show 0 < depth by omega)
  rw [quantified, plain_quantified]
  refine .peek ?_
  rw [symbol?_headD_bind rfl]
  cases found : (symbolAhead (tokens.drop position)).bind Quantifier.ofSymbol? with
  | none => exact proceeds_implication inside (by omega)
  | some quantifier =>
    have more := lt_of_choice found
    refine .take ?_
    rw [List.tail_drop]
    refine (proceeds_identifier more).bind fun bound afterName forward inside far => ?_
    refine (proceeds_symbol (by decide) inside).bind fun _ afterDot forward inside far => ?_
    refine (proceeds_quantified inside (by omega)).bind fun body finish forward inside far => ?_
    exact .pure _ inside (by omega)

theorem proceeds_implication {tokens : List Token} {position depth : Nat}
    (inside : position ≤ tokens.length)
    (deep : 6 * (tokens.length - position) + 5 ≤ depth) :
    Proceeds tokens (fun _ => position + 1) position (implication depth)
      (plain (Parser.implication (tokens.drop position))) := by
  obtain ⟨depth, rfl⟩ := Nat.exists_eq_add_one.mpr (show 0 < depth by omega)
  rw [implication, plain_implication]
  refine (proceeds_chain inside (by omega)).bind fun left afterLeft forward inside far => ?_
  refine .ifSymbol (by decide) (fun ahead => ?_) (.pure left inside far)
  have more := lt_of_symbolAhead ahead
  refine .take ?_
  rw [List.tail_drop]
  refine (proceeds_implication more (by omega)).bind fun right finish forward inside far => ?_
  exact .pure _ inside (by omega)

theorem proceeds_chain {tokens : List Token} {position depth : Nat}
    (inside : position ≤ tokens.length)
    (deep : 6 * (tokens.length - position) + 4 ≤ depth) :
    Proceeds tokens (fun _ => position + 1) position (chain depth)
      (plain (Parser.chain (tokens.drop position))) := by
  obtain ⟨depth, rfl⟩ := Nat.exists_eq_add_one.mpr (show 0 < depth by omega)
  rw [chain, plain_chain]
  refine (proceeds_comparison inside (by omega)).bind fun first afterFirst forward inside far => ?_
  exact (proceeds_links none first inside (by omega)).weaken fun _ => far

theorem proceeds_links {tokens : List Token} {position depth : Nat} (joined : Option Connective)
    (left : Expr) (inside : position ≤ tokens.length)
    (deep : 6 * (tokens.length - position) + 2 ≤ depth) :
    Proceeds tokens (fun _ => position) position (links depth joined left)
      (plain (Parser.links joined left (tokens.drop position))) := by
  obtain ⟨depth, rfl⟩ := Nat.exists_eq_add_one.mpr (show 0 < depth by omega)
  rw [links, plain_links_eq]
  refine (proceeds_link joined left inside (by omega)).bind
    fun round middle forward inside far => ?_
  match round, far with
  | none, _ => exact .pure left inside forward
  | some (op, longer), far =>
    have further : position + 2 ≤ middle := far
    exact (proceeds_links (some op) longer inside (by omega)).weaken fun _ => forward

theorem proceeds_link {tokens : List Token} {position depth : Nat} (joined : Option Connective)
    (left : Expr) (inside : position ≤ tokens.length)
    (deep : 6 * (tokens.length - position) + 1 ≤ depth) :
    Proceeds tokens (roundGoal position) position (link depth joined left)
      (readLink joined left (tokens.drop position)) := by
  obtain ⟨depth, rfl⟩ := Nat.exists_eq_add_one.mpr (show 0 < depth by omega)
  rw [link, readLink]
  refine .peek ?_
  rw [symbol?_headD_bind rfl]
  cases found : (symbolAhead (tokens.drop position)).bind Connective.ofChainSymbol? with
  | none => exact .pure none inside (Nat.le_refl _)
  | some op =>
    have more := lt_of_choice found
    refine .take ?_
    by_cases mixed : joined.any (· != op) = true
    · simp only [if_pos mixed]
      exact .fail .mixedChain more (headD_cons_drop more)
    · simp only [if_neg mixed]
      rw [List.tail_drop]
      refine (proceeds_comparison more (by omega)).bind fun right finish forward inside far => ?_
      exact .pure _ inside far

theorem proceeds_comparison {tokens : List Token} {position depth : Nat}
    (inside : position ≤ tokens.length)
    (deep : 6 * (tokens.length - position) + 3 ≤ depth) :
    Proceeds tokens (fun _ => position + 1) position (comparison depth)
      (plain (Parser.comparison (tokens.drop position))) := by
  obtain ⟨depth, rfl⟩ := Nat.exists_eq_add_one.mpr (show 0 < depth by omega)
  rw [comparison, plain_comparison]
  refine (proceeds_term inside (by omega)).bind fun left afterLeft forward inside far => ?_
  simp only
  refine .peek ?_
  rw [symbol?_headD_bind rfl]
  cases found : (symbolAhead (tokens.drop afterLeft)).bind Comparison.ofSymbol? with
  | none => exact .pure left inside far
  | some op =>
    have more := lt_of_choice found
    refine .take ?_
    rw [List.tail_drop]
    refine (proceeds_term more (by omega)).bind fun right finish forward inside far => ?_
    exact .pure _ inside (by omega)

theorem proceeds_term {tokens : List Token} {position depth : Nat}
    (inside : position ≤ tokens.length)
    (deep : 6 * (tokens.length - position) + 2 ≤ depth) :
    Proceeds tokens (fun _ => position + 1) position (term depth)
      (plain (Parser.term (tokens.drop position))) := by
  obtain ⟨depth, rfl⟩ := Nat.exists_eq_add_one.mpr (show 0 < depth by omega)
  rw [term]
  refine .peek ?_
  cases left : tokens.drop position with
  | nil =>
    rw [plain_term_symbol (by simp)]
    exact .fail .termExpected inside left
  | cons t rest =>
    have more := lt_of_drop_eq_cons left
    obtain rfl : tokens.drop (position + 1) = rest := by
      rw [← List.tail_drop, left, List.tail_cons]
    rw [List.headD_cons]
    split
    · next kind =>
      rw [← left]
      refine proceeds_bracketed ?_ (by omega)
      rw [left, symbolAhead_cons, Token.symbol?, kind]
    · next kind =>
      rw [plain_term_neg kind]
      refine .take ?_
      rw [left, List.headD_cons]
      refine (proceeds_term more (by omega)).bind fun operand finish forward inside far => ?_
      exact .pure _ inside (by omega)
    · next s notBracket notNeg kind =>
      have other : ∀ u ∈ (t :: tokens.drop (position + 1)).head?,
          ∃ s, u.kind = .symbol s ∧ s ≠ .leftParen ∧ s ≠ .not := by
        rintro u ⟨⟩
        exact ⟨s, kind, notBracket, notNeg⟩
      rw [plain_term_symbol other]
      exact .fail .termExpected inside left
    · next name kind =>
      rw [plain_term_name kind]
      refine .take ?_
      rw [left, List.headD_cons]
      refine .ifSymbol (by decide) (fun ahead => ?_) (.pure _ more (Nat.le_refl _))
      exact (proceeds_application kind ahead (by omega)).weaken fun _ => Nat.le_add_right _ _

theorem proceeds_bracketed {tokens : List Token} {position depth : Nat}
    (ahead : symbolAhead (tokens.drop position) = some .leftParen)
    (deep : 6 * (tokens.length - position) + 1 ≤ depth) :
    Proceeds tokens (fun _ => position + 1) position (bracketed depth)
      (plain (Parser.term (tokens.drop position))) := by
  have more := lt_of_symbolAhead ahead
  obtain ⟨depth, rfl⟩ := Nat.exists_eq_add_one.mpr (show 0 < depth by omega)
  obtain ⟨t, rest, left, kind⟩ := symbolAhead_eq_some ahead
  obtain rfl : tokens.drop (position + 1) = rest := by rw [← List.tail_drop, left, List.tail_cons]
  rw [bracketed, left, plain_term_brackets kind]
  refine .expected (by decide) ahead ?_
  refine (proceeds_quantified more (by omega)).bind fun e afterBody forward inside far => ?_
  refine (proceeds_symbol (by decide) inside).bind fun _ finish forward inside far => ?_
  exact .pure e inside (by omega)

theorem proceeds_application {tokens : List Token} {position depth : Nat} {t : Token}
    {name : String} (kind : t.kind = .identifier name)
    (ahead : symbolAhead (tokens.drop position) = some .leftParen)
    (deep : 6 * (tokens.length - position) + 1 ≤ depth) :
    Proceeds tokens (fun _ => position + 2) position (application depth t)
      (plain (Parser.term (t :: tokens.drop position))) := by
  have more := lt_of_symbolAhead ahead
  obtain ⟨depth, rfl⟩ := Nat.exists_eq_add_one.mpr (show 0 < depth by omega)
  have text : t.text = name := by rw [Token.text, kind]
  rw [application, plain_term_identifier kind, if_pos ahead, text]
  cases HeadKind.ofName? name with
  | none => exact .fail .unsuitableHead (Nat.le_of_lt more) rfl
  | some headKind =>
    refine .expected (by decide) ahead ?_
    rw [List.tail_drop]
    refine (proceeds_arguments more (by omega)).bind fun args afterArgs forward inside far => ?_
    refine (proceeds_symbol (by decide) inside).bind fun _ finish forward inside far => ?_
    exact .pure _ inside (by omega)

theorem proceeds_arguments {tokens : List Token} {position depth : Nat}
    (inside : position ≤ tokens.length)
    (deep : 6 * (tokens.length - position) + 3 ≤ depth) :
    Proceeds tokens (fun _ => position) position (arguments depth)
      (plain (Parser.arguments (tokens.drop position))) := by
  obtain ⟨depth, rfl⟩ := Nat.exists_eq_add_one.mpr (show 0 < depth by omega)
  rw [arguments, plain_arguments]
  refine .ifSymbol (by decide) (fun _ => .pure [] inside (Nat.le_refl _)) ?_
  refine (proceeds_term inside (by omega)).bind fun first afterFirst forward inside far => ?_
  refine (proceeds_furtherArguments inside (by omega)).bind
    fun following finish forward inside far => ?_
  exact .pure _ inside (by omega)

theorem proceeds_furtherArguments {tokens : List Token} {position depth : Nat}
    (inside : position ≤ tokens.length)
    (deep : 6 * (tokens.length - position) + 2 ≤ depth) :
    Proceeds tokens (fun _ => position) position (furtherArguments depth)
      (plain (Parser.furtherArguments (tokens.drop position))) := by
  obtain ⟨depth, rfl⟩ := Nat.exists_eq_add_one.mpr (show 0 < depth by omega)
  rw [furtherArguments, plain_furtherArguments_eq]
  refine (proceeds_furtherArgument inside (by omega)).bind
    fun round middle forward inside far => ?_
  match round, far with
  | none, _ => exact .pure [] inside forward
  | some next, far =>
    have further : position + 2 ≤ middle := far
    refine (proceeds_furtherArguments inside (by omega)).bind
      fun following finish forward inside far => ?_
    exact .pure _ inside (by omega)

theorem proceeds_furtherArgument {tokens : List Token} {position depth : Nat}
    (inside : position ≤ tokens.length)
    (deep : 6 * (tokens.length - position) + 1 ≤ depth) :
    Proceeds tokens (roundGoal position) position (furtherArgument depth)
      (readArgument (tokens.drop position)) := by
  obtain ⟨depth, rfl⟩ := Nat.exists_eq_add_one.mpr (show 0 < depth by omega)
  rw [furtherArgument, readArgument]
  refine .ifSymbol (by decide) (fun ahead => ?_) (.pure none inside (Nat.le_refl _))
  have more := lt_of_symbolAhead ahead
  refine .take ?_
  rw [List.tail_drop]
  refine (proceeds_term more (by omega)).bind fun next finish forward inside far => ?_
  exact .pure _ inside far

end

/-! ## Whole texts -/

theorem whole_run {tokens : List Token} {depth : Nat}
    (noEnd : ∀ t ∈ tokens, t.symbol? ≠ some .endOfText) (deep : 6 * tokens.length + 6 ≤ depth) :
    ∃ finish ≤ tokens.length,
      whole depth (Cursor.start tokens) = some (Parser.whole tokens, ⟨tokens, finish⟩) := by
  have first := proceeds_quantified (Nat.zero_le tokens.length) deep
  rw [whole, whole_eq, Cursor.start]
  rw [List.drop_zero] at first
  generalize plain (Parser.quantified tokens) = read at first ⊢
  cases first with
  | failed fault finish ends forward inside => exact ⟨finish, inside, bind_of_error ends⟩
  | done e finish ends forward inside far =>
    refine ⟨finish, inside, (bind_of_ok ends).trans ((bind_of_ok (peek_eq tokens finish)).trans ?_)⟩
    cases left : tokens.drop finish with
    | nil => rfl
    | cons t rest =>
      have member : t ∈ tokens := List.mem_of_mem_drop (left ▸ List.mem_cons_self)
      rw [List.headD_cons, if_neg (noEnd t member)]
      show fail .trailing [] ⟨tokens, finish⟩ = some (.error ⟨.trailing, t :: rest⟩, _)
      rw [← left]
      rfl

/-- What every reader does at a position, when it is called as the grammar calls it. -/
structure Moves (tokens : List Token) (position depth : Nat) : Prop where
  quantified : Proceeds tokens (fun _ => position + 1) position (quantified depth)
    (plain (Parser.quantified (tokens.drop position)))
  implication : Proceeds tokens (fun _ => position + 1) position (implication depth)
    (plain (Parser.implication (tokens.drop position)))
  chain : Proceeds tokens (fun _ => position + 1) position (chain depth)
    (plain (Parser.chain (tokens.drop position)))
  comparison : Proceeds tokens (fun _ => position + 1) position (comparison depth)
    (plain (Parser.comparison (tokens.drop position)))
  term : Proceeds tokens (fun _ => position + 1) position (term depth)
    (plain (Parser.term (tokens.drop position)))
  bracketed : symbolAhead (tokens.drop position) = some .leftParen →
    Proceeds tokens (fun _ => position + 1) position (bracketed depth)
      (plain (Parser.term (tokens.drop position)))
  application : symbolAhead (tokens.drop position) = some .leftParen →
    ∀ head name, head.kind = .identifier name →
      Proceeds tokens (fun _ => position + 2) position (application depth head)
        (plain (Parser.term (head :: tokens.drop position)))
  link : ∀ joined left, Proceeds tokens (roundGoal position) position (link depth joined left)
    (readLink joined left (tokens.drop position))
  furtherArgument : Proceeds tokens (roundGoal position) position (furtherArgument depth)
    (readArgument (tokens.drop position))

theorem moves {tokens : List Token} {position depth : Nat} (inside : position ≤ tokens.length)
    (deep : 6 * (tokens.length - position) + 6 ≤ depth) : Moves tokens position depth where
  quantified := proceeds_quantified inside deep
  implication := proceeds_implication inside (by omega)
  chain := proceeds_chain inside (by omega)
  comparison := proceeds_comparison inside (by omega)
  term := proceeds_term inside (by omega)
  bracketed ahead := proceeds_bracketed ahead (by omega)
  application ahead _ _ kind := proceeds_application kind ahead (by omega)
  link joined left := proceeds_link joined left inside (by omega)
  furtherArgument := proceeds_furtherArgument inside (by omega)

theorem parse_eq {source : String} {depth : Nat}
    (deep : ∀ tokens, Lexer.tokenize source = .ok tokens → 6 * tokens.length + 6 ≤ depth) :
    parse depth source = some (Expr.parse source) := by
  rw [parse, Expr.parse]
  cases split : Lexer.tokenize source with
  | error stop => rfl
  | ok tokens =>
    have noEnd := (Lexer.decomposes_of_tokenize split).symbol?_ne_endOfText
    obtain ⟨finish, -, run⟩ := whole_run noEnd (deep tokens split)
    simp only
    refine (congrArg (Option.map _) run).trans ?_
    cases Parser.whole tokens with
    | error fault => rfl
    | ok e => rfl

/-- From every position, with six levels for each token that is left and six more, every reader
comes to an end with the result of reading those tokens. It moves the cursor only forward and not
past the last token. When it succeeds, it has taken a token, and behind the head of an application
both brackets; a round that is not the last of its loop has taken two tokens. So every text is read
within six levels for each of its tokens, and six more. -/
theorem parse_within :
    (∀ tokens position depth, position ≤ tokens.length →
      6 * (tokens.length - position) + 6 ≤ depth → Moves tokens position depth) ∧
    ∀ source depth,
      (∀ tokens, Lexer.tokenize source = .ok tokens → 6 * tokens.length + 6 ≤ depth) →
        parse depth source = some (Expr.parse source) :=
  ⟨fun _ _ _ => moves, fun _ _ => parse_eq⟩

/-- The text ends where a term is expected. -/
theorem parse_within_cutShort :
    (∃ tokens, Lexer.tokenize "~P(x) ^" = .ok tokens ∧ tokens.length = 6 ∧ Moves tokens 6 6 ∧
      Moves tokens 2 30) ∧
    parse 42 "~P(x) ^" = some (Expr.parse "~P(x) ^") ∧ (parse 5 "~P(x) ^").isNone = true := by
  obtain ⟨tokens, split, six⟩ := exists_ok_of_any (Lexer.tokenize "~P(x) ^")
    (fun tokens => tokens.length == 6) (by decide +kernel)
  have length := beq_iff_eq.mp six
  refine ⟨⟨tokens, split, length, ?_, ?_⟩, ?_, by decide +kernel⟩
  · exact parse_within.1 tokens 6 6 (by omega) (by omega)
  · exact parse_within.1 tokens 2 30 (by omega) (by omega)
  · refine parse_within.2 _ 42 fun tokens' split' => ?_
    obtain rfl := Except.ok.inj (split.symm.trans split')
    omega

end Descent

end PredicateCalculus
