import Mathlib.Data.List.Forall2
import PredicateCalculus.Proofs.Grammar.Steps
import PredicateCalculus.Proofs.RoundTrip.Written

/-! # How far a reader looks

A reader decides by the kinds of the tokens that it takes and of the one behind them, and by nothing
else. So it does the same on two lists which begin with tokens of the same kinds, whatever their
tails are, as long as it stops before the tails. Where the whole lists are of the same kinds, it
does the same in any case.

* `Parallel`: two lists that begin alike and end in two given tails.
* `Fault.passed`, `Fault.refused`: the tokens around the place where reading could not go on.
* `Follows`: a run on the second list does what the run on the first does, if that one has seen
  nothing of the tail.
* `Parser.follows_quantified` and the theorems about the other readers.
-/

set_option autoImplicit false

namespace PredicateCalculus

/-! ## Lists that begin alike -/

theorem forall₂_beq_iff {ts ts' : List Token} :
    List.Forall₂ (fun t t' => (t == t') = true) ts ts' ↔
      ts.map Token.kind = ts'.map Token.kind := by
  simp only [Token.beq_iff]
  rw [← List.forall₂_eq_eq_eq, List.forall₂_map_left_iff, List.forall₂_map_right_iff]

inductive Parallel (tail tail' : List Token) : List Token → List Token → Prop where
  | tails : Parallel tail tail' tail tail'
  | cons {t t' : Token} {ts ts' : List Token} (kinds : t.kind = t'.kind)
      (rest : Parallel tail tail' ts ts') : Parallel tail tail' (t :: ts) (t' :: ts')

/-- The next token is not in the tails, or there is none in either list. -/
inductive Ahead : (tail tail' ts ts' : List Token) → Prop where
  | nil : Ahead [] [] [] []
  | cons {tail tail' : List Token} {t t' : Token} {ts ts' : List Token} (kinds : t.kind = t'.kind)
      (rest : Parallel tail tail' ts ts') : Ahead tail tail' (t :: ts) (t' :: ts')

section

variable {tail tail' ts ts' : List Token}

theorem Parallel.refl (ts : List Token) : Parallel [] [] ts ts := by
  induction ts with
  | nil => exact .tails
  | cons t ts ih => exact .cons rfl ih

theorem Parallel.of_kinds (h : ts.map Token.kind = ts'.map Token.kind) : Parallel [] [] ts ts' := by
  induction ts generalizing ts' with
  | nil =>
    obtain rfl : ts' = [] := List.map_eq_nil_iff.mp h.symm
    exact .tails
  | cons t ts ih =>
    obtain ⟨t', rest, rfl, kinds, others⟩ := List.map_eq_cons_iff.mp h.symm
    exact .cons kinds.symm (ih others.symm)

theorem Parallel.of_append (front : List Token) (tail tail' : List Token) :
    Parallel tail tail' (front ++ tail) (front ++ tail') := by
  induction front with
  | nil => exact .tails
  | cons t front ih => exact .cons rfl ih

theorem Parallel.length_eq (h : Parallel [] [] ts ts') : ts.length = ts'.length := by
  induction h with
  | tails => rfl
  | cons _ _ ih => rw [List.length_cons, List.length_cons, ih]

namespace Ahead

variable (h : Ahead tail tail' ts ts')

include h

theorem parallel : Parallel tail tail' ts ts' := by
  cases h with
  | nil => exact .tails
  | cons kinds rest => exact .cons kinds rest

theorem rest : Parallel tail tail' ts.tail ts'.tail := by
  cases h with
  | nil => exact .tails
  | cons kinds rest => exact rest

theorem head : (ts.headD .endOfText).kind = (ts'.headD .endOfText).kind := by
  cases h with
  | nil => rfl
  | cons kinds rest => exact kinds

theorem symbolAhead_eq : Parser.symbolAhead ts = Parser.symbolAhead ts' := by
  cases h with
  | nil => rfl
  | cons kinds rest => simp only [Parser.symbolAhead, List.head?_cons, Option.bind_some,
      Token.symbol?, kinds]

theorem shape : (∃ t t' rest rest', ts = t :: rest ∧ ts' = t' :: rest' ∧ t.kind = t'.kind ∧
    Parallel tail tail' rest rest') ∨ (ts = [] ∧ ts' = []) := by
  cases h with
  | nil => exact .inr ⟨rfl, rfl⟩
  | cons kinds rest => exact .inl ⟨_, _, _, _, rfl, rfl, kinds, rest⟩

end Ahead

end

namespace Expr

theorem written_connect (op : Connective) (token : Token) (left right : Expr) :
    (Expr.connect op token left right).written =
      .connect op token.bare left.written right.written := rfl

theorem written_compare (op : Comparison) (token : Token) (left right : Expr) :
    (Expr.compare op token left right).written =
      .compare op token.bare left.written right.written := rfl

theorem written_neg (token : Token) (operand : Expr) :
    (Expr.neg token operand).written = .neg token.bare operand.written := rfl

end Expr

/-! ## Where reading stops -/

namespace Fault

/-- The tokens at the fault that could still be read: what stands before unexpected brackets. -/
def passed (fault : Fault) : List Token :=
  match fault.cause with
  | .unsuitableHead => fault.rest.take 1
  | _ => []

/-- The tokens from the first one that could not be read. -/
def refused (fault : Fault) : List Token :=
  match fault.cause with
  | .unsuitableHead => fault.rest.drop 1
  | _ => fault.rest

theorem passed_append_refused (fault : Fault) : fault.passed ++ fault.refused = fault.rest := by
  unfold passed refused
  split
  · exact List.take_append_drop 1 fault.rest
  · rfl

end Fault

/-- The tokens that are left when a reader is done, or when it cannot go on. -/
def remaining {β : Type} : Except Fault (β × List Token) → List Token
  | .ok (_, rest) => rest
  | .error fault => fault.refused

section

variable {β γ δ ε : Type} {view : β → γ}

/-- The run on the second list hands back a value that looks the same in the given view, or fails
with the same cause, and stops at the same place. -/
inductive Mirrors (view : β → γ) (tail tail' : List Token) :
    Except Fault (β × List Token) → Except Fault (β × List Token) → Prop where
  | ok {value value' : β} {rest rest' : List Token} (same : view value = view value')
      (parallel : Parallel tail tail' rest rest') :
      Mirrors view tail tail' (.ok (value, rest)) (.ok (value', rest'))
  | error (cause : FaultCause) {rest rest' : List Token}
      (parallel : Parallel tail tail' rest rest') :
      Mirrors view tail tail' (.error ⟨cause, rest⟩) (.error ⟨cause, rest'⟩)

/-- Something is left before the tail, or there is no tail. -/
def Clear (tail tail' rest : List Token) : Prop :=
  tail.length < rest.length ∨ (tail = [] ∧ tail' = [])

structure Follows (view : β → γ) (tail tail' : List Token) (bound : Nat)
    (run run' : Except Fault (β × List Token)) : Prop where
  shrinks : (remaining run).length ≤ bound
  mirrors : Clear tail tail' (remaining run) → Mirrors view tail tail' run run'

namespace Follows

variable {tail tail' : List Token} {bound : Nat}

theorem ok {value value' : β} {rest rest' : List Token} (same : view value = view value')
    (parallel : Parallel tail tail' rest rest') (shrinks : rest.length ≤ bound) :
    Follows view tail tail' bound (.ok (value, rest)) (.ok (value', rest')) :=
  ⟨shrinks, fun _ => .ok same parallel⟩

theorem error (cause : FaultCause) {rest rest' : List Token}
    (parallel : Parallel tail tail' rest rest')
    (shrinks : (Fault.mk cause rest).refused.length ≤ bound) :
    Follows view tail tail' bound (.error ⟨cause, rest⟩) (.error ⟨cause, rest'⟩) :=
  ⟨shrinks, fun _ => .error cause parallel⟩

theorem relax {run run' : Except Fault (β × List Token)} {larger : Nat}
    (h : Follows view tail tail' bound run run') (le : bound ≤ larger) :
    Follows view tail tail' larger run run' :=
  ⟨Nat.le_trans h.shrinks le, h.mirrors⟩

/-- What comes second is shown to follow for all tails. With no tails and two equal runs, this gives
the bound on what is left, so it need not be shown apart. -/
theorem bind {other : δ → ε} {run run' : Except Fault (β × List Token)}
    {next next' : β × List Token → Except Fault (δ × List Token)}
    (h : Follows view tail tail' bound run run')
    (hnext : ∀ {tail tail' : List Token} value rest value' rest', run = .ok (value, rest) →
      view value = view value' → Parallel tail tail' rest rest' →
        Follows other tail tail' rest.length (next (value, rest)) (next' (value', rest'))) :
    Follows other tail tail' bound (run >>= next) (run' >>= next') := by
  cases run with
  | error fault =>
    refine ⟨h.shrinks, fun clear => ?_⟩
    cases h.mirrors clear with
    | error cause parallel => exact .error cause parallel
  | ok result =>
    obtain ⟨value, rest⟩ := result
    have shrinks : (remaining (next (value, rest))).length ≤ rest.length :=
      (hnext value rest value rest rfl rfl (.refl rest)).shrinks
    refine ⟨Nat.le_trans shrinks h.shrinks, fun clear => ?_⟩
    have before : Clear tail tail' rest :=
      clear.imp_left fun less => Nat.lt_of_lt_of_le less shrinks
    cases h.mirrors before with
    | ok same parallel => exact (hnext _ _ _ _ rfl same parallel).mirrors clear

/-- It is enough to look at lists whose next token is not in the tails: at the tails nothing is
claimed but the bound. -/
theorem of_ahead {ts ts' : List Token} {run : Except Fault (β × List Token)}
    (reader : List Token → Except Fault (β × List Token)) (h : Parallel tail tail' ts ts')
    (step : ∀ {tail tail' us : List Token}, Ahead tail tail' ts us →
      Follows view tail tail' ts.length run (reader us)) :
    Follows view tail tail' ts.length run (reader ts') := by
  have shrinks : (remaining run).length ≤ ts.length := by
    cases ts with
    | nil => exact (step .nil).shrinks
    | cons t ts => exact (step (.cons rfl (.refl ts))).shrinks
  cases h with
  | cons kinds rest => exact step (.cons kinds rest)
  | tails =>
    refine ⟨shrinks, fun clear => ?_⟩
    rcases clear with less | ⟨rfl, rfl⟩
    · omega
    · exact (step .nil).mirrors (.inr ⟨rfl, rfl⟩)

end Follows

end

/-! ## Readers -/

namespace Parser

section

variable {tail tail' ts ts' : List Token}

theorem follows_symbol (expected : Symbol) (h : Parallel tail tail' ts ts') :
    Follows Token.kind tail tail' ts.length (plain (symbol expected ts))
      (plain (symbol expected ts')) := by
  refine .of_ahead (fun us => plain (symbol expected us)) h fun {tail tail' us} ahead => ?_
  rw [plain_symbol, plain_symbol, ahead.symbolAhead_eq]
  split
  · exact .ok ahead.head ahead.rest (by simp)
  · exact .error _ ahead.parallel (Nat.le_refl _)

theorem follows_identifier (h : Parallel tail tail' ts ts') :
    Follows Token.kind tail tail' ts.length (plain (identifier ts)) (plain (identifier ts')) := by
  refine .of_ahead (fun us => plain (identifier us)) h fun {tail tail' us} ahead => ?_
  have same : ts.head?.any Token.isIdentifier = us.head?.any Token.isIdentifier := by
    cases ahead with
    | nil => rfl
    | cons kinds rest => simp only [List.head?_cons, Option.any_some, Token.isIdentifier, kinds]
  rw [plain_identifier, plain_identifier, same]
  split
  · exact .ok ahead.head ahead.rest (by simp)
  · exact .error _ ahead.parallel (Nat.le_refl _)

end

-- The measure is that of the readers, as in the proof that what is read is derived.
mutual

theorem follows_quantified {tail tail' ts ts' : List Token} (h : Parallel tail tail' ts ts') :
    Follows Expr.written tail tail' ts.length (plain (quantified ts)) (plain (quantified ts')) := by
  refine .of_ahead (fun us => plain (quantified us)) h fun {tail tail' us} ahead => ?_
  rw [plain_quantified, plain_quantified us, ahead.symbolAhead_eq]
  split
  · exact follows_implication ahead.parallel
  · refine ((follows_identifier ahead.rest).bind fun bound afterName bound' afterName' readName
      sameName parallel => ?_).relax (by simp)
    refine (follows_symbol .dot parallel).bind fun dot afterDot dot' afterDot' readDot _ parallel =>
      ?_
    have shorterName := length_lt_of_plain readName
    have shorterDot := length_lt_of_plain readDot
    refine (follows_quantified parallel).bind fun body rest body' rest' _ same parallel => ?_
    refine .ok ?_ parallel (Nat.le_refl _)
    rw [Expr.written_quantify, Expr.written_quantify, same, Token.bare_eq_iff.mpr ahead.head,
      Token.bare_eq_iff.mpr sameName]
termination_by 6 * ts.length + 5
decreasing_by
  · omega
  · rw [List.length_tail] at shorterName
    omega

theorem follows_implication {tail tail' ts ts' : List Token} (h : Parallel tail tail' ts ts') :
    Follows Expr.written tail tail' ts.length (plain (implication ts))
      (plain (implication ts')) := by
  rw [plain_implication, plain_implication ts']
  refine (follows_chain h).bind fun left afterLeft left' afterLeft' readLeft sameLeft parallel => ?_
  have shorter := length_lt_of_plain readLeft
  refine .of_ahead (fun us => if symbolAhead us = some .implies then
      plain (implication us.tail) >>= fun (right, rest) =>
        .ok (.connect .implies (us.headD .endOfText) left' right, rest)
    else .ok (left', us)) parallel fun {tail tail' us} ahead => ?_
  simp only [ahead.symbolAhead_eq]
  split
  · refine ((follows_implication ahead.rest).bind fun right rest right' rest' _ sameRight parallel =>
      ?_).relax (by simp)
    refine .ok ?_ parallel (Nat.le_refl _)
    rw [Expr.written_connect, Expr.written_connect, sameLeft, sameRight,
      Token.bare_eq_iff.mpr ahead.head]
  · exact .ok sameLeft ahead.parallel (Nat.le_refl _)
termination_by 6 * ts.length + 4
decreasing_by
  · omega
  · rw [List.length_tail]
    omega

theorem follows_chain {tail tail' ts ts' : List Token} (h : Parallel tail tail' ts ts') :
    Follows Expr.written tail tail' ts.length (plain (chain ts)) (plain (chain ts')) := by
  rw [plain_chain, plain_chain ts']
  refine (follows_comparison h).bind fun first rest first' rest' read same parallel => ?_
  have shorter := length_lt_of_plain read
  exact follows_links none same parallel
termination_by 6 * ts.length + 3
decreasing_by all_goals omega

theorem follows_links {tail tail' ts ts' : List Token} {left left' : Expr}
    (joined : Option Connective) (sameLeft : left.written = left'.written)
    (h : Parallel tail tail' ts ts') :
    Follows Expr.written tail tail' ts.length (plain (links joined left ts))
      (plain (links joined left' ts')) := by
  refine .of_ahead (fun us => plain (links joined left' us)) h fun {tail tail' us} ahead => ?_
  rw [plain_links, plain_links joined left' us, ahead.symbolAhead_eq]
  split
  · exact .ok sameLeft ahead.parallel (Nat.le_refl _)
  · next op found =>
    split
    · exact .error _ ahead.parallel (Nat.le_refl _)
    · refine ((follows_comparison ahead.rest).bind fun right rest right' rest' read sameRight
        parallel => ?_).relax (by simp)
      have shorter := length_lt_of_plain read
      refine follows_links (some op) ?_ parallel
      rw [Expr.written_connect, Expr.written_connect, sameLeft, sameRight,
        Token.bare_eq_iff.mpr ahead.head]
termination_by 6 * ts.length + 3
decreasing_by
  all_goals
    rw [List.length_tail] at *
    omega

theorem follows_comparison {tail tail' ts ts' : List Token} (h : Parallel tail tail' ts ts') :
    Follows Expr.written tail tail' ts.length (plain (comparison ts)) (plain (comparison ts')) := by
  rw [plain_comparison, plain_comparison ts']
  refine (follows_term h).bind fun left afterLeft left' afterLeft' readLeft sameLeft parallel => ?_
  have shorter := length_lt_of_plain readLeft
  refine .of_ahead (fun us => match (symbolAhead us).bind Comparison.ofSymbol? with
    | none => .ok (left', us)
    | some op => plain (term us.tail) >>= fun (right, rest) =>
      .ok (.compare op (us.headD .endOfText) left' right, rest)) parallel
    fun {tail tail' us} ahead => ?_
  dsimp only
  rw [ahead.symbolAhead_eq]
  cases (symbolAhead us).bind Comparison.ofSymbol? with
  | none => exact .ok sameLeft ahead.parallel (Nat.le_refl _)
  | some op =>
    refine ((follows_term ahead.rest).bind fun right rest right' rest' _ sameRight parallel =>
      ?_).relax (by simp)
    refine .ok ?_ parallel (Nat.le_refl _)
    rw [Expr.written_compare, Expr.written_compare, sameLeft, sameRight,
      Token.bare_eq_iff.mpr ahead.head]
termination_by 6 * ts.length + 2
decreasing_by
  · omega
  · rw [List.length_tail]
    omega

theorem follows_term {tail tail' ts ts' : List Token} (h : Parallel tail tail' ts ts') :
    Follows Expr.written tail tail' ts.length (plain (term ts)) (plain (term ts')) := by
  refine .of_ahead (fun us => plain (term us)) h fun {tail tail' us} ahead => ?_
  obtain ⟨t, t', rest, rest', eq, eq', kinds, parallel⟩ | ⟨eq, eq'⟩ := ahead.shape
  · rw [eq, eq']
    cases kind : t.kind with
    | symbol s =>
      by_cases opens : s = .leftParen
      · rw [opens] at kind
        rw [plain_term_brackets kind, plain_term_brackets (kinds.symm.trans kind)]
        refine ((follows_quantified parallel).bind fun e afterBody e' afterBody' _ same parallel =>
          ?_).relax (Nat.le_succ _)
        refine (follows_symbol .rightParen parallel).bind fun _ rest _ rest' _ _ parallel => ?_
        exact .ok same parallel (Nat.le_refl _)
      · by_cases negates : s = .not
        · rw [negates] at kind
          rw [plain_term_neg kind, plain_term_neg (kinds.symm.trans kind)]
          refine ((follows_term parallel).bind fun operand rest operand' rest' _ same parallel =>
            ?_).relax (Nat.le_succ _)
          refine .ok ?_ parallel (Nat.le_refl _)
          rw [Expr.written_neg, Expr.written_neg, same, Token.bare_eq_iff.mpr kinds]
        · rw [plain_term_symbol (by rintro u ⟨⟩; exact ⟨s, kind, opens, negates⟩),
            plain_term_symbol (by rintro u ⟨⟩; exact ⟨s, kinds.symm.trans kind, opens, negates⟩)]
          exact .error _ (.cons kinds parallel) (Nat.le_refl _)
    | identifier name =>
      rw [plain_term_identifier kind, plain_term_identifier (kinds.symm.trans kind)]
      -- The name may be the last token before the tails; only the bracket behind it decides.
      refine (Follows.of_ahead (fun us => if symbolAhead us = some .leftParen then
          match HeadKind.ofName? name with
          | none => .error ⟨.unsuitableHead, t' :: us⟩
          | some kind => plain (arguments us.tail) >>= fun (args, afterArgs) =>
            plain (symbol .rightParen afterArgs) >>= fun (_, rest) =>
              .ok (Expr.app kind t' args, rest)
        else .ok (Expr.named t', us)) parallel fun {tail tail' us} ahead => ?_).relax
          (Nat.le_succ _)
      simp only [ahead.symbolAhead_eq]
      split
      · cases HeadKind.ofName? name with
        | none => exact .error _ (.cons kinds ahead.parallel) (Nat.le_refl _)
        | some headKind =>
          refine ((follows_arguments ahead.rest).bind fun args afterArgs args' afterArgs' _ same
            parallel => ?_).relax (by simp)
          refine (follows_symbol .rightParen parallel).bind fun _ rest _ rest' _ _ parallel => ?_
          refine .ok ?_ parallel (Nat.le_refl _)
          rw [Expr.written_app, Expr.written_app, same, Token.bare_eq_iff.mpr kinds]
      · refine .ok ?_ ahead.parallel (Nat.le_refl _)
        exact congrArg Named.var (Token.bare_eq_iff.mpr kinds)
  · have parallel := ahead.parallel
    rw [eq, eq'] at parallel ⊢
    rw [plain_term_symbol (by simp)]
    exact .error _ parallel (Nat.le_refl _)
termination_by 6 * ts.length + 1
decreasing_by
  all_goals
    have := congrArg List.length eq
    simp only [List.length_cons, List.length_tail] at *
    omega

theorem follows_arguments {tail tail' ts ts' : List Token} (h : Parallel tail tail' ts ts') :
    Follows (List.map Expr.written) tail tail' ts.length (plain (arguments ts))
      (plain (arguments ts')) := by
  refine .of_ahead (fun us => plain (arguments us)) h fun {tail tail' us} ahead => ?_
  rw [plain_arguments, plain_arguments us, ahead.symbolAhead_eq]
  split
  · exact .ok rfl ahead.parallel (Nat.le_refl _)
  · refine (follows_term ahead.parallel).bind fun first afterFirst first' afterFirst' read same
      parallel => ?_
    have shorter := length_lt_of_plain read
    refine (follows_furtherArguments parallel).bind fun following rest following' rest' _ sameRest
      parallel => ?_
    exact .ok (congrArg₂ List.cons same sameRest) parallel (Nat.le_refl _)
termination_by 6 * ts.length + 2
decreasing_by all_goals omega

theorem follows_furtherArguments {tail tail' ts ts' : List Token}
    (h : Parallel tail tail' ts ts') :
    Follows (List.map Expr.written) tail tail' ts.length (plain (furtherArguments ts))
      (plain (furtherArguments ts')) := by
  refine .of_ahead (fun us => plain (furtherArguments us)) h fun {tail tail' us} ahead => ?_
  rw [plain_furtherArguments, plain_furtherArguments us, ahead.symbolAhead_eq]
  split
  · refine ((follows_term ahead.rest).bind fun next afterNext next' afterNext' read same
      parallel => ?_).relax (by simp)
    have shorter := length_lt_of_plain read
    refine (follows_furtherArguments parallel).bind fun following rest following' rest' _ sameRest
      parallel => ?_
    exact .ok (congrArg₂ List.cons same sameRest) parallel (Nat.le_refl _)
  · exact .ok rfl ahead.parallel (Nat.le_refl _)
termination_by 6 * ts.length + 2
decreasing_by
  all_goals
    rw [List.length_tail] at *
    omega

end

/-! ## Whole lists -/

/-- The expression at the front of a list, if nothing comes after it. -/
def toEnd (ts : List Token) : Except Fault (Expr × List Token) :=
  plain (quantified ts) >>= fun (e, rest) =>
    if rest.isEmpty then .ok (e, rest) else .error ⟨.trailing, rest⟩

theorem whole_eq_map_toEnd (ts : List Token) : whole ts = (toEnd ts).map Prod.fst := by
  rw [whole_eq, toEnd]
  cases plain (quantified ts) with
  | error fault => rfl
  | ok result =>
    obtain ⟨e, rest⟩ := result
    simp only [bind, Except.bind]
    split <;> rfl

variable {tail tail' ts ts' : List Token}

theorem follows_toEnd (h : Parallel tail tail' ts ts') :
    Follows Expr.written tail tail' ts.length (toEnd ts) (toEnd ts') := by
  refine (follows_quantified h).bind fun e rest e' rest' _ same parallel => ?_
  refine .of_ahead (fun us => if us.isEmpty then .ok (e', us) else .error ⟨.trailing, us⟩) parallel
    fun {tail tail' us} ahead => ?_
  obtain ⟨t, t', others, others', rfl, rfl, -, -⟩ | ⟨rfl, rfl⟩ := ahead.shape
  · exact .error .trailing ahead.parallel (Nat.le_refl _)
  · exact .ok same ahead.parallel (Nat.le_refl _)

/-- Lists of the same kinds are read as expressions with the same written form, or reading stops for
the same cause and with as many tokens left. -/
theorem whole_of_kinds (h : ts.map Token.kind = ts'.map Token.kind) :
    (∃ e e', whole ts = .ok e ∧ whole ts' = .ok e' ∧ e.written = e'.written) ∨
      ∃ cause rest rest', whole ts = .error ⟨cause, rest⟩ ∧ whole ts' = .error ⟨cause, rest'⟩ ∧
        rest.length = rest'.length := by
  have mirrors := (follows_toEnd (.of_kinds h)).mirrors (.inr ⟨rfl, rfl⟩)
  rw [whole_eq_map_toEnd, whole_eq_map_toEnd]
  generalize toEnd ts = run, toEnd ts' = run' at mirrors
  cases mirrors with
  | ok same parallel => exact .inl ⟨_, _, rfl, rfl, same⟩
  | error cause parallel => exact .inr ⟨cause, _, _, rfl, rfl, parallel.length_eq⟩

/-- A list that is refused before its tail is refused with any other tail. -/
theorem whole_append_ne_ok {front tail : List Token} {fault : Fault}
    (h : whole (front ++ tail) = .error fault) (before : tail.length < fault.refused.length)
    (tail' : List Token) (e : Expr) : whole (front ++ tail') ≠ .ok e := by
  have follows := follows_toEnd (.of_append front tail tail')
  rw [whole_eq_map_toEnd] at h ⊢
  generalize toEnd (front ++ tail) = run, toEnd (front ++ tail') = run' at h follows
  cases run with
  | ok result => cases h
  | error _ =>
    cases h
    cases follows.mirrors (.inl before) with
    | error cause parallel => exact nofun

end Parser

end PredicateCalculus
