import Mathlib.Data.List.Induction
import PredicateCalculus.Formula
import PredicateCalculus.Proofs.Signature

/-! # The signature that a tree asks for

With the policy of learning, a tree adds its uses to the signature, exactly and all of them, unless
two arities would belong to one name. With the policy of refusing, its uses are in the signature
already. Otherwise the first use that disagrees with what came before it is reported.

* `Signature.Assigns`, `Signature.Consistent`: what a signature and some uses say together.
* `Signature.Extends`: a signature with some uses added, and nothing else.
* `Signature.Conflict`, `Signature.FirstConflict`: a use that disagrees with the signature or with
  earlier uses, and the first such use.
* `Signature.Survey.Follows`: what a survey knows before its first failure.
* `Signature.run_failure_eq_some_iff`: the failure of a survey is the first conflict.
* `Signature.absorb_eq_ok_iff`, `Signature.exists_absorb_iff`: success.
* `Signature.absorb_extends`: all of it.
-/

set_option autoImplicit false

namespace PredicateCalculus

def Use.SameSymbol (u v : Use) : Prop :=
  u.kind = v.kind ∧ u.name = v.name

instance (u v : Use) : Decidable (u.SameSymbol v) :=
  inferInstanceAs (Decidable (_ ∧ _))

namespace Signature

/-! ## A signature and uses -/

def Assigns (σ : Signature) (uses : List Use) (kind : HeadKind) (name : String) (n : Nat) : Prop :=
  σ.arity kind name = some n ∨ ⟨kind, name, n⟩ ∈ uses

def Consistent (σ : Signature) (uses : List Use) : Prop :=
  ∀ kind name m n, σ.Assigns uses kind name m → σ.Assigns uses kind name n → m = n

/-- The signature is the given one with the uses added, and has no other arities. -/
def Extends (τ σ : Signature) (uses : List Use) : Prop :=
  ∀ kind name n, τ.arity kind name = some n ↔ σ.Assigns uses kind name n

/-- After the earlier uses, a use disagrees with the signature, or with the first earlier use of the
same symbol. With the policy of refusing, it may also have no arity to agree with. -/
inductive Conflict (σ : Signature) (earlier : List Use) (use : Use) :
    Policy → SignatureError → Prop where
  | declared {policy : Policy} {n : Nat} (given : σ.arity use.kind use.name = some n)
      (differs : n ≠ use.arity) : Conflict σ earlier use policy (.arityMismatch use n)
  | used (before between : List Use) (first : Use) (split : earlier = before ++ first :: between)
      (isFirst : ∀ u ∈ before, ¬u.SameSymbol use) (same : first.SameSymbol use)
      (differs : first.arity ≠ use.arity) :
      Conflict σ earlier use .learn (.arityMismatch use first.arity)
  | unknown (fresh : σ.arity use.kind use.name = none) :
      Conflict σ earlier use .refuse (.unknownSymbol use)

def NoConflict (policy : Policy) (σ : Signature) (uses : List Use) : Prop :=
  ∀ earlier use later, uses = earlier ++ use :: later →
    ∀ error, ¬σ.Conflict earlier use policy error

def FirstConflict (policy : Policy) (σ : Signature) (uses : List Use) (error : SignatureError) :
    Prop :=
  ∃ earlier use later, uses = earlier ++ use :: later ∧ NoConflict policy σ earlier ∧
    σ.Conflict earlier use policy error

/-! ### Laws of extensions -/

section

variable {σ τ υ : Signature} {uses more : List Use} {use other : Use}

theorem Extends.gives (h : τ.Extends σ uses) (member : use ∈ uses) : τ.Gives use :=
  (h use.kind use.name use.arity).mpr (.inr member)

theorem Extends.gives_same (h : τ.Extends σ uses) (member : other ∈ uses)
    (same : other.SameSymbol use) : τ.arity use.kind use.name = some other.arity := by
  rw [← same.1, ← same.2]
  exact h.gives member

theorem Extends.keeps (h : τ.Extends σ uses) : σ.Keeps τ := by
  intro kind name n given
  exact (h kind name n).mpr (.inl given)

theorem Extends.consistent (h : τ.Extends σ uses) : σ.Consistent uses := by
  intro kind name m n first second
  have both := ((h kind name m).mpr first).symm.trans ((h kind name n).mpr second)
  exact Option.some.inj both

theorem Extends.unique (h : τ.Extends σ uses) (h' : υ.Extends σ uses) : τ = υ := by
  apply ext_arity
  intro kind name
  apply Option.ext
  intro n
  rw [h kind name n, h' kind name n]

/-- Nothing is added when everything is there. -/
theorem extends_self_iff : σ.Extends σ uses ↔ ∀ use ∈ uses, σ.Gives use := by
  constructor
  · intro h use member
    exact h.gives member
  · intro given kind name n
    refine ⟨.inl, fun assigned => assigned.elim id fun member => ?_⟩
    exact given _ member

theorem extends_nil_iff : τ.Extends σ [] ↔ τ = σ := by
  have nothing : σ.Extends σ [] := extends_self_iff.mpr (by simp)
  constructor
  · intro h
    exact h.unique nothing
  · rintro rfl
    exact nothing

theorem extends_declare (fresh : σ.arity use.kind use.name = none) :
    (σ.declare use.kind use.name use.arity).Extends σ [use] := by
  intro kind name n
  rw [arity_declare, Assigns, List.mem_singleton]
  split
  · next same =>
    obtain ⟨rfl, rfl⟩ := same
    obtain ⟨kind, name, arity⟩ := use
    simp only at fresh
    simp [fresh, eq_comm]
  · next different =>
    refine (or_iff_left ?_).symm
    rintro rfl
    exact different ⟨rfl, rfl⟩

theorem extends_append_iff (h : υ.Extends σ uses) :
    τ.Extends υ more ↔ τ.Extends σ (uses ++ more) := by
  have assigns : ∀ kind name n,
      υ.Assigns more kind name n ↔ σ.Assigns (uses ++ more) kind name n := by
    intro kind name n
    rw [Assigns, h kind name n, Assigns, Assigns, List.mem_append, or_assoc]
  simp only [Extends, assigns]

end

theorem exists_first_use {seen : List Use} {use other : Use} (member : other ∈ seen)
    (same : other.SameSymbol use) :
    ∃ before first between, seen = before ++ first :: between ∧
      (∀ u ∈ before, ¬u.SameSymbol use) ∧ first.SameSymbol use := by
  have found : (seen.find? fun u => u.SameSymbol use).isSome = true := by
    rw [List.find?_isSome]
    exact ⟨other, member, decide_eq_true same⟩
  obtain ⟨first, isFound⟩ := Option.isSome_iff_exists.mp found
  obtain ⟨isSame, before, between, split, others⟩ := List.find?_eq_some_iff_append.mp isFound
  exact ⟨before, first, between, split, by simpa using others, of_decide_eq_true isSame⟩

/-! ## A survey before its first failure -/

namespace Survey

/-- What a step can do. -/
theorem step_cases (policy : Policy) (survey : Survey) (use : Use) :
    (survey.signature.Gives use ∧ survey.step policy use = survey) ∨
    (∃ n, survey.signature.arity use.kind use.name = some n ∧ n ≠ use.arity ∧
      survey.step policy use = survey.fail (.arityMismatch use n)) ∨
    (survey.signature.arity use.kind use.name = none ∧ policy = .learn ∧
      survey.step policy use = survey.learn use) ∨
    (survey.signature.arity use.kind use.name = none ∧ policy = .refuse ∧
      survey.step policy use = survey.fail (.unknownSymbol use)) := by
  cases found : survey.signature.arity use.kind use.name with
  | some expected =>
    by_cases agrees : expected = use.arity
    · exact .inl ⟨by rw [Gives, found, agrees], by simp [step, found, agrees]⟩
    · exact .inr (.inl ⟨expected, rfl, agrees, by simp [step, found, agrees]⟩)
  | none =>
    cases policy with
    | learn => exact .inr (.inr (.inl ⟨rfl, rfl, by simp [step, found]⟩))
    | refuse => exact .inr (.inr (.inr ⟨rfl, rfl, by simp [step, found]⟩))

theorem fail_of_failed {survey : Survey} {error : SignatureError}
    (h : survey.failure = some error) (other : SignatureError) :
    (survey.fail other).failure = some error := by
  simp [fail, h]

theorem fail_of_noFailure {survey : Survey} (h : survey.failure = none)
    (error : SignatureError) : (survey.fail error).failure = some error := by
  simp [fail, h]

variable {policy : Policy} {σ : Signature} {seen uses : List Use} {survey : Survey} {use : Use}
  {error : SignatureError}

theorem step_of_failed (h : survey.failure = some error) (use : Use) :
    (survey.step policy use).failure = some error := by
  rcases step_cases policy survey use with
    ⟨-, same⟩ | ⟨n, -, -, failed⟩ | ⟨-, -, learned⟩ | ⟨-, -, failed⟩
  · rw [same, h]
  · rw [failed, fail_of_failed h]
  · rw [learned]
    exact h
  · rw [failed, fail_of_failed h]

theorem run_of_failed (h : survey.failure = some error) (uses : List Use) :
    (uses.foldl (step policy) survey).failure = some error := by
  induction uses generalizing survey with
  | nil => exact h
  | cons use rest ih => exact ih (step_of_failed h use)

/-- What the survey has learned is all that a failure depends on. -/
theorem step_failure_iff (noFailure : survey.failure = none) :
    (survey.step policy use).failure = some error ↔
      (∃ n, survey.signature.arity use.kind use.name = some n ∧ n ≠ use.arity ∧
        error = .arityMismatch use n) ∨
      policy = .refuse ∧ survey.signature.arity use.kind use.name = none ∧
        error = .unknownSymbol use := by
  rcases step_cases policy survey use with
    ⟨given, same⟩ | ⟨n, found, differs, failed⟩ | ⟨fresh, rfl, learned⟩ | ⟨fresh, rfl, failed⟩
  · rw [Gives] at given
    simp [same, given, noFailure]
  · simp [failed, fail_of_noFailure noFailure, found, differs, eq_comm]
  · simp [learned, learn, fresh, noFailure]
  · simp [failed, fail_of_noFailure noFailure, fresh, eq_comm]

/-- The survey has gone through some uses without failure and has added them. -/
structure Follows (policy : Policy) (σ : Signature) (seen : List Use) (survey : Survey) : Prop where
  noFailure : survey.failure = none
  adds : survey.signature.Extends σ seen
  refuses : policy = .refuse → survey.signature = σ

theorem follows_start (policy : Policy) (σ : Signature) : Follows policy σ [] (start σ) :=
  ⟨rfl, extends_nil_iff.mpr rfl, fun _ => rfl⟩

theorem Follows.step (h : Follows policy σ seen survey)
    (noFailure : (survey.step policy use).failure = none) :
    Follows policy σ (seen ++ [use]) (survey.step policy use) := by
  rcases step_cases policy survey use with
    ⟨given, same⟩ | ⟨n, -, -, failed⟩ | ⟨fresh, rfl, learned⟩ | ⟨-, -, failed⟩
  · rw [same]
    have adds : survey.signature.Extends survey.signature [use] :=
      extends_self_iff.mpr (by simpa using given)
    exact ⟨h.noFailure, (extends_append_iff h.adds).mp adds, h.refuses⟩
  · rw [failed, fail_of_noFailure h.noFailure] at noFailure
    cases noFailure
  · rw [learned]
    exact ⟨h.noFailure, (extends_append_iff h.adds).mp (extends_declare fresh), nofun⟩
  · rw [failed, fail_of_noFailure h.noFailure] at noFailure
    cases noFailure

theorem follows_run (h : (uses.foldl (step policy) (start σ)).failure = none) :
    Follows policy σ uses (uses.foldl (step policy) (start σ)) := by
  -- A failure stays, so there was none before the last step either.
  induction uses using List.reverseRecOn with
  | nil => exact follows_start policy σ
  | append_singleton uses last ih =>
    rw [List.foldl_append, List.foldl_cons, List.foldl_nil] at h ⊢
    cases reached : (uses.foldl (step policy) (start σ)).failure with
    | none => exact (ih reached).step h
    | some error =>
      rw [step_of_failed reached last] at h
      cases h

/-- The arity that a use should have comes from the signature or from the first earlier use. -/
theorem Follows.conflict_of_arity (h : Follows policy σ seen survey) {n : Nat}
    (found : survey.signature.arity use.kind use.name = some n) (differs : n ≠ use.arity) :
    σ.Conflict seen use policy (.arityMismatch use n) := by
  rcases (h.adds use.kind use.name n).mp found with given | member
  · exact .declared given differs
  · cases policy with
    | refuse => exact .declared (h.refuses rfl ▸ found) differs
    | learn =>
      have sameSymbol : Use.SameSymbol ⟨use.kind, use.name, n⟩ use := ⟨rfl, rfl⟩
      obtain ⟨before, first, between, split, isFirst, same⟩ := exists_first_use member sameSymbol
      have isSeen : first ∈ seen := by simp [split]
      obtain rfl := Option.some.inj (found.symm.trans (h.adds.gives_same isSeen same))
      exact .used before between first split isFirst same differs

theorem Follows.conflict_iff (h : Follows policy σ seen survey) :
    σ.Conflict seen use policy error ↔ (survey.step policy use).failure = some error := by
  rw [step_failure_iff h.noFailure]
  constructor
  · intro conflict
    cases conflict with
    | declared given differs => exact .inl ⟨_, (h.adds _ _ _).mpr (.inl given), differs, rfl⟩
    | used before between first split isFirst same differs =>
      have isSeen : first ∈ seen := by simp [split]
      exact .inl ⟨_, h.adds.gives_same isSeen same, differs, rfl⟩
    | unknown fresh => exact .inr ⟨rfl, h.refuses rfl ▸ fresh, rfl⟩
  · rintro (⟨n, found, differs, rfl⟩ | ⟨rfl, fresh, rfl⟩)
    · exact h.conflict_of_arity found differs
    · exact .unknown (h.refuses rfl ▸ fresh)

end Survey

/-! ## The first failure -/

section

variable {policy : Policy} {σ τ : Signature} {uses : List Use} {error : SignatureError}

theorem noConflict_of_run (h : (uses.foldl (Survey.step policy) (.start σ)).failure = none) :
    NoConflict policy σ uses := by
  rintro earlier use later rfl error conflict
  rw [List.foldl_append, List.foldl_cons] at h
  cases reached : (earlier.foldl (Survey.step policy) (.start σ)).failure with
  | some other =>
    rw [Survey.run_of_failed (Survey.step_of_failed reached use)] at h
    cases h
  | none =>
    have fails := (Survey.follows_run reached).conflict_iff.mp conflict
    rw [Survey.run_of_failed fails] at h
    cases h

theorem firstConflict_of_run
    (h : (uses.foldl (Survey.step policy) (.start σ)).failure = some error) :
    FirstConflict policy σ uses error := by
  -- The failure is there before the last use, or the last use is the first conflict.
  induction uses using List.reverseRecOn with
  | nil => cases h
  | append_singleton uses last ih =>
    rw [List.foldl_append, List.foldl_cons, List.foldl_nil] at h
    cases reached : (uses.foldl (Survey.step policy) (.start σ)).failure with
    | some other =>
      obtain rfl := Option.some.inj ((Survey.step_of_failed reached last).symm.trans h)
      obtain ⟨earlier, use, later, rfl, agreed, conflict⟩ := ih reached
      exact ⟨earlier, use, later ++ [last], by simp, agreed, conflict⟩
    | none =>
      have conflict := (Survey.follows_run reached).conflict_iff.mpr h
      exact ⟨uses, last, [], rfl, noConflict_of_run reached, conflict⟩

theorem run_failure_eq_none_iff :
    (uses.foldl (Survey.step policy) (.start σ)).failure = none ↔ NoConflict policy σ uses := by
  refine ⟨noConflict_of_run, fun agreed => ?_⟩
  cases reached : (uses.foldl (Survey.step policy) (.start σ)).failure with
  | none => rfl
  | some error =>
    obtain ⟨earlier, use, later, split, -, conflict⟩ := firstConflict_of_run reached
    exact absurd conflict (agreed earlier use later split error)

theorem run_failure_eq_some_iff :
    (uses.foldl (Survey.step policy) (.start σ)).failure = some error ↔
      FirstConflict policy σ uses error := by
  refine ⟨firstConflict_of_run, ?_⟩
  rintro ⟨earlier, use, later, rfl, agreed, conflict⟩
  have follows := Survey.follows_run (run_failure_eq_none_iff.mpr agreed)
  rw [List.foldl_append, List.foldl_cons]
  exact Survey.run_of_failed (follows.conflict_iff.mp conflict) later

/-! ## Trees -/

variable {e : Expr}

theorem absorb_eq_error_iff :
    σ.absorb policy e = .error error ↔ FirstConflict policy σ e.uses error := by
  rw [← run_failure_eq_some_iff, absorb, survey, Survey.result]
  cases (e.uses.foldl (Survey.step policy) (.start σ)).failure <;> simp

theorem exists_absorb_of_noConflict (h : NoConflict policy σ e.uses) :
    ∃ τ, σ.absorb policy e = .ok τ ∧ τ.Extends σ e.uses ∧ (policy = .refuse → τ = σ) := by
  have noFailure := run_failure_eq_none_iff.mpr h
  have follows := Survey.follows_run noFailure
  refine ⟨_, ?_, follows.adds, follows.refuses⟩
  rw [absorb, survey, Survey.result, noFailure]

theorem Consistent.noConflict (h : σ.Consistent uses) : NoConflict .learn σ uses := by
  rintro earlier use later rfl error conflict
  have own : σ.Assigns (earlier ++ use :: later) use.kind use.name use.arity := .inr (by simp)
  cases conflict with
  | declared given differs => exact differs (h _ _ _ _ (.inl given) own)
  | used before between first split isFirst same differs =>
    obtain ⟨kind, name⟩ := same
    have other : σ.Assigns (earlier ++ use :: later) first.kind first.name first.arity :=
      .inr (by simp [split])
    rw [kind, name] at other
    exact differs (h _ _ _ _ other own)

theorem noConflict_of_extends (h : τ.Extends σ uses) (refuses : policy = .refuse → τ = σ) :
    NoConflict policy σ uses := by
  cases policy with
  | learn => exact h.consistent.noConflict
  | refuse =>
    obtain rfl := refuses rfl
    rintro earlier use later rfl error conflict
    have given : τ.arity use.kind use.name = some use.arity := h.gives (by simp)
    cases conflict with
    | declared found differs => exact differs (Option.some.inj (found.symm.trans given))
    | unknown fresh =>
      rw [fresh] at given
      cases given

theorem absorb_eq_ok_iff :
    σ.absorb policy e = .ok τ ↔ τ.Extends σ e.uses ∧ (policy = .refuse → τ = σ) := by
  constructor
  · intro absorbed
    have agreed : NoConflict policy σ e.uses := by
      rw [← run_failure_eq_none_iff]
      cases reached : (e.uses.foldl (Survey.step policy) (.start σ)).failure with
      | none => rfl
      | some error =>
        rw [absorb_eq_error_iff.mpr (run_failure_eq_some_iff.mp reached)] at absorbed
        cases absorbed
    obtain ⟨υ, absorbed', adds, refuses⟩ := exists_absorb_of_noConflict agreed
    obtain rfl := Except.ok.inj (absorbed.symm.trans absorbed')
    exact ⟨adds, refuses⟩
  · rintro ⟨adds, refuses⟩
    obtain ⟨υ, absorbed, adds', -⟩ :=
      exists_absorb_of_noConflict (noConflict_of_extends adds refuses)
    rw [absorbed, adds.unique adds']

theorem exists_absorb_iff : (∃ τ, σ.absorb .learn e = .ok τ) ↔ σ.Consistent e.uses := by
  constructor
  · rintro ⟨τ, absorbed⟩
    exact (absorb_eq_ok_iff.mp absorbed).1.consistent
  · intro consistent
    obtain ⟨τ, absorbed, -⟩ := exists_absorb_of_noConflict consistent.noConflict
    exact ⟨τ, absorbed⟩

theorem survey_spec (h : (σ.survey policy e).result = .ok τ) :
    σ.Keeps τ ∧ (∀ use ∈ e.uses, τ.Gives use) ∧ (policy = .refuse → τ = σ) := by
  obtain ⟨adds, refuses⟩ := absorb_eq_ok_iff.mp h
  exact ⟨adds.keeps, fun use member => adds.gives member, refuses⟩

theorem absorb_refuse_eq_ok_iff :
    σ.absorb .refuse e = .ok τ ↔ τ = σ ∧ ∀ use ∈ e.uses, σ.Gives use := by
  rw [absorb_eq_ok_iff, ← extends_self_iff]
  constructor
  · rintro ⟨adds, refuses⟩
    obtain rfl := refuses rfl
    exact ⟨rfl, adds⟩
  · rintro ⟨rfl, adds⟩
    exact ⟨adds, fun _ => rfl⟩

theorem signature_acceptExpr_of_error {options : FormulaOptions}
    (h : σ.absorb options.policy e = .error error) (source : String) :
    (Formula.acceptExpr options σ source e).signature = σ := by
  unfold Formula.acceptExpr
  split
  · rfl
  · rw [absorb] at h
    simp only [h]

end

/-- With the policy of learning, a tree is absorbed if and only if the signature and its uses give no
name two arities, and the signature afterwards has what they give and nothing more. With the policy
of refusing, it is absorbed if and only if the signature gives its uses, and stays as it is; that is,
if and only if there was nothing to learn. Otherwise the first use that disagrees with the signature
or with the first use of the same symbol is reported, and the signature stays as it is. -/
theorem absorb_extends (σ : Signature) (e : Expr) :
    ((∃ τ, σ.absorb .learn e = .ok τ) ↔ σ.Consistent e.uses) ∧
    (∀ τ, σ.absorb .learn e = .ok τ ↔ τ.Extends σ e.uses) ∧
    (∀ τ, σ.absorb .refuse e = .ok τ ↔ τ = σ ∧ ∀ use ∈ e.uses, σ.Gives use) ∧
    (σ.absorb .refuse e = .ok σ ↔ σ.absorb .learn e = .ok σ) ∧
    (∀ policy error, σ.absorb policy e = .error error ↔ FirstConflict policy σ e.uses error) ∧
    (∀ use, σ.absorb .learn e ≠ .error (.unknownSymbol use)) ∧
    ∀ options source error, σ.absorb options.policy e = .error error →
      (Formula.acceptExpr options σ source e).signature = σ := by
  have learns : ∀ τ, σ.absorb .learn e = .ok τ ↔ τ.Extends σ e.uses := by
    intro τ
    rw [absorb_eq_ok_iff, and_iff_left nofun]
  refine ⟨exists_absorb_iff, learns, fun τ => absorb_refuse_eq_ok_iff, ?_,
    fun policy error => absorb_eq_error_iff, ?_, ?_⟩
  · rw [absorb_refuse_eq_ok_iff, and_iff_right rfl, ← extends_self_iff, learns]
  · intro use failed
    obtain ⟨earlier, other, later, -, -, conflict⟩ := absorb_eq_error_iff.mp failed
    cases conflict
  · intro options source error failed
    exact signature_acceptExpr_of_error failed source

/-- `P(f(x)) ^ P(f(x, y))`, where `f` has one argument and then two. -/
def twoArities : Expr :=
  let x := Expr.named (.ofName "x")
  let y := Expr.named (.ofName "y")
  let apply := Expr.app .function (.ofName "f")
  .connect .and (.ofSymbol .and) (.app .predicate (.ofName "P") [apply [x]])
    (.app .predicate (.ofName "P") [apply [x, y]])

theorem absorb_extends_twoArities :
    Signature.empty.absorb .learn twoArities = .error (.arityMismatch ⟨.function, "f", 2⟩ 1) ∧
      (Formula.acceptExpr .default .empty "P(f(x)) ^ P(f(x, y))" twoArities).signature = .empty := by
  obtain ⟨-, -, -, -, fails, -, unchanged⟩ := absorb_extends .empty twoArities
  have failed : Signature.empty.absorb .learn twoArities =
      .error (.arityMismatch ⟨.function, "f", 2⟩ 1) := by
    rw [fails]
    refine ⟨[⟨.predicate, "P", 1⟩, ⟨.function, "f", 1⟩, ⟨.predicate, "P", 1⟩], _, [], rfl, ?_, ?_⟩
    · exact noConflict_of_run (by decide +kernel)
    · exact .used [⟨.predicate, "P", 1⟩] [⟨.predicate, "P", 1⟩] ⟨.function, "f", 1⟩ rfl (by decide)
        (by decide) (by decide)
  exact ⟨failed, unchanged .default _ _ failed⟩

end Signature

end PredicateCalculus
