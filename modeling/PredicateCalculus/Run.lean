/-! # Runs

A run is a computation that leaves records on its way and ends with a value or with an error. The
records before an error stay.

* `Run`: the records and the end.
* `Run.record`: the run that leaves one record.
* `Run.bind`: one run after another, which is not reached after an error.
-/

set_option autoImplicit false

namespace PredicateCalculus

structure Run (ρ ε β : Type) where
  records : List ρ
  outcome : Except ε β

namespace Run

variable {ρ ε β γ : Type}

def succeed (value : β) : Run ρ ε β :=
  ⟨[], .ok value⟩

def record (entry : ρ) : Run ρ ε Unit :=
  ⟨[entry], .ok ()⟩

def bind (first : Run ρ ε β) (next : β → Run ρ ε γ) : Run ρ ε γ :=
  match first.outcome with
  | .error error => ⟨first.records, .error error⟩
  | .ok value => ⟨first.records ++ (next value).records, (next value).outcome⟩

instance : Monad (Run ρ ε) where
  pure := succeed
  bind := bind

/-! ## Laws -/

theorem bind_ok (records : List ρ) (value : β) (next : β → Run ρ ε γ) :
    (⟨records, .ok value⟩ : Run ρ ε β) >>= next =
      ⟨records ++ (next value).records, (next value).outcome⟩ := rfl

instance : LawfulMonad (Run ρ ε) := LawfulMonad.mk' _
  (fun run => by
    obtain ⟨records, outcome⟩ := run
    cases outcome <;> simp [Functor.map, bind, succeed])
  (fun value next => by
    show bind (succeed value) next = _
    simp [bind, succeed])
  (fun run next last => by
    obtain ⟨records, outcome⟩ := run
    cases outcome with
    | error error => rfl
    | ok value =>
      show bind (bind _ next) last = bind _ fun value => bind (next value) last
      simp only [bind]
      cases (next value).outcome <;> simp)

theorem outcome_bind (first : Run ρ ε β) (next : β → Run ρ ε γ) :
    (first >>= next).outcome = first.outcome.bind fun value => (next value).outcome := by
  obtain ⟨records, outcome⟩ := first
  cases outcome <;> rfl

end Run

end PredicateCalculus
