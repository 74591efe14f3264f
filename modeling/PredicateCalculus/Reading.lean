/-! # Readings

A reader takes a list apart from the front. What it hands back is a value and the part it has not
looked at, with a bound on the length of that part, so that a reader which calls itself on the rest
comes to an end.

* `Reading τ n β`: a value of `β`, and a rest of fewer than `n` items of `τ`.
* `Reading.relax`, `Reading.map`: the same under a larger bound, or with another value.
-/

set_option autoImplicit false

namespace PredicateCalculus

structure Reading (τ : Type) (n : Nat) (β : Type) where
  value : β
  rest : List τ
  shorter : rest.length < n

namespace Reading

def relax {τ β : Type} {m n : Nat} (r : Reading τ m β) (h : m ≤ n) : Reading τ n β :=
  ⟨r.value, r.rest, Nat.lt_of_lt_of_le r.shorter h⟩

def map {τ β γ : Type} {n : Nat} (f : β → γ) (r : Reading τ n β) : Reading τ n γ :=
  ⟨f r.value, r.rest, r.shorter⟩

end Reading

end PredicateCalculus
