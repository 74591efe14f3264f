/-! # Tables of names

A table gives a value to each of finitely many names. Its entries are kept in the order of the
names, character by character, so a table is determined by what it gives to each name.

* `NameTable.find?`: the value of a name.
* `NameTable.insert`: the table with one name given a value, whatever it had before.
* `NameTable.filterMap`: another table made from the values, which may leave out names.
* `NameTable.ext`: tables that agree on every name are equal.
-/

set_option autoImplicit false

namespace PredicateCalculus

structure NameTable (β : Type) where
  entries : List (String × β)
  ordered : entries.Pairwise fun left right => left.1 < right.1

namespace NameTable

variable {β γ : Type}

def empty : NameTable β :=
  ⟨[], .nil⟩

def isEmpty (table : NameTable β) : Bool :=
  table.entries.isEmpty

def names (table : NameTable β) : List String :=
  table.entries.map (·.1)

def lookup (name : String) : List (String × β) → Option β
  | [] => none
  | (other, value) :: rest => if other = name then some value else lookup name rest

def find? (table : NameTable β) (name : String) : Option β :=
  lookup name table.entries

/-- Puts a name before the first greater one, or in the place of its former entry. -/
def place (name : String) (value : β) : List (String × β) → List (String × β)
  | [] => [(name, value)]
  | (other, old) :: rest =>
    if name = other then (name, value) :: rest
    else if name < other then (name, value) :: (other, old) :: rest
    else (other, old) :: place name value rest

/-! ## Order -/

theorem lt_of_not_lt {left right : String} (h : ¬left < right) (hne : left ≠ right) :
    right < left := by
  by_cases h' : right < left
  · exact h'
  · exact absurd (String.le_antisymm (String.not_lt.mp h') (String.not_lt.mp h)) hne

theorem mem_place {name : String} {value : β} {entries : List (String × β)} {entry : String × β}
    (h : entry ∈ place name value entries) : entry = (name, value) ∨ entry ∈ entries := by
  induction entries with
  | nil => exact Or.inl (List.mem_singleton.mp h)
  | cons head rest ih =>
    obtain ⟨other, old⟩ := head
    rw [place] at h
    split at h
    · exact (List.mem_cons.mp h).imp_right (List.mem_cons_of_mem _)
    · split at h
      · exact List.mem_cons.mp h
      · rcases List.mem_cons.mp h with rfl | h
        · exact Or.inr List.mem_cons_self
        · exact (ih h).imp_right (List.mem_cons_of_mem _)

theorem place_ordered (name : String) (value : β) {entries : List (String × β)}
    (h : entries.Pairwise fun left right => left.1 < right.1) :
    (place name value entries).Pairwise fun left right => left.1 < right.1 := by
  induction entries with
  | nil => exact List.pairwise_singleton _ _
  | cons head rest ih =>
    obtain ⟨other, old⟩ := head
    obtain ⟨below, tail⟩ := List.pairwise_cons.mp h
    rw [place]
    split
    · next same =>
      subst same
      exact List.pairwise_cons.mpr ⟨below, tail⟩
    · next different =>
      split
      · next less =>
        refine List.pairwise_cons.mpr ⟨fun entry member => ?_, h⟩
        rcases List.mem_cons.mp member with rfl | member
        · exact less
        · exact String.lt_trans less (below entry member)
      · next notLess =>
        refine List.pairwise_cons.mpr ⟨fun entry member => ?_, ih tail⟩
        rcases mem_place member with rfl | member
        · exact lt_of_not_lt notLess different
        · exact below entry member

def insert (table : NameTable β) (name : String) (value : β) : NameTable β :=
  ⟨place name value table.entries, place_ordered name value table.ordered⟩

/-- Later pairs replace earlier ones of the same name. -/
def ofList (pairs : List (String × β)) : NameTable β :=
  pairs.foldl (fun table (name, value) => table.insert name value) empty

def filterMap (f : β → Option γ) (table : NameTable β) : NameTable γ :=
  ⟨table.entries.filterMap fun (name, value) => (f value).map (name, ·), by
    refine table.ordered.filterMap _ fun left right less left' hleft right' hright => ?_
    obtain ⟨_, _, rfl⟩ := Option.map_eq_some_iff.mp hleft
    obtain ⟨_, _, rfl⟩ := Option.map_eq_some_iff.mp hright
    exact less⟩

instance [DecidableEq β] : DecidableEq (NameTable β) := fun left right =>
  decidable_of_iff (left.entries = right.entries)
    ⟨fun h => by cases left; cases right; cases h; rfl, fun h => h ▸ rfl⟩

/-! ## What a table gives to a name -/

theorem lookup_place (name other : String) (value : β) (entries : List (String × β)) :
    lookup other (place name value entries) =
      if name = other then some value else lookup other entries := by
  induction entries with
  | nil => rfl
  | cons head rest ih =>
    obtain ⟨first, old⟩ := head
    by_cases same : name = first
    · subst same
      by_cases h : name = other <;> simp [place, lookup, h]
    · by_cases less : name < first
      · simp [place, same, less, lookup]
      · by_cases h : first = other
        · subst h
          simp [place, same, less, lookup]
        · simp [place, same, less, lookup, h, ih]

theorem find?_empty (name : String) : (empty : NameTable β).find? name = none := rfl

theorem find?_insert (table : NameTable β) (name other : String) (value : β) :
    (table.insert name value).find? other =
      if name = other then some value else table.find? other :=
  lookup_place name other value table.entries

theorem mem_of_lookup {name : String} {value : β} {entries : List (String × β)}
    (h : lookup name entries = some value) : (name, value) ∈ entries := by
  induction entries with
  | nil => exact absurd h (by simp [lookup])
  | cons head rest ih =>
    obtain ⟨other, old⟩ := head
    rw [lookup] at h
    split at h
    · next same =>
      subst same
      obtain rfl := Option.some.inj h
      exact List.mem_cons_self
    · exact List.mem_cons_of_mem _ (ih h)

theorem lookup_eq_none_of_forall_lt {name : String} {entries : List (String × β)}
    (h : ∀ entry ∈ entries, name < entry.1) : lookup name entries = none := by
  cases found : lookup name entries with
  | none => rfl
  | some value => exact absurd (h _ (mem_of_lookup found)) (String.lt_irrefl name)

theorem entries_eq_of_lookup {left right : List (String × β)}
    (hleft : left.Pairwise fun a b => a.1 < b.1) (hright : right.Pairwise fun a b => a.1 < b.1)
    (h : ∀ name, lookup name left = lookup name right) : left = right := by
  induction left generalizing right with
  | nil =>
    cases right with
    | nil => rfl
    | cons head rest =>
      have := h head.1
      simp [lookup] at this
  | cons head rest ih =>
    obtain ⟨name, value⟩ := head
    obtain ⟨below, ordered⟩ := List.pairwise_cons.mp hleft
    cases right with
    | nil =>
      have := h name
      simp [lookup] at this
    | cons head' rest' =>
      obtain ⟨name', value'⟩ := head'
      obtain ⟨below', ordered'⟩ := List.pairwise_cons.mp hright
      have same : name = name' := by
        by_cases eq : name = name'
        · exact eq
        · by_cases less : name < name'
          · have at_name := h name
            rw [lookup, if_pos rfl, lookup, if_neg (Ne.symm eq), lookup_eq_none_of_forall_lt
              (fun entry member => String.lt_trans less (below' entry member))] at at_name
            exact absurd at_name (by simp)
          · have at_name := h name'
            rw [lookup, if_neg eq, lookup, if_pos rfl, lookup_eq_none_of_forall_lt
              (fun entry member => String.lt_trans (lt_of_not_lt less eq) (below entry member))]
              at at_name
            exact absurd at_name (by simp)
      subst same
      have value_eq : value = value' := by
        have := h name
        simpa [lookup] using this
      subst value_eq
      congr 1
      refine ih ordered ordered' fun other => ?_
      by_cases eq : name = other
      · subst eq
        rw [lookup_eq_none_of_forall_lt below, lookup_eq_none_of_forall_lt below']
      · have := h other
        simpa [lookup, eq] using this

theorem ext {left right : NameTable β} (h : ∀ name, left.find? name = right.find? name) :
    left = right := by
  cases left
  cases right
  congr 1
  exact entries_eq_of_lookup ‹_› ‹_› h

end NameTable

end PredicateCalculus
