import Mathlib.Data.List.Basic
import PredicateCalculus.Token.Lexer

/-! # Names and spellings

No spelling of a symbol begins another one, so at most one of them is at the front of a text. A name
is what the lexer reads as an identifier: a run of letters that begins with no spelling.

* `Symbol.table_prefix_free`: the spellings do not overlap.
* `IsName`: the names.
* `Mark`, `Name`: tokens that are a given symbol, or a name.
* `Lexer.symbolAt_append`, `Lexer.symbolAt_name`: what is read at the front of a text.
-/

set_option autoImplicit false

namespace PredicateCalculus

/-! ## The table of spellings -/

namespace Symbol

theorem table_prefix_free :
    ∀ entry ∈ table, ∀ other ∈ table, entry.2.toList <+: other.2.toList → entry = other := by
  decide +kernel

theorem table_visible : ∀ entry ∈ table, entry.2.toList.head?.all (!Text.isBlank ·) = true := by
  decide +kernel

theorem table_blankless : ∀ entry ∈ table, entry.2.toList.all (!Text.isBlank ·) = true := by
  decide +kernel

/-- A spelling that begins with a letter is a word. -/
theorem table_words : ∀ entry ∈ table, entry.2.toList.head?.all Char.isAlpha = true →
    entry.2.toList.all Char.isAlpha = true := by
  decide +kernel

theorem eq_of_begins {entry other : Symbol × String} (h : entry ∈ table) (h' : other ∈ table)
    {text : List Char} (begins : entry.2.toList <+: text) (begins' : other.2.toList <+: text) :
    entry = other := by
  rcases List.prefix_or_prefix_of_prefix begins begins' with less | less
  · exact table_prefix_free entry h other h' less
  · exact (table_prefix_free other h' entry h less).symm

end Symbol

/-! ## Letters -/

theorem isUpper_iff {c : Char} : c.isUpper = true ↔ 65 ≤ c.toNat ∧ c.toNat ≤ 90 := by
  show decide (c.val ≥ 'A'.val ∧ c.val ≤ 'Z'.val) = true ↔ _
  rw [decide_eq_true_eq]
  exact Iff.rfl

theorem isLower_iff {c : Char} : c.isLower = true ↔ 97 ≤ c.toNat ∧ c.toNat ≤ 122 := by
  show (decide (c.val ≥ 'a'.val) && decide (c.val ≤ 'z'.val)) = true ↔ _
  rw [Bool.and_eq_true, decide_eq_true_eq, decide_eq_true_eq]
  exact Iff.rfl

theorem isAlpha_iff {c : Char} : c.isAlpha = true ↔ c.isUpper = true ∨ c.isLower = true := by
  show (c.isUpper || c.isLower) = true ↔ _
  rw [Bool.or_eq_true]

theorem Lexer.not_isBlank_of_isAlpha {c : Char} (h : c.isAlpha = true) :
    Text.isBlank c = false := by
  rw [isAlpha_iff, isUpper_iff, isLower_iff] at h
  simp only [Text.isBlank, Text.blankRanges, List.any_cons, List.any_nil, Bool.or_false,
    Bool.or_eq_false_iff, Bool.and_eq_false_iff, decide_eq_false_iff_not]
  omega

/-! ## Names -/

structure IsName (name : String) : Prop where
  nonempty : name.toList ≠ []
  letters : ∀ c ∈ name.toList, c.isAlpha = true
  unspelled : ∀ entry ∈ Symbol.table, ¬entry.2.toList <+: name.toList

instance (name : String) : Decidable (IsName name) :=
  decidable_of_iff (name.toList.isEmpty = false ∧ name.toList.all Char.isAlpha = true ∧
      Symbol.table.any (fun entry => entry.2.toList.isPrefixOf name.toList) = false) <| by
    simp only [List.isEmpty_eq_false_iff, List.all_eq_true, List.any_eq_false,
      List.isPrefixOf_iff_prefix]
    exact ⟨fun ⟨nonempty, letters, unspelled⟩ => ⟨nonempty, letters, unspelled⟩,
      fun h => ⟨h.nonempty, h.letters, h.unspelled⟩⟩

example : IsName "foo" ∧ ¬IsName "vx" ∧ ¬IsName "Ab" ∧ ¬IsName "x1" := by decide +kernel

@[ext]
structure Mark (symbol : Symbol) where
  token : Token
  isSymbol : token.kind = .symbol symbol

@[ext]
structure Name where
  token : Token
  isIdentifier : token.kind = .identifier token.text
  isName : IsName token.text

def Mark.of (symbol : Symbol) : Mark symbol :=
  ⟨.ofSymbol symbol, rfl⟩

def Name.of (name : String) (h : IsName name) : Name :=
  ⟨.ofName name, rfl, h⟩

/-! ## The front of a text -/

namespace Lexer

theorem begins_of_symbolAt {text : List Char} {entry : Symbol × String}
    (h : symbolAt text = some entry) : entry ∈ Symbol.table ∧ entry.2.toList <+: text := by
  have begins := List.find?_some (p := fun e : Symbol × String => e.2.toList.isPrefixOf text) h
  exact ⟨List.mem_of_find?_eq_some h, List.isPrefixOf_iff_prefix.mp begins⟩

theorem symbolAt_eq_none_iff {text : List Char} :
    symbolAt text = none ↔ ∀ entry ∈ Symbol.table, ¬entry.2.toList <+: text := by
  simp only [symbolAt, List.find?_eq_none, List.isPrefixOf_iff_prefix]

theorem symbolAt_append {symbol : Symbol} {spelling : String}
    (h : (symbol, spelling) ∈ Symbol.table) (rest : List Char) :
    symbolAt (spelling.toList ++ rest) = some (symbol, spelling) := by
  have begins : spelling.toList <+: spelling.toList ++ rest := List.prefix_append _ _
  cases found : symbolAt (spelling.toList ++ rest) with
  | none => exact absurd begins (symbolAt_eq_none_iff.mp found _ h)
  | some entry =>
    obtain ⟨listed, begins'⟩ := begins_of_symbolAt found
    rw [Symbol.eq_of_begins listed h begins' begins]

/-- The text does not go on with a letter. -/
def Separated (text : List Char) : Prop :=
  text.head?.all (!Char.isAlpha ·) = true

theorem separated_of_isBlank {c : Char} (blank : Text.isBlank c = true) (text : List Char) :
    Separated (c :: text) := by
  have notLetter : c.isAlpha = false := by
    by_contra letter
    rw [not_isBlank_of_isAlpha (by simpa using letter)] at blank
    cases blank
  simp [Separated, notLetter]

theorem symbolAt_name {name : String} (h : IsName name) {rest : List Char}
    (separated : Separated rest) : symbolAt (name.toList ++ rest) = none := by
  refine symbolAt_eq_none_iff.mpr fun entry member prefixed => ?_
  rcases List.prefix_or_prefix_of_prefix prefixed (List.prefix_append _ rest) with within | beyond
  · exact h.unspelled entry member within
  · -- The spelling begins with the letters of the name, so it is a word and stays in the letters.
    obtain ⟨more, eq⟩ := beyond
    obtain ⟨first, others, chars⟩ := List.exists_cons_of_ne_nil h.nonempty
    have word : entry.2.toList.all Char.isAlpha = true := by
      refine Symbol.table_words entry member ?_
      rw [← eq, chars]
      simpa using h.letters first (by rw [chars]; exact List.mem_cons_self)
    rw [← eq, List.prefix_append_right_inj] at prefixed
    cases more with
    | nil =>
      rw [List.append_nil] at eq
      exact h.unspelled entry member (eq ▸ List.prefix_rfl)
    | cons c more =>
      obtain ⟨rest, rfl⟩ := prefixed
      have letter : c.isAlpha = true := List.all_eq_true.mp word c (by rw [← eq]; simp)
      simp [Separated, letter] at separated

theorem takeWhile_name {name : String} (h : IsName name) {rest : List Char}
    (separated : Separated rest) :
    (name.toList ++ rest).takeWhile Char.isAlpha = name.toList := by
  rw [List.takeWhile_append_of_pos h.letters]
  cases rest with
  | nil => simp
  | cons c rest =>
    have other : c.isAlpha = false := by simpa [Separated] using separated
    simp [other]

theorem tokenAt_append {symbol : Symbol} {spelling : String}
    (h : (symbol, spelling) ∈ Symbol.table) (offset : Nat) (rest : List Char) :
    tokenAt offset (spelling.toList ++ rest) = some ⟨.symbol symbol, spelling, some offset⟩ := by
  rw [tokenAt, symbolAt_append h]

theorem tokenAt_name {name : String} (h : IsName name) (offset : Nat) {rest : List Char}
    (separated : Separated rest) :
    tokenAt offset (name.toList ++ rest) = some ⟨.identifier name, name, some offset⟩ := by
  rw [tokenAt, symbolAt_name h separated, takeWhile_name h separated]
  obtain ⟨first, others, chars⟩ := List.exists_cons_of_ne_nil h.nonempty
  rw [chars]
  simp only [← chars, String.ofList_toList]

end Lexer

end PredicateCalculus
