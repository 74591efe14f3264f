import Mathlib.Data.List.Induction
import Mathlib.Data.List.TakeWhile
import PredicateCalculus.CommandLine
import PredicateCalculus.Proofs.Token.Decomposition

/-! # Assignments on the command line

An assignment is a name and a truth value on the two sides of an equals sign, with any blanks around
both. Of several assignments to one name the last one counts.

* `Text.Trims`: a text and the same text without the blanks at its ends.
* `Request.Assigns`: a text that assigns a truth value to a name.
* `Request.Gives`: what a list of such texts gives to a name in the end.
* `Request.assignment?_eq_some_iff`: the texts that are read as assignments.
* `Request.find?_assignment`: what is looked up in the assignment of a request.
-/

set_option autoImplicit false

namespace PredicateCalculus

/-! ## Blanks at the ends -/

namespace Text

structure Trims (text trimmed : List Char) : Prop where
  padded : ∃ before after, Blanks before ∧ Blanks after ∧ text = before ++ trimmed ++ after
  first : ∀ c ∈ trimmed.head?, isBlank c = false
  last : ∀ c ∈ trimmed.getLast?, isBlank c = false

theorem skipBlanks_append {before rest : List Char} (blank : Blanks before)
    (visible : ∀ c ∈ rest.head?, isBlank c = false) : skipBlanks (before ++ rest) = rest := by
  rw [skipBlanks, List.dropWhile_append_of_pos blank]
  cases rest with
  | nil => rfl
  | cons c rest =>
    have notBlank := visible c rfl
    rw [List.dropWhile_cons_of_neg (by simp [notBlank])]

theorem exists_skipped (text : List Char) :
    ∃ before, Blanks before ∧ text = before ++ skipBlanks text := by
  refine ⟨text.takeWhile isBlank, fun c member => ?_, ?_⟩
  · exact List.mem_takeWhile_imp member
  · exact List.takeWhile_append_dropWhile.symm

theorem skipBlanks_visible (text : List Char) :
    ∀ c ∈ (skipBlanks text).head?, isBlank c = false := by
  intro c first
  have notBlank := List.head?_dropWhile_not isBlank text
  rw [Option.mem_def, skipBlanks] at first
  rw [first] at notBlank
  simpa using notBlank

theorem trims_trim (text : List Char) : Trims text (trim text) := by
  obtain ⟨before, blank, front⟩ := exists_skipped text
  obtain ⟨after, blank', back⟩ := exists_skipped (skipBlanks text).reverse
  have split : skipBlanks text = trim text ++ after.reverse := by
    rw [trim, ← List.reverse_append, ← back, List.reverse_reverse]
  refine ⟨⟨before, after.reverse, blank, fun c member => ?_, ?_⟩, fun c first => ?_, ?_⟩
  · exact blank' c (List.mem_reverse.mp member)
  · rw [List.append_assoc, ← split]
    exact front
  · apply skipBlanks_visible text c
    rw [split, List.head?_append, Option.mem_def.mp first]
    rfl
  · rw [trim, List.getLast?_reverse]
    exact skipBlanks_visible _

theorem Trims.trim_eq {text trimmed : List Char} (h : Trims text trimmed) :
    trim text = trimmed := by
  obtain ⟨before, after, blank, blank', rfl⟩ := h.padded
  have blanksBehind : Blanks after.reverse := fun c member => blank' c (List.mem_reverse.mp member)
  by_cases empty : trimmed = []
  · have blanks : Blanks (before ++ after) := List.forall_mem_append.mpr ⟨blank, blank'⟩
    have skipped : skipBlanks (before ++ after) = [] := by
      rw [← List.append_nil (before ++ after)]
      exact skipBlanks_append blanks (by simp)
    rw [empty, List.append_nil, trim, skipped]
    rfl
  · have visible : ∀ c ∈ (trimmed ++ after).head?, isBlank c = false := by
      intro c first
      rw [List.head?_append_of_ne_nil trimmed empty] at first
      exact h.first c first
    have visible' : ∀ c ∈ trimmed.reverse.head?, isBlank c = false := by
      rw [List.head?_reverse]
      exact h.last
    rw [trim, List.append_assoc, skipBlanks_append blank visible, List.reverse_append,
      skipBlanks_append blanksBehind visible', List.reverse_reverse]

theorem trim_eq_iff {text trimmed : List Char} : trim text = trimmed ↔ Trims text trimmed :=
  ⟨fun h => h ▸ trims_trim text, Trims.trim_eq⟩

end Text

namespace Request

/-! ## One assignment -/

def truthSpellings : Bool → List String
  | true => ["true", "1"]
  | false => ["false", "0"]

theorem truthValue?_eq_some_iff {word : String} {truth : Bool} :
    truthValue? word = some truth ↔ word ∈ truthSpellings truth := by
  unfold truthValue?
  constructor
  · intro h
    split at h <;> cases h <;> simp [truthSpellings]
  · intro h
    cases truth <;> simp [truthSpellings] at h <;> rcases h with rfl | rfl <;> rfl

/-- The first equals sign ends the name. -/
def Assigns (text name : String) (truth : Bool) : Prop :=
  ∃ left right word, text.toList = left ++ '=' :: right ∧ '=' ∉ left ∧
    Text.Trims left name.toList ∧ Text.Trims right word.toList ∧ word ∈ truthSpellings truth

theorem trimmed_eq_iff {text : List Char} {word : String} :
    trimmed text = word ↔ Text.Trims text word.toList := by
  rw [← Text.trim_eq_iff, trimmed, ← String.toList_inj, String.toList_ofList]

theorem ne_of_not_mem {text : List Char} (h : '=' ∉ text) :
    ∀ c ∈ text, (c != '=') = true := by
  intro c member
  exact bne_iff_ne.mpr (ne_of_mem_of_not_mem member h)

theorem assignment?_of_split {text : String} {left right : List Char}
    (split : text.toList = left ++ '=' :: right) (ends : '=' ∉ left) :
    assignment? text = (truthValue? (trimmed right)).map (trimmed left, ·) := by
  have name : (left ++ '=' :: right).takeWhile (· != '=') = left := by
    rw [List.takeWhile_append_of_pos (ne_of_not_mem ends)]
    simp
  simp only [assignment?, split, name, List.drop_left]

theorem assignment?_of_not_mem {text : String} (h : '=' ∉ text.toList) :
    assignment? text = none := by
  have name : text.toList.takeWhile (· != '=') = text.toList :=
    List.takeWhile_eq_self_iff.mpr (ne_of_not_mem h)
  simp only [assignment?, name, List.drop_length]

theorem assignment?_eq_some_iff {text name : String} {truth : Bool} :
    assignment? text = some (name, truth) ↔ Assigns text name truth := by
  constructor
  · intro h
    by_cases sign : '=' ∈ text.toList
    · obtain ⟨left, right, split, ends⟩ := List.eq_append_cons_of_mem sign
      rw [assignment?_of_split split ends, Option.map_eq_some_iff] at h
      obtain ⟨read, spelled, same⟩ := h
      obtain ⟨rfl, rfl⟩ := Prod.mk.inj same
      exact ⟨left, right, trimmed right, split, ends, trimmed_eq_iff.mp rfl, trimmed_eq_iff.mp rfl,
        truthValue?_eq_some_iff.mp spelled⟩
    · rw [assignment?_of_not_mem sign] at h
      cases h
  · rintro ⟨left, right, word, split, ends, name, value, spelled⟩
    rw [assignment?_of_split split ends, trimmed_eq_iff.mpr name, trimmed_eq_iff.mpr value,
      truthValue?_eq_some_iff.mpr spelled]
    rfl

/-! ## Many assignments -/

/-- The last text that assigns anything to the name assigns the truth value. -/
def Gives (texts : List String) (name : String) (truth : Bool) : Prop :=
  ∃ earlier text later, texts = earlier ++ text :: later ∧ Assigns text name truth ∧
    ∀ other ∈ later, ∀ truth', ¬Assigns other name truth'

theorem not_gives_nil (name : String) (truth : Bool) : ¬Gives [] name truth := by
  rintro ⟨earlier, text, later, split, -⟩
  simp at split

theorem gives_concat_iff {texts : List String} {text name : String} {truth : Bool} :
    Gives (texts ++ [text]) name truth ↔ Assigns text name truth ∨
      (∀ truth', ¬Assigns text name truth') ∧ Gives texts name truth := by
  constructor
  · rintro ⟨earlier, found, later, split, assigns, silent⟩
    induction later using List.reverseRecOn with
    | nil =>
      obtain ⟨-, last⟩ := List.append_inj' split rfl
      obtain rfl := List.singleton_inj.mp last
      exact .inl assigns
    | append_singleton later last _ =>
      rw [← List.cons_append, ← List.append_assoc] at split
      obtain ⟨front, same⟩ := List.append_inj' split rfl
      obtain rfl := List.singleton_inj.mp same
      refine .inr ⟨silent text (by simp), earlier, found, later, front, assigns, ?_⟩
      intro other member
      exact silent other (List.mem_append_left _ member)
  · rintro (assigns | ⟨silent, earlier, found, later, rfl, assigns, silentBetween⟩)
    · exact ⟨texts, text, [], rfl, assigns, by simp⟩
    · refine ⟨earlier, found, later ++ [text], by simp, assigns, ?_⟩
      intro other member
      rcases List.mem_append.mp member with between | last
      · exact silentBetween other between
      · rw [List.mem_singleton.mp last]
        exact silent

theorem ofList_concat {β : Type} (pairs : List (String × β)) (name : String) (value : β) :
    NameTable.ofList (pairs ++ [(name, value)]) = (NameTable.ofList pairs).insert name value := by
  simp [NameTable.ofList]

theorem find?_assignment {texts : List String} {assignments : List (String × Bool)}
    (read : texts.mapM assignment? = some assignments) (name : String) (value : Value Bool) :
    (NameTable.ofList (assignments.map fun (name, truth) => (name, Value.truth truth))).find? name =
      some value ↔ ∃ truth, Gives texts name truth ∧ .truth truth = value := by
  induction texts using List.reverseRecOn generalizing assignments with
  | nil =>
    obtain rfl : [] = assignments := Option.some.inj read
    refine iff_of_false (by simp [NameTable.ofList, NameTable.find?_empty]) ?_
    rintro ⟨truth, given, -⟩
    exact not_gives_nil name truth given
  | append_singleton texts text ih =>
    rw [List.mapM_append] at read
    obtain ⟨before, readBefore, rest⟩ := Option.bind_eq_some_iff.mp read
    obtain ⟨last, readLast, same⟩ := Option.bind_eq_some_iff.mp rest
    obtain rfl := Option.some.inj same
    rw [List.mapM_cons] at readLast
    obtain ⟨⟨other, given⟩, readText, rest⟩ := Option.bind_eq_some_iff.mp readLast
    obtain rfl : [(other, given)] = last := Option.some.inj rest
    have assigns : ∀ name truth, Assigns text name truth ↔ other = name ∧ given = truth := by
      intro name truth
      rw [← assignment?_eq_some_iff, readText, Option.some_inj, Prod.mk.injEq]
    rw [List.map_append, List.map_singleton, ofList_concat, NameTable.find?_insert]
    simp only [gives_concat_iff, assigns]
    by_cases same : other = name
    · rw [if_pos same, Option.some_inj]
      simp [same]
    · rw [if_neg same, ih readBefore]
      simp [same]

end Request

end PredicateCalculus
