import Mathlib.Data.List.Forall2
import Mathlib.Data.Option.Basic
import PredicateCalculus.Json

/-! # Reading what is written as JSON

A string is written between quotation marks, each of its characters as itself or as an escape, a
number with its digits, and an object as its fields between braces. Each is read as it was written,
whatever comes behind it, as long as that does not go on with the number.

* `Json.plain`: the value and the rest of a reading.
* `Json.SpellsPieces`, `Json.Literal`: the ways to write a string.
* `Json.Ends`: what can stand behind a number.
* `Json.Spells`: a text is read as a value, whatever comes behind it.
* `Json.spells_literal`, `Json.spells_number`, `Json.spells_objectText`: strings, numbers and
  objects.
-/

set_option autoImplicit false

namespace PredicateCalculus

namespace Json

section

variable {β γ : Type} {m n : Nat}

def plain (result : Option (Reading Char n β)) : Option (β × List Char) :=
  result.map fun reading => (reading.value, reading.rest)

theorem plain_bind {result : Option (Reading Char n β)}
    {next : Reading Char n β → Option (Reading Char m γ)}
    {plainNext : β × List Char → Option (γ × List Char)}
    (h : ∀ reading, plain (next reading) = plainNext (reading.value, reading.rest)) :
    plain (result >>= next) = plain result >>= plainNext := by
  cases result with
  | none => rfl
  | some reading => exact h reading

theorem eq_some_of_plain {result : Option (Reading Char n β)} {value : β} {rest : List Char}
    (h : plain result = some (value, rest)) : ∃ shorter, result = some ⟨value, rest, shorter⟩ := by
  obtain ⟨⟨_, _, shorter⟩, rfl, parts⟩ := Option.map_eq_some_iff.mp h
  cases parts
  exact ⟨shorter, rfl⟩

end

/-! ## Strings -/

theorem hexDigit?_hexDigit : ∀ n, n < 16 → hexDigit? (hexDigit n) = some n := by decide

/-- A character is escaped by a letter of its own or by its number, or it stands for itself. -/
theorem escape_cases (c : Char) :
    (∃ d, shortEscape? d = some c ∧ escape c = ['\\', d]) ∨
      (c.toNat < 0x20 ∧ escape c =
        ['\\', 'u', '0', '0', hexDigit (c.toNat / 16), hexDigit (c.toNat % 16)]) ∨
      (0x20 ≤ c.toNat ∧ c ≠ '"' ∧ c ≠ '\\' ∧ escape c = [c]) := by
  unfold escape
  split
  · exact .inl ⟨_, rfl, rfl⟩
  · exact .inl ⟨_, rfl, rfl⟩
  · exact .inl ⟨'b', rfl, rfl⟩
  · exact .inl ⟨'f', rfl, rfl⟩
  · exact .inl ⟨'n', rfl, rfl⟩
  · exact .inl ⟨'r', rfl, rfl⟩
  · exact .inl ⟨'t', rfl, rfl⟩
  · next quote backslash _ _ _ _ _ =>
    split
    · next control => exact .inr (.inl ⟨control, rfl⟩)
    · next visible => exact .inr (.inr ⟨by omega, quote, backslash, rfl⟩)

theorem hexCode?_control {n : Nat} (control : n < 0x20) :
    hexCode? '0' '0' (hexDigit (n / 16)) (hexDigit (n % 16)) = some n := by
  have zero : hexDigit? '0' = some 0 := by decide
  have high := hexDigit?_hexDigit (n / 16) (by omega)
  have low := hexDigit?_hexDigit (n % 16) (by omega)
  simp only [hexCode?, zero, high, low, bind, Option.bind, pure]
  congr 1
  omega

theorem ofCode_control {c : Char} (control : c.toNat < 0x20) : Piece.ofCode c.toNat = .char c := by
  have noSurrogate : (isHighSurrogate c.toNat || isLowSurrogate c.toNat) = false := by
    simp only [isHighSurrogate, isLowSurrogate, Bool.or_eq_false_iff, Bool.and_eq_false_iff,
      decide_eq_false_iff_not]
    omega
  rw [Piece.ofCode, noSurrogate, Char.ofNat_toNat]
  rfl

/-- What may be written for a piece of a string: the character itself, a backslash with the letter
of the character, or a number. -/
inductive SpellsPiece : List Char → Piece → Prop where
  | plain {c : Char} (visible : 0x20 ≤ c.toNat) (quote : c ≠ '"') (backslash : c ≠ '\\') :
      SpellsPiece [c] (.char c)
  | short {letter c : Char} (named : shortEscape? letter = some c) :
      SpellsPiece ['\\', letter] (.char c)
  | numbered {a b c d : Char} {code : Nat} (digits : hexCode? a b c d = some code) :
      SpellsPiece ['\\', 'u', a, b, c, d] (.ofCode code)

inductive SpellsPieces : List Char → List Piece → Prop where
  | nil : SpellsPieces [] []
  | cons {front text : List Char} {piece : Piece} {pieces : List Piece}
      (first : SpellsPiece front piece) (rest : SpellsPieces text pieces) :
      SpellsPieces (front ++ text) (piece :: pieces)

theorem spellsPiece_escape (c : Char) : SpellsPiece (escape c) (.char c) := by
  rcases escape_cases c with ⟨d, named, eq⟩ | ⟨control, eq⟩ | ⟨visible, quote, backslash, eq⟩
  · rw [eq]
    exact .short named
  · rw [eq, ← ofCode_control control]
    exact .numbered (hexCode?_control control)
  · rw [eq]
    exact .plain visible quote backslash

theorem spellsPieces_escape (text : List Char) :
    SpellsPieces (text.flatMap escape) (text.map .char) := by
  induction text with
  | nil => exact .nil
  | cons c text ih => exact .cons (spellsPiece_escape c) ih

/-- A piece is read, and then the rest of the string. -/
theorem SpellsPiece.plain_stringBody {front : List Char} {piece : Piece}
    (h : SpellsPiece front piece) (text : List Char) :
    Json.plain (stringBody (front ++ text)) =
      (Json.plain (stringBody text)).map fun (pieces, rest) => (piece :: pieces, rest) := by
  cases h with
  | short named =>
    rw [List.cons_append, List.singleton_append, stringBody, named]
    · cases stringBody text <;> rfl
    · rintro _ _ _ _ _ rfl -
      cases named
  | numbered digits =>
    simp only [List.cons_append, List.nil_append]
    rw [stringBody, digits]
    cases stringBody text <;> rfl
  | @plain c visible quote backslash =>
    have allowed : (decide (0x20 ≤ c.toNat) && c != '\\') = true := by
      rw [decide_eq_true visible, Bool.true_and, bne_iff_ne]
      exact backslash
    rw [List.singleton_append, stringBody, (Option.guard_eq_some' ()).mpr allowed]
    · cases stringBody text <;> rfl
    · exact quote
    · intro a b c' d rest isBackslash
      exact absurd isBackslash backslash
    · intro c' rest isBackslash
      exact absurd isBackslash backslash

theorem SpellsPieces.plain_stringBody {text : List Char} {pieces : List Piece}
    (h : SpellsPieces text pieces) (rest : List Char) :
    Json.plain (stringBody (text ++ '"' :: rest)) = some (pieces, rest) := by
  induction h with
  | nil =>
    rw [List.nil_append, stringBody]
    rfl
  | cons first _ ih =>
    rw [List.append_assoc, first.plain_stringBody, ih]
    rfl

theorem ofPieces_char (text : String) : ofPieces (text.toList.map .char) = some text := by
  have joined : ∀ chars : List Char, joinPieces (chars.map .char) = some chars := by
    intro chars
    induction chars with
    | nil => rfl
    | cons c chars ih =>
      rw [List.map_cons, joinPieces, ih]
      rfl
  rw [ofPieces, joined]
  simp

/-- A string with its quotation marks. -/
structure Literal where
  body : List Char
  pieces : List Piece
  spells : SpellsPieces body pieces

namespace Literal

def text (literal : Literal) : String :=
  "\"" ++ String.ofList literal.body ++ "\""

/-- The string that the literal stands for, unless there is half a surrogate pair in it. -/
def string? (literal : Literal) : Option String :=
  ofPieces literal.pieces

/-- The string as it is written by `quote`. -/
def ofString (string : String) : Literal :=
  ⟨string.toList.flatMap escape, string.toList.map .char, spellsPieces_escape _⟩

theorem text_ofString (string : String) : (ofString string).text = quote string := rfl

theorem string?_ofString (string : String) : (ofString string).string? = some string :=
  ofPieces_char string

theorem toList_text (literal : Literal) (rest : List Char) :
    literal.text.toList ++ rest = '"' :: (literal.body ++ '"' :: rest) := by
  simp [text]

end Literal

/-! ## Numbers -/

def Ends (rest : List Char) : Prop :=
  rest.head?.all (fun c => !(c.isDigit || c == '.' || c == 'e' || c == 'E')) = true

/-- The digits of a number other than zero do not begin with a zero. -/
theorem toDigits_cons (n : Nat) :
    ∃ c more, Nat.toDigits 10 n = c :: more ∧ (c = '0' → n = 0) := by
  induction n using Nat.strongRecOn with
  | ind n ih =>
    rw [Nat.toDigits_eq_if (by decide)]
    by_cases small : n < 10
    · rw [if_pos small]
      exact ⟨_, [], rfl, Nat.digitChar_eq_zero.mp⟩
    · obtain ⟨c, more, eq, leading⟩ := ih (n / 10) (by omega)
      rw [if_neg small, eq]
      refine ⟨c, _, rfl, fun zero => ?_⟩
      have noDigits := leading zero
      omega

theorem isDigit_of_mem_toDigits {n : Nat} : ∀ c ∈ Nat.toDigits 10 n, c.isDigit = true :=
  fun _ member => Nat.isDigit_of_mem_toDigits (by decide) (by decide) member

theorem Ends.cases {rest : List Char} (h : Ends rest) :
    rest = [] ∨ ∃ c more, rest = c :: more ∧ c.isDigit = false ∧ c ≠ '.' ∧
      (c == 'e' || c == 'E') = false := by
  cases rest with
  | nil => exact .inl rfl
  | cons c more =>
    simp only [Ends, List.head?_cons, Option.all_some, Bool.not_eq_true', Bool.or_eq_false_iff,
      beq_eq_false_iff_ne] at h
    obtain ⟨⟨⟨digit, point⟩, small⟩, large⟩ := h
    exact .inr ⟨c, more, rfl, digit, point, by simp [small, large]⟩

theorem afterInteger?_toDigits (n : Nat) {rest : List Char} (ends : Ends rest) :
    afterInteger? (Nat.toDigits 10 n ++ rest) = some rest := by
  have noDigits : rest.head?.any Char.isDigit = false ∧ rest.dropWhile Char.isDigit = rest := by
    obtain rfl | ⟨c, more, rfl, digit, -⟩ := ends.cases
    · exact ⟨rfl, rfl⟩
    · simp [digit]
  obtain ⟨c, more, eq, leading⟩ := toDigits_cons n
  by_cases zero : c = '0'
  · obtain rfl := leading zero
    rw [Nat.toDigits_zero, List.singleton_append, afterInteger?, if_neg (by simp [noDigits.1])]
  · have digits : ∀ d ∈ c :: more, d.isDigit = true := eq ▸ isDigit_of_mem_toDigits
    rw [List.forall_mem_cons] at digits
    rw [eq, List.cons_append, afterInteger?, afterDigits?, if_pos digits.1,
      List.dropWhile_append_of_pos digits.2, noDigits.2]
    intro _ same
    exact zero (List.cons.inj same).1

theorem plain_unsignedNumber (n : Nat) {rest : List Char} (ends : Ends rest) :
    plain (unsignedNumber (Nat.toDigits 10 n ++ rest)) = some (some n, rest) := by
  have integer := afterInteger?_toDigits n ends
  have fraction : afterFraction? rest = some rest := by
    obtain rfl | ⟨c, more, rfl, -, point, -⟩ := ends.cases
    · rfl
    · rw [afterFraction?]
      exact fun _ same => point (List.cons.inj same).1
  have exponent : afterExponent? rest = some rest := by
    obtain rfl | ⟨c, more, rfl, -, -, letter⟩ := ends.cases
    · rfl
    · unfold afterExponent?
      simp [letter]
  have value : naturalOf (Nat.toDigits 10 n) = n := Nat.ofDigitChars_ten_toDigits
  unfold unsignedNumber
  split
  · next failed =>
    rw [integer] at failed
    cases failed
  · next found =>
    obtain rfl := Option.some.inj (integer.symm.trans found)
    split
    · next failed =>
      rw [fraction] at failed
      cases failed
    · next found =>
      obtain rfl := Option.some.inj (fraction.symm.trans found)
      split
      · next failed =>
        rw [exponent] at failed
        cases failed
      · next found =>
        obtain rfl := Option.some.inj (exponent.symm.trans found)
        simp [plain, value]

/-! ## Values -/

/-- The text is read as the value, in front of anything that does not go on with a number. -/
def Spells (text : String) (json : Json) : Prop :=
  ∀ rest, Ends rest → plain (value (text.toList ++ rest)) = some (json, rest)

theorem nextChar_cons {c : Char} (visible : isSpace c = false) (rest : List Char) :
    nextChar (c :: rest) = some ⟨c, rest, Nat.lt_succ_self _⟩ := by
  rw [nextChar, if_neg (by simp [visible])]

theorem spells_number (n : Nat) : Spells (toString n) (.number (some n)) := by
  intro rest ends
  have number := plain_unsignedNumber n ends
  have written : (toString n).toList = Nat.toDigits 10 n := by
    simp [toString, Nat.repr_eq_ofList_toDigits]
  obtain ⟨c, more, eq, -⟩ := toDigits_cons n
  have digit : c.isDigit = true := isDigit_of_mem_toDigits c (by rw [eq]; exact List.mem_cons_self)
  have visible : isSpace c = false := by
    rw [isSpace, ← Bool.not_eq_true]
    simp only [Bool.or_eq_true, beq_iff_eq]
    rintro (((rfl | rfl) | rfl) | rfl) <;> cases digit
  rw [written]
  rw [eq, List.cons_append] at number ⊢
  obtain ⟨_, read⟩ := eq_some_of_plain number
  rw [value, nextChar_cons visible, Option.bind_eq_bind, Option.bind_some]
  split
  case h_7 same =>
    obtain ⟨rfl, rfl⟩ := Reading.mk.inj same
    rw [signedNumber, read]
    · rfl
    · intro _ same
      rw [(List.cons.inj same).1] at digit
      cases digit
  all_goals
    next same =>
      obtain ⟨rfl, -⟩ := Reading.mk.inj same
      cases digit

theorem spells_literal (literal : Literal) : Spells literal.text (.string literal.string?) := by
  intro rest _
  have body := literal.spells.plain_stringBody rest
  obtain ⟨_, found⟩ := eq_some_of_plain body
  rw [literal.toList_text, value, nextChar_cons (by decide), Option.bind_eq_bind, Option.bind_some]
  split
  case h_4 same =>
    obtain ⟨-, rfl⟩ := Reading.mk.inj same
    rw [found]
    rfl
  case h_7 different _ _ same =>
    exact absurd (Reading.mk.inj same).1.symm different
  all_goals
    next same => exact absurd (Reading.mk.inj same).1 (by decide)

/-! ## Objects -/

/-- The fields up to the closing brace, of which there is at least one. -/
def readFields (text : List Char) : Option (List (Option String × Json) × List Char) :=
  plain (field text) >>= fun (first, rest) =>
    plain (furtherFields rest) >>= fun (further, rest) => some (first :: further, rest)

/-- Behind an opening brace there are no fields, or one at least. -/
theorem plain_value_brace (text : List Char) :
    (∀ rest shorter, nextChar text = some ⟨'\x7d', rest, shorter⟩ →
      plain (value ('\x7b' :: text)) = some (.object [], rest)) ∧
    ((∀ rest shorter, nextChar text ≠ some ⟨'\x7d', rest, shorter⟩) →
      plain (value ('\x7b' :: text)) =
        readFields text >>= fun (fields, rest) => some (.object fields, rest)) := by
  rw [value, nextChar_cons (by decide), Option.bind_eq_bind, Option.bind_some]
  split
  case h_6 same =>
    obtain ⟨-, rfl⟩ := Reading.mk.inj same
    refine ⟨fun rest shorter closed => ?_, fun unclosed => ?_⟩
    · rw [closed]
      rfl
    · split
      · next closed => exact absurd closed (unclosed _ _)
      · rw [readFields, bind_assoc]
        refine plain_bind fun first => ?_
        rw [bind_assoc]
        exact plain_bind fun further => rfl
  case h_7 different same =>
    exact absurd (Reading.mk.inj same).1.symm different
  all_goals
    next same => exact absurd (Reading.mk.inj same).1 (by decide)

theorem plain_value_object {text : List Char} {fields : List (Option String × Json)}
    {rest : List Char} (h : readFields text = some (fields, rest)) :
    plain (value ('\x7b' :: text)) = some (.object fields, rest) := by
  rw [(plain_value_brace text).2, h]
  · rfl
  · intro after shorter closed
    rw [readFields, field, closed] at h
    cases h

theorem plain_value_emptyObject (rest : List Char) :
    plain (value ('\x7b' :: '\x7d' :: rest)) = some (.object [], rest) :=
  (plain_value_brace ('\x7d' :: rest)).1 rest _ (nextChar_cons (by decide) rest)

theorem plain_furtherFields_comma (text : List Char) :
    plain (furtherFields (',' :: text)) = readFields text := by
  rw [furtherFields, nextChar_cons (by decide), Option.bind_eq_bind, Option.bind_some]
  split
  · next same => exact absurd (Reading.mk.inj same).1 (by decide)
  · next same =>
    obtain ⟨-, rfl⟩ := Reading.mk.inj same
    refine plain_bind fun first => ?_
    exact plain_bind fun further => rfl
  · next _ different => exact (different _ _ rfl).elim

theorem plain_furtherFields_close (rest : List Char) :
    plain (furtherFields ('\x7d' :: rest)) = some ([], rest) := by
  rw [furtherFields, nextChar_cons (by decide), Option.bind_eq_bind, Option.bind_some]
  split
  · next same =>
    obtain ⟨-, rfl⟩ := Reading.mk.inj same
    rfl
  · next same => exact absurd (Reading.mk.inj same).1 (by decide)
  · next different _ => exact (different _ _ rfl).elim

/-- A field is a literal for its name and a text for its value. -/
inductive SpellsField : String → Option String × Json → Prop where
  | mk (name : Literal) {text : String} {json : Json} (spells : Spells text json) :
      SpellsField (name.text ++ ":" ++ text) (name.string?, json)

theorem SpellsField.plain_field {text : String} {named : Option String × Json}
    (h : SpellsField text named) {rest : List Char} (ends : Ends rest) :
    plain (field (text.toList ++ rest)) = some (named, rest) := by
  obtain @⟨name, text, json, spells⟩ := h
  have body := name.spells.plain_stringBody (':' :: (text.toList ++ rest))
  have inner := spells rest ends
  have written : (name.text ++ ":" ++ text).toList ++ rest =
      '"' :: (name.body ++ '"' :: ':' :: (text.toList ++ rest)) := by
    simp [Literal.text]
  rw [written, field, nextChar_cons (by decide), Option.bind_eq_bind, Option.bind_some]
  split
  · next same =>
    obtain ⟨-, rfl⟩ := Reading.mk.inj same
    obtain ⟨_, found⟩ := eq_some_of_plain body
    rw [found, Option.bind_eq_bind, Option.bind_some]
    simp only
    rw [nextChar_cons (by decide), Option.bind_eq_bind, Option.bind_some]
    split
    · next same =>
      obtain ⟨-, rfl⟩ := Reading.mk.inj same
      obtain ⟨_, found⟩ := eq_some_of_plain inner
      rw [found, Option.bind_eq_bind, Option.bind_some]
      rfl
    · next different => exact (different _ _ rfl).elim
  · next different => exact (different _ _ rfl).elim

def objectText (fields : List String) : String :=
  "\x7b" ++ ",".intercalate fields ++ "\x7d"

theorem toList_intercalate_cons (text : String) {texts : List String} (nonempty : texts ≠ [])
    (rest : List Char) :
    (",".intercalate (text :: texts)).toList ++ rest =
      text.toList ++ ',' :: ((",".intercalate texts).toList ++ rest) := by
  rw [String.intercalate_cons_of_ne_nil nonempty]
  simp

theorem readFields_of_spells {texts : List String} {fields : List (Option String × Json)}
    (h : List.Forall₂ SpellsField texts fields) (nonempty : texts ≠ []) (rest : List Char) :
    readFields ((",".intercalate texts).toList ++ '\x7d' :: rest) = some (fields, rest) := by
  induction h with
  | nil => exact absurd rfl nonempty
  | @cons text field texts fields first others ih =>
    cases others with
    | nil =>
      rw [String.intercalate_singleton, readFields,
        first.plain_field (show Ends ('\x7d' :: rest) from rfl), Option.bind_eq_bind,
        Option.bind_some]
      simp only [plain_furtherFields_close]
      rfl
    | cons second others =>
      have more := ih (List.cons_ne_nil _ _)
      rw [toList_intercalate_cons text (List.cons_ne_nil _ _), readFields,
        first.plain_field (show Ends (',' :: _) from rfl), Option.bind_eq_bind, Option.bind_some]
      simp only [plain_furtherFields_comma, more]
      rfl

theorem spells_objectText {texts : List String} {fields : List (Option String × Json)}
    (h : List.Forall₂ SpellsField texts fields) : Spells (objectText texts) (.object fields) := by
  intro rest _
  have written : (objectText texts).toList ++ rest =
      '\x7b' :: ((",".intercalate texts).toList ++ '\x7d' :: rest) := by
    simp [objectText]
  rw [written]
  cases h with
  | nil => exact plain_value_emptyObject rest
  | cons first others =>
    exact plain_value_object
      (readFields_of_spells (.cons first others) (List.cons_ne_nil _ _) rest)

theorem spells_objectText_map {ι : Type} {text : ι → String} {field : ι → Option String × Json}
    {items : List ι} (h : ∀ item ∈ items, SpellsField (text item) (field item)) :
    Spells (objectText (items.map text)) (.object (items.map field)) := by
  refine spells_objectText ?_
  rw [List.forall₂_map_left_iff, List.forall₂_map_right_iff, List.forall₂_same]
  exact h

/-- A whole text that is read as a value. -/
theorem Spells.parse {text : String} {json : Json} (h : Spells text json) :
    Json.parse text = some json := by
  have read := h [] rfl
  rw [List.append_nil] at read
  obtain ⟨_, found⟩ := eq_some_of_plain read
  rw [Json.parse, found]
  rfl

end Json

end PredicateCalculus
