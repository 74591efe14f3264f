/-! # Places in a text

Columns count characters; spans count the bytes of the text's UTF-8 form.

* `byteSize`: length in bytes.
* `bytePosition`: where the character in a given column starts.
* `Span`: a run of bytes; `lastSpan` is the one of the last character.
* `underline`: the line that marks some columns of the line above it.
-/

set_option autoImplicit false

namespace PredicateCalculus.Text

def byteSize : List Char → Nat
  | [] => 0
  | c :: text => c.utf8Size + byteSize text

/-- A column beyond the last character stands for the end of the text. -/
def bytePosition (text : List Char) (column : Nat) : Nat :=
  byteSize (text.take column)

structure Span where
  start : Nat
  length : Nat
  deriving Repr, DecidableEq

/-- In an empty text there is only the empty span at its start. -/
def lastSpan (text : List Char) : Span :=
  match text.getLast? with
  | none => ⟨0, 0⟩
  | some c => ⟨byteSize text.dropLast, c.utf8Size⟩

def underline (column width : Nat) : String :=
  String.ofList (List.replicate column ' ' ++ List.replicate width '^')

/-! ## Sizes of strings -/

theorem byteSize_ofList (text : List Char) :
    byteSize text = (String.ofList text).utf8ByteSize := by
  induction text with
  | nil => rfl
  | cons c text ih =>
    rw [byteSize, ih, ← List.singleton_append, String.ofList_append, String.utf8ByteSize_append,
      ← String.singleton_eq_ofList, String.utf8ByteSize_singleton]

theorem byteSize_toList (text : String) : byteSize text.toList = text.utf8ByteSize := by
  rw [byteSize_ofList, String.ofList_toList]

end PredicateCalculus.Text
