import PredicateCalculus.Text.Blank
import PredicateCalculus.Token

/-! # From text to tokens

Between tokens blanks are skipped. A token is the first spelling of `Symbol.table` that the text
begins with; where none does, it is the longest run of letters, an identifier. Where there is
neither, reading stops.

* `tokenAt`: the token at the front of a text.
* `scan`: all tokens up to the end or up to the stop, and the stop.
* `tokenize`: all tokens, or the stop.
-/

set_option autoImplicit false

namespace PredicateCalculus.Lexer

/-- The column where reading stopped, and the text from there on. -/
structure Stop where
  offset : Nat
  remaining : List Char
  deriving Repr, DecidableEq

/-- The tokens read, and where reading stopped if it did not reach the end. -/
structure Scan where
  tokens : List Token
  stop : Option Stop
  deriving Repr

def symbolAt (text : List Char) : Option (Symbol × String) :=
  Symbol.table.find? fun (_, spelling) => spelling.toList.isPrefixOf text

def tokenAt (offset : Nat) (text : List Char) : Option Token :=
  match symbolAt text with
  | some (symbol, spelling) => some ⟨.symbol symbol, spelling, some offset⟩
  | none =>
    match text.takeWhile Char.isAlpha with
    | [] => none
    | letters => some ⟨.identifier (String.ofList letters), String.ofList letters, some offset⟩

theorem lexeme_pos {offset : Nat} {text : List Char} {token : Token}
    (h : tokenAt offset text = some token) : 0 < token.lexeme.length := by
  unfold tokenAt at h
  split at h
  · next symbol spelling found =>
    obtain rfl := Option.some.inj h
    have nonempty := Symbol.spelling_ne_nil (List.mem_of_find?_eq_some found)
    rw [← String.length_toList]
    exact List.length_pos_iff.mpr nonempty
  · split at h
    · exact absurd h (by simp)
    · next letters nonempty =>
      obtain rfl := Option.some.inj h
      simpa [List.length_pos_iff] using nonempty

def scan (offset : Nat) (text : List Char) : Scan :=
  match text with
  | [] => ⟨[], none⟩
  | c :: rest =>
    if Text.isBlank c then
      scan (offset + 1) rest
    else
      match _h : tokenAt offset (c :: rest) with
      | none => ⟨[], some ⟨offset, c :: rest⟩⟩
      | some token =>
        let width := token.lexeme.length
        let following := scan (offset + width) ((c :: rest).drop width)
        ⟨token :: following.tokens, following.stop⟩
termination_by text.length
decreasing_by
  · simp
  · have := lexeme_pos _h
    simp only [List.length_drop, List.length_cons]
    omega

def Scan.toExcept (s : Scan) : Except Stop (List Token) :=
  match s.stop with
  | none => .ok s.tokens
  | some stop => .error stop

def tokenize (text : String) : Except Stop (List Token) :=
  (scan 0 text.toList).toExcept

end PredicateCalculus.Lexer
