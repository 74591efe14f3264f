import PredicateCalculus.Text.Hidden

/-! # Quoted names

A name is shown between quotation marks, with escapes for quotation marks, backslashes and the
characters that would not be seen.

* `quoted`: the shown form of a name.
-/

set_option autoImplicit false

namespace PredicateCalculus.Text

def escaped (c : Char) : List Char :=
  match c with
  | '\x00' => ['\\', '0']
  | '\t' => ['\\', 't']
  | '\n' => ['\\', 'n']
  | '\r' => ['\\', 'r']
  | '"' => ['\\', '"']
  | '\\' => ['\\', '\\']
  | c =>
    if isHidden c then ['\\', 'u', '\x7b'] ++ Nat.toDigits 16 c.toNat ++ ['\x7d'] else [c]

def quoted (name : String) : String :=
  "\"" ++ String.ofList (name.toList.flatMap escaped) ++ "\""

end PredicateCalculus.Text
