/-! # Symbols

The fixed vocabulary of formulas. A symbol may be written in several ways; its name is the first.

* `Symbol`: the vocabulary, with `endOfText` for the place after the last token.
* `Symbol.spellings`: the ways to write a symbol.
* `Symbol.table`: every spelling with its symbol, in the order in which a text is matched.
-/

set_option autoImplicit false

namespace PredicateCalculus

inductive Symbol where
  | and
  | or
  | implies
  | not
  | forAll
  | forSome
  | equal
  | unequal
  | leftParen
  | rightParen
  | dot
  | comma
  | endOfText
  deriving Repr, DecidableEq

namespace Symbol

def name : Symbol → String
  | .and => "^"
  | .or => "v"
  | .implies => "->"
  | .not => "~"
  | .forAll => "forall"
  | .forSome => "exists"
  | .equal => "=="
  | .unequal => "!="
  | .leftParen => "("
  | .rightParen => ")"
  | .dot => "."
  | .comma => ","
  | .endOfText => "EOF"

/-- The end of the text is no part of the text and cannot be written. -/
def spellings : Symbol → List String
  | .and => ["^", "and", "&"]
  | .or => ["v", "or", "|"]
  | .implies => ["->", "implies"]
  | .not => ["~", "not"]
  | .forAll => ["forall", "A"]
  | .forSome => ["exists", "E"]
  | .equal => ["==", "equals"]
  | .unequal => ["!=", "=/="]
  | .leftParen => ["("]
  | .rightParen => [")"]
  | .dot => ["."]
  | .comma => [","]
  | .endOfText => []

def all : List Symbol :=
  [.and, .or, .implies, .not, .forAll, .forSome, .equal, .unequal, .leftParen, .rightParen, .dot,
    .comma, .endOfText]

def table : List (Symbol × String) :=
  all.flatMap fun symbol => symbol.spellings.map fun spelling => (symbol, spelling)

/-! ## The table -/

theorem mem_all (symbol : Symbol) : symbol ∈ all := by
  cases symbol <;> decide

theorem mem_table {symbol : Symbol} {spelling : String} :
    (symbol, spelling) ∈ table ↔ spelling ∈ symbol.spellings := by
  simp [table, mem_all]

theorem spelling_ne_nil {symbol : Symbol} {spelling : String}
    (h : (symbol, spelling) ∈ table) : spelling.toList ≠ [] := by
  have all_nonempty : ∀ entry ∈ table, entry.2.toList ≠ [] := by decide
  exact all_nonempty _ h

theorem name_mem_spellings {symbol : Symbol} (h : symbol ≠ .endOfText) :
    symbol.name ∈ symbol.spellings := by
  cases symbol <;> first | decide | exact absurd rfl h

end Symbol

end PredicateCalculus
