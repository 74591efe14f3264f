import PredicateCalculus.Token

/-! # Cursors

A cursor moves forward over a list of tokens. It may move past the last one, where it sees the end
of the text for ever.

* `Cursor.peek`, `Cursor.peekAt`: the token under the cursor, or some places after it.
* `Cursor.advance`: the cursor one place further.
-/

set_option autoImplicit false

namespace PredicateCalculus

structure Cursor where
  tokens : List Token
  position : Nat
  deriving Repr

namespace Cursor

def start (tokens : List Token) : Cursor :=
  ⟨tokens, 0⟩

def peekAt (cursor : Cursor) (distance : Nat) : Token :=
  cursor.tokens[cursor.position + distance]?.getD .endOfText

def peek (cursor : Cursor) : Token :=
  cursor.peekAt 0

def advance (cursor : Cursor) : Cursor :=
  { cursor with position := cursor.position + 1 }

end Cursor

end PredicateCalculus
