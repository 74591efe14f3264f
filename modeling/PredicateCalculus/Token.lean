import PredicateCalculus.Symbol
import PredicateCalculus.Text.Span

/-! # Tokens

A token is a symbol or an identifier, with the lexeme it was read from and the column of that
lexeme. A token that was not read from a text has no column.

* `Token.text`: a symbol's name, or the identifier.
* `Token.display`, `Token.underline`: how a token is quoted in a message, and marked under its line.

Two tokens are equal for `==` when they are the same symbol or the same identifier; how and where
they were written does not count.
-/

set_option autoImplicit false

namespace PredicateCalculus

inductive TokenKind where
  | symbol (symbol : Symbol)
  | identifier (name : String)
  deriving Repr, DecidableEq

structure Token where
  kind : TokenKind
  lexeme : String
  offset : Option Nat
  deriving Repr

namespace Token

instance : BEq Token := ⟨fun left right => left.kind == right.kind⟩

def ofSymbol (symbol : Symbol) : Token :=
  ⟨.symbol symbol, symbol.name, none⟩

def ofName (name : String) : Token :=
  ⟨.identifier name, name, none⟩

/-- What stands after the last token. -/
def endOfText : Token :=
  ofSymbol .endOfText

def text (token : Token) : String :=
  match token.kind with
  | .symbol symbol => symbol.name
  | .identifier name => name

def symbol? (token : Token) : Option Symbol :=
  match token.kind with
  | .symbol symbol => some symbol
  | .identifier _ => none

def isIdentifier (token : Token) : Bool :=
  match token.kind with
  | .symbol _ => false
  | .identifier _ => true

def isOneOf (token : Token) (symbols : List Symbol) : Bool :=
  match token.symbol? with
  | some symbol => symbols.contains symbol
  | none => false

def kindName (token : Token) : String :=
  match token.kind with
  | .symbol _ => "symbol"
  | .identifier _ => "identifier"

/-- A token without a column is shown in column `-1`. -/
def display (token : Token) : String :=
  let column := match token.offset with
    | some offset => toString offset
    | none => "-1"
  "'" ++ token.text ++ "' (" ++ token.kindName ++ ", " ++ column ++ ")"

/-- The line below the text that marks the lexeme; empty for a token without a column. -/
def underline (token : Token) : String :=
  match token.offset with
  | some offset => Text.underline offset (max 1 token.lexeme.length)
  | none => ""

/-! ## Equality of tokens -/

theorem beq_iff {left right : Token} : (left == right) = true ↔ left.kind = right.kind := by
  show (left.kind == right.kind) = true ↔ _
  exact beq_iff_eq

theorem text_eq_of_beq {left right : Token} (h : (left == right) = true) :
    left.text = right.text := by
  simp only [text, beq_iff.mp h]

end Token

end PredicateCalculus
