import PredicateCalculus.Expr.Parser
import PredicateCalculus.Token.Lexer

/-! # Expressions in a text

A text is an expression when it splits into tokens and those make up an expression. When it is not,
the error keeps the text, so that it can point at the place.

* `ParseError`: a text with a place where reading tokens stopped, or with a fault among its tokens.
* `ParseError.span`, `ParseError.caret`, `ParseError.render`: the place in bytes, the line that
  marks it, and the whole report.
* `Expr.parse`: the expression in a text.
-/

set_option autoImplicit false

namespace PredicateCalculus

inductive ParseError where
  | unreadable (source : String) (stop : Lexer.Stop)
  | malformed (source : String) (fault : Fault)
  deriving Repr

namespace ParseError

def source : ParseError → String
  | .unreadable source _ => source
  | .malformed source _ => source

def message : ParseError → String
  | .unreadable _ stop => "Cannot tokenize input starting at: " ++ String.ofList stop.remaining
  | .malformed _ fault => fault.message

/-- The offending token, when the text could be split into tokens. -/
def token? : ParseError → Option Token
  | .unreadable _ _ => none
  | .malformed _ fault => some fault.token

def label : ParseError → String
  | .unreadable _ _ => "unrecognized input"
  | .malformed _ _ => "here"

def help : ParseError → Option String
  | .unreadable _ _ =>
    some ("Identifiers are ASCII letters only; "
      ++ "symbols are ^ v -> ~ == != ( ) . , and their word forms")
  | .malformed _ _ => none

/-- The bytes of a token's lexeme; for the end of the text, those of its last character. -/
def tokenSpan (source : List Char) (token : Token) : Text.Span :=
  match token.offset with
  | some offset => ⟨Text.bytePosition source offset, max 1 (Text.byteSize token.lexeme.toList)⟩
  | none => Text.lastSpan source

def span : ParseError → Text.Span
  | .unreadable source stop =>
    ⟨Text.bytePosition source.toList stop.offset, Text.byteSize (stop.remaining.take 1)⟩
  | .malformed source fault => tokenSpan source.toList fault.token

/-- The end of the text is marked just behind its last character. -/
def caret : ParseError → String
  | .unreadable _ stop => Text.underline stop.offset 1
  | .malformed source fault =>
    match fault.token.offset with
    | some _ => fault.token.underline
    | none => Text.underline source.toList.length 1

def render (error : ParseError) : String :=
  error.source ++ "\n" ++ error.caret ++ "\nParseError: " ++ error.message

end ParseError

namespace Expr

def parse (source : String) : Except ParseError Expr :=
  match Lexer.tokenize source with
  | .error stop => .error (.unreadable source stop)
  | .ok tokens =>
    match Parser.whole tokens with
    | .error fault => .error (.malformed source fault)
    | .ok e => .ok e

end Expr

end PredicateCalculus
