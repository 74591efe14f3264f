import PredicateCalculus.Expr.Printer
import PredicateCalculus.Proofs.RoundTrip.Built
import PredicateCalculus.Proofs.Token.Decomposition

/-! # The tokens of a written form

A written form splits into the tokens that it was put together from. Words stay apart because a
blank or a bracket follows every one of them, and symbols do since no spelling begins another one.

* `Lexer.SplitsInto`: the kinds of the tokens in a text.
* `Lexer.Spells`: a text adds tokens of certain kinds to any text that does not go on with a letter.
* `Expr.spelling`: the kinds of tokens in the written form of a tree.
* `Expr.Usual.spells`: the written form of a tree with the usual tokens spells those.
-/

set_option autoImplicit false

namespace PredicateCalculus

namespace Lexer

/-! ## Splitting a text -/

def SplitsInto (text : List Char) (kinds : List TokenKind) : Prop :=
  ∀ offset, ∃ tokens, scan offset text = ⟨tokens, none⟩ ∧ tokens.map Token.kind = kinds

theorem splitsInto_nil : SplitsInto [] [] :=
  fun offset => ⟨[], by rw [scan], rfl⟩

theorem SplitsInto.tokenize {source : String} {kinds : List TokenKind}
    (h : SplitsInto source.toList kinds) :
    ∃ tokens, Lexer.tokenize source = .ok tokens ∧ tokens.map Token.kind = kinds := by
  obtain ⟨tokens, scanned, eq⟩ := h 0
  exact ⟨tokens, by rw [Lexer.tokenize, scanned]; rfl, eq⟩

section

variable {text : List Char} {kinds : List TokenKind}

theorem SplitsInto.skip {c : Char} (h : SplitsInto text kinds) (blank : Text.isBlank c = true) :
    SplitsInto (c :: text) kinds := by
  intro offset
  obtain ⟨tokens, scanned, eq⟩ := h (offset + 1)
  exact ⟨tokens, by rw [scan, if_pos blank, scanned], eq⟩

theorem SplitsInto.blank (h : SplitsInto text kinds) : SplitsInto (' ' :: text) kinds :=
  h.skip (by decide)

theorem SplitsInto.front {kind : TokenKind} {lexeme : String} (h : SplitsInto text kinds)
    (front : Front text kind lexeme) : SplitsInto (lexeme.toList ++ text) (kind :: kinds) := by
  intro offset
  obtain ⟨tokens, scanned, eq⟩ := h (offset + lexeme.length)
  refine ⟨⟨kind, lexeme, some offset⟩ :: tokens, ?_, by rw [List.map_cons, eq]⟩
  rw [scan_token front, scanned]

theorem SplitsInto.spelled {symbol : Symbol} {spelling : String} (h : SplitsInto text kinds)
    (listed : (symbol, spelling) ∈ Symbol.table) :
    SplitsInto (spelling.toList ++ text) (.symbol symbol :: kinds) :=
  h.front (front_of_listed listed text)

theorem SplitsInto.mark (h : SplitsInto text kinds) (symbol : Symbol)
    (written : symbol ≠ .endOfText) :
    SplitsInto (symbol.name.toList ++ text) (.symbol symbol :: kinds) :=
  h.spelled (Symbol.mem_table.mpr (Symbol.name_mem_spellings written))

theorem SplitsInto.name (name : Name) (h : SplitsInto text kinds) (separated : Separated text) :
    SplitsInto (name.token.text.toList ++ text) (name.token.kind :: kinds) := by
  rw [name.isIdentifier]
  exact h.front (front_of_isName name.isName separated)

end

def Spells (text : String) (kinds : List TokenKind) : Prop :=
  ∀ (rest : List Char) (more : List TokenKind), Separated rest → SplitsInto rest more →
    SplitsInto (text.toList ++ rest) (kinds ++ more)

end Lexer

/-! ## Spellings of trees -/

namespace Expr

open Lexer

def bracketedKinds (brackets : Bool) (kinds : List TokenKind) : List TokenKind :=
  if brackets then .symbol .leftParen :: (kinds ++ [.symbol .rightParen]) else kinds

mutual

def spelling : Expr → List TokenKind
  | .var token _ => [token.kind]
  | .app _ head arguments =>
    head.kind :: .symbol .leftParen :: (spellingAll arguments ++ [.symbol .rightParen])
  | .connect op token left right =>
    bracketedKinds (left.needsBrackets (.leftOf op)) (spelling left)
      ++ token.kind :: bracketedKinds (right.needsBrackets (.rightOf op)) (spelling right)
  | .compare _ token left right =>
    bracketedKinds (left.needsBrackets .elsewhere) (spelling left)
      ++ token.kind :: bracketedKinds (right.needsBrackets .elsewhere) (spelling right)
  | .neg _ operand =>
    .symbol .not :: bracketedKinds (operand.needsBrackets .elsewhere) (spelling operand)
  | .quant _ token bound body => token.kind :: bound.kind :: .symbol .dot :: spelling body

def spellingAll : List Expr → List TokenKind
  | [] => []
  | [e] => bracketedKinds (e.needsBrackets .elsewhere) (spelling e)
  | e :: rest =>
    bracketedKinds (e.needsBrackets .elsewhere) (spelling e)
      ++ .symbol .comma :: spellingAll rest

end

theorem spells_bracketed {text : String} {kinds : List TokenKind} (h : Spells text kinds)
    (brackets : Bool) : Spells (bracketed brackets text) (bracketedKinds brackets kinds) := by
  cases brackets with
  | false => exact h
  | true =>
    intro rest more separated splits
    have closing : SplitsInto (')' :: rest) (.symbol .rightParen :: more) :=
      splits.mark .rightParen (by decide)
    have inner : SplitsInto (text.toList ++ ')' :: rest)
        (kinds ++ .symbol .rightParen :: more) := h _ _ rfl closing
    have opening := inner.mark .leftParen (by decide)
    simpa [bracketed, bracketedKinds, Symbol.name] using opening

/-- An infix form: a sign between blanks, with an operand on either side. -/
theorem spells_infix {left right : String} {leftKinds rightKinds : List TokenKind}
    {symbol : Symbol} (sign : Mark symbol) (written : symbol ≠ .endOfText)
    (first : Spells left leftKinds) (second : Spells right rightKinds) :
    Spells (left ++ " " ++ sign.token.text ++ " " ++ right)
      (leftKinds ++ sign.token.kind :: rightKinds) := by
  intro rest more separated splits
  have signText : sign.token.text = symbol.name := by rw [Token.text, sign.isSymbol]
  have behind := (second _ _ separated splits).blank.mark _ written
  have whole := first (' ' :: (symbol.name.toList ++ ' ' :: (right.toList ++ rest))) _ rfl
    behind.blank
  rw [signText, sign.isSymbol]
  simpa using whole

theorem spells_printAll {arguments : List Expr} (h : ∀ e ∈ arguments, Spells e.print e.spelling) :
    Spells (printAll arguments) (spellingAll arguments) := by
  induction arguments with
  | nil => exact fun _ _ _ splits => splits
  | cons e rest ih =>
    rw [List.forall_mem_cons] at h
    have first := spells_bracketed h.1 (e.needsBrackets .elsewhere)
    cases rest with
    | nil => exact first
    | cons e' rest' =>
      intro rest more separated splits
      have others := (ih h.2 _ _ separated splits).blank.mark .comma (by decide)
      have whole :=
        first (',' :: ' ' :: ((printAll (e' :: rest')).toList ++ rest)) _ rfl others
      simpa [printAll, spellingAll, Symbol.name] using whole

theorem Usual.spells {e : Expr} (h : e.Usual) : Spells e.print e.spelling := by
  induction h with
  | var name reference => exact fun _ _ separated splits => splits.name name separated
  | app kind head suits arguments each ih =>
    intro rest more separated splits
    have closing := splits.mark .rightParen (by decide)
    have inner := spells_printAll ih (')' :: rest) _ rfl closing
    have opening := inner.mark .leftParen (by decide)
    have whole := opening.name head rfl
    simpa [print, spelling, Symbol.name] using whole
  | connect op sign left right _ _ first second =>
    have written : op.symbol ≠ .endOfText := by cases op <;> decide
    exact spells_infix sign written (spells_bracketed first _) (spells_bracketed second _)
  | compare op sign left right _ _ first second =>
    have written : op.symbol ≠ .endOfText := by cases op <;> decide
    exact spells_infix sign written (spells_bracketed first _) (spells_bracketed second _)
  | neg sign operand _ ih =>
    intro rest more separated splits
    have inner := spells_bracketed ih (operand.needsBrackets .elsewhere) _ _ separated splits
    have whole := inner.mark .not (by decide)
    simpa [print, spelling, Symbol.name] using whole
  | quant quantifier sign bound body _ ih =>
    intro rest more separated splits
    have written : quantifier.symbol ≠ .endOfText := by cases quantifier <;> decide
    have signText : sign.token.text = quantifier.symbol.name := by rw [Token.text, sign.isSymbol]
    have dotted := (ih _ _ separated splits).blank.mark .dot (by decide)
    have named := dotted.name bound rfl
    have whole := named.blank.mark _ written
    simpa [print, spelling, signText, sign.isSymbol, Symbol.name] using whole

end Expr

end PredicateCalculus
