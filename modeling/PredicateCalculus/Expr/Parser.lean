import PredicateCalculus.Expr.Binding
import PredicateCalculus.Reading

/-! # Reading expressions

The grammar, loosest construct first:

    quantified  := (forall | exists) NAME . quantified | implication
    implication := chain (-> implication)?
    chain       := comparison (^ comparison)* | comparison (v comparison)*
    comparison  := term ((== | !=) term)?
    term        := ( quantified ) | NAME ( arguments? ) | NAME | ~ term
    arguments   := term (, term)*

One token decides at every point how to go on. The name in front of arguments tells a function,
written in lower case, from a predicate, written in upper case.

* `Fault`: why reading stopped, and the tokens from the offending one on.
* `Parser.quantified` and the functions it calls, one for each construct.
* `Parser.whole`: the expression that a list of tokens makes up.
-/

set_option autoImplicit false

namespace PredicateCalculus

namespace HeadKind

def isFunctionName (name : String) : Bool :=
  !name.isEmpty && name.toList.all fun c => c.isLower || c.isDigit

def isPredicateName (name : String) : Bool :=
  !name.isEmpty && name.toList.all Char.isUpper

def ofName? (name : String) : Option HeadKind :=
  if isFunctionName name then some .function
  else if isPredicateName name then some .predicate
  else none

end HeadKind

namespace Quantifier

def ofSymbol? : Symbol → Option Quantifier
  | .forAll => some .universal
  | .forSome => some .existential
  | _ => none

end Quantifier

namespace Comparison

def ofSymbol? : Symbol → Option Comparison
  | .equal => some .equal
  | .unequal => some .unequal
  | _ => none

end Comparison

namespace Connective

/-- The connectives that make chains. -/
def ofChainSymbol? : Symbol → Option Connective
  | .and => some .and
  | .or => some .or
  | _ => none

end Connective

inductive FaultCause where
  | termExpected
  | identifierExpected
  | symbolExpected (symbol : Symbol)
  | mixedChain
  | unsuitableHead
  | trailing
  deriving Repr, DecidableEq

/-- The offending token is the first of `rest`; when there is none, the text ended too early. -/
structure Fault where
  cause : FaultCause
  rest : List Token
  deriving Repr

namespace Fault

def token (fault : Fault) : Token :=
  fault.rest.headD .endOfText

def message (fault : Fault) : String :=
  match fault.cause with
  | .termExpected => "Expected term, got " ++ fault.token.display
  | .identifierExpected => "Expected identifier, got " ++ fault.token.display
  | .symbolExpected symbol => "Expected '" ++ symbol.name ++ "', got " ++ fault.token.display
  | .mixedChain => "Operators 'and' and 'or' should be explicitly grouped"
  | .unsuitableHead =>
    "Identifier '" ++ fault.token.text ++ "' does not match function or predicate map"
  | .trailing => "Unexpected token: " ++ fault.token.display

end Fault

namespace Parser

/-- What the next token is, if it is a symbol. -/
def symbolAhead (ts : List Token) : Option Symbol :=
  ts.head?.bind Token.symbol?

def identifier (ts : List Token) : Except Fault (Reading Token ts.length Token) :=
  match ts with
  | [] => .error ⟨.identifierExpected, []⟩
  | t :: rest =>
    if t.isIdentifier then .ok ⟨t, rest, by simp⟩ else .error ⟨.identifierExpected, t :: rest⟩

def symbol (expected : Symbol) (ts : List Token) : Except Fault (Reading Token ts.length Token) :=
  match ts with
  | [] => .error ⟨.symbolExpected expected, []⟩
  | t :: rest =>
    if t.symbol? = some expected then .ok ⟨t, rest, by simp⟩
    else .error ⟨.symbolExpected expected, t :: rest⟩

mutual

def quantified (ts : List Token) : Except Fault (Reading Token ts.length Expr) :=
  match ts with
  | [] => implication []
  | t :: ts =>
    match t.symbol?.bind Quantifier.ofSymbol? with
    | none => implication (t :: ts)
    | some quantifier => do
      let ⟨bound, afterName, _⟩ ← identifier ts
      let ⟨_, afterDot, _⟩ ← symbol .dot afterName
      let ⟨body, rest, _⟩ ← quantified afterDot
      return ⟨.quantify quantifier t bound body, rest, by simp only [List.length_cons]; omega⟩
termination_by 6 * ts.length + 5
decreasing_by all_goals simp only [List.length_cons, List.length_nil] at *; omega

def implication (ts : List Token) : Except Fault (Reading Token ts.length Expr) := do
  match ← chain ts with
  | ⟨left, [], _⟩ => return ⟨left, [], by assumption⟩
  | ⟨left, t :: afterOp, _⟩ =>
    if t.symbol? = some .implies then
      let ⟨right, rest, _⟩ ← implication afterOp
      return ⟨.connect .implies t left right, rest, by simp only [List.length_cons] at *; omega⟩
    else
      return ⟨left, t :: afterOp, by assumption⟩
termination_by 6 * ts.length + 4
decreasing_by
  · omega
  · simp only [List.length_cons] at *; omega

def chain (ts : List Token) : Except Fault (Reading Token ts.length Expr) := do
  let ⟨first, rest, _⟩ ← comparison ts
  let links ← links none first rest
  return links.relax (by omega)
termination_by 6 * ts.length + 3
decreasing_by all_goals omega

/-- The further links of a chain whose links so far make up `left`, all joined by `joined`. -/
def links (joined : Option Connective) (left : Expr) (ts : List Token) :
    Except Fault (Reading Token (ts.length + 1) Expr) :=
  match ts with
  | [] => return ⟨left, [], by omega⟩
  | t :: afterOp =>
    match t.symbol?.bind Connective.ofChainSymbol? with
    | none => return ⟨left, t :: afterOp, by omega⟩
    | some op =>
      if joined.any (· != op) then
        throw ⟨.mixedChain, t :: afterOp⟩
      else do
        let ⟨right, rest, _⟩ ← comparison afterOp
        let links ← links (some op) (.connect op t left right) rest
        return links.relax (by simp only [List.length_cons]; omega)
termination_by 6 * ts.length + 3
decreasing_by all_goals simp only [List.length_cons] at *; omega

def comparison (ts : List Token) : Except Fault (Reading Token ts.length Expr) := do
  match ← term ts with
  | ⟨left, [], _⟩ => return ⟨left, [], by assumption⟩
  | ⟨left, t :: afterOp, _⟩ =>
    match t.symbol?.bind Comparison.ofSymbol? with
    | none => return ⟨left, t :: afterOp, by assumption⟩
    | some op =>
      let ⟨right, rest, _⟩ ← term afterOp
      return ⟨.compare op t left right, rest, by simp only [List.length_cons] at *; omega⟩
termination_by 6 * ts.length + 2
decreasing_by
  · omega
  · simp only [List.length_cons] at *; omega

def term (ts : List Token) : Except Fault (Reading Token ts.length Expr) :=
  match ts with
  | [] => .error ⟨.termExpected, []⟩
  | t :: ts =>
    match t.kind with
    | .symbol .leftParen => do
      let ⟨e, afterBody, _⟩ ← quantified ts
      let ⟨_, rest, _⟩ ← symbol .rightParen afterBody
      return ⟨e, rest, by simp only [List.length_cons]; omega⟩
    | .symbol .not => do
      let ⟨operand, rest, _⟩ ← term ts
      return ⟨.neg t operand, rest, by simp only [List.length_cons]; omega⟩
    | .symbol _ => .error ⟨.termExpected, t :: ts⟩
    | .identifier name =>
      match ts with
      | [] => return ⟨.named t, [], by simp⟩
      | u :: afterParen =>
        if u.symbol? = some .leftParen then
          match HeadKind.ofName? name with
          | none => .error ⟨.unsuitableHead, t :: u :: afterParen⟩
          | some kind => do
            let ⟨args, afterArgs, _⟩ ← arguments afterParen
            let ⟨_, rest, _⟩ ← symbol .rightParen afterArgs
            return ⟨.app kind t args, rest, by simp only [List.length_cons]; omega⟩
        else
          return ⟨.named t, u :: afterParen, by simp⟩
termination_by 6 * ts.length + 1
decreasing_by all_goals simp only [List.length_cons] at *; omega

/-- The arguments up to the closing bracket, which is not used up. -/
def arguments (ts : List Token) : Except Fault (Reading Token (ts.length + 1) (List Expr)) :=
  if symbolAhead ts = some .rightParen then
    return ⟨[], ts, by omega⟩
  else do
    let ⟨first, rest, _⟩ ← term ts
    let following ← furtherArguments rest
    return (following.map (first :: ·)).relax (by omega)
termination_by 6 * ts.length + 2
decreasing_by all_goals omega

def furtherArguments (ts : List Token) :
    Except Fault (Reading Token (ts.length + 1) (List Expr)) :=
  match ts with
  | [] => return ⟨[], [], by omega⟩
  | t :: afterComma =>
    if t.symbol? = some .comma then do
      let ⟨next, rest, _⟩ ← term afterComma
      let following ← furtherArguments rest
      return (following.map (next :: ·)).relax (by simp only [List.length_cons]; omega)
    else
      return ⟨[], t :: afterComma, by omega⟩
termination_by 6 * ts.length + 2
decreasing_by all_goals simp only [List.length_cons] at *; omega

end

def whole (ts : List Token) : Except Fault Expr := do
  let ⟨e, rest, _⟩ ← quantified ts
  if rest.isEmpty then
    return e
  else
    throw ⟨.trailing, rest⟩

end Parser

end PredicateCalculus
