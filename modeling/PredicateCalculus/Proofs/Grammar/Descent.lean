import PredicateCalculus.Expr.ParseError
import PredicateCalculus.Proofs.Grammar.Steps
import PredicateCalculus.Token.Cursor

/-! # Reading with a cursor

The readers can be run on a cursor that stays on one list of tokens. It sees the end of the text for
ever once it is past the last token, so that no single step keeps it from moving on, and many calls
do not move it at all. Here every call and every round of a loop uses up one of a given number of
levels, and there is no outcome when they do not suffice.

* `Descent`: a reader that moves a cursor, and `Descent.quantified` and the functions that it calls,
  one round of each loop being a function of its own.
* `Descent.Proceeds`: a reader has an outcome, which is that of a reader of lists; it moves the
  cursor only forward, stays inside the list and gets at least to a given place.
* `Descent.Proceeds.bind`: one reader after another.
* `Descent.proceeds_symbol`, `Descent.proceeds_identifier`: single tokens.
* `Descent.readLink`, `Descent.readArgument`: the rounds of the loops on lists.
-/

set_option autoImplicit false

namespace PredicateCalculus

open PredicateCalculus.Parser

namespace Cursor

/-- The tokens from the cursor on. -/
def rest (cursor : Cursor) : List Token :=
  cursor.tokens.drop cursor.position

theorem peek_eq (cursor : Cursor) : cursor.peek = cursor.rest.headD .endOfText := by
  rw [peek, peekAt, rest, List.headD_eq_head?_getD, List.head?_drop, Nat.add_zero]

end Cursor

/-- A reader that moves a cursor. A fault leaves the cursor at the place it has got to. -/
abbrev Descent : Type → Type :=
  ExceptT Fault (StateT Cursor Option)

namespace Descent

/-! ## Readers on a cursor -/

section

variable {β : Type}

/-- No levels are left. -/
def tooDeep : Descent β :=
  fun _ => none

def peek : Descent Token :=
  return (← get).peek

def take : Descent Token :=
  modifyGet fun cursor => (cursor.peek, cursor.advance)

/-- A fault at the cursor, or at the first of some tokens that were taken just before. -/
def fail (cause : FaultCause) (taken : List Token) : Descent β := do
  throw ⟨cause, taken ++ (← get).rest⟩

end

def identifier : Descent Token := do
  if (← peek).isIdentifier then take else fail .identifierExpected []

def symbol (expected : Symbol) : Descent Token := do
  if (← peek).symbol? = some expected then take else fail (.symbolExpected expected) []

mutual

def quantified : Nat → Descent Expr
  | 0 => tooDeep
  | depth + 1 => do
    match (← peek).symbol?.bind Quantifier.ofSymbol? with
    | none => implication depth
    | some quantifier =>
      let op ← take
      let bound ← identifier
      let _ ← symbol .dot
      let body ← quantified depth
      return .quantify quantifier op bound body

def implication : Nat → Descent Expr
  | 0 => tooDeep
  | depth + 1 => do
    let left ← chain depth
    if (← peek).symbol? = some .implies then
      let op ← take
      let right ← implication depth
      return .connect .implies op left right
    else
      return left

def chain : Nat → Descent Expr
  | 0 => tooDeep
  | depth + 1 => do
    let first ← comparison depth
    links depth none first

def links : Nat → Option Connective → Expr → Descent Expr
  | 0, _, _ => tooDeep
  | depth + 1, joined, left => do
    match ← link depth joined left with
    | none => return left
    | some (op, longer) => links depth (some op) longer

/-- One round of a chain: the next connective, and the chain with one more link. -/
def link : Nat → Option Connective → Expr → Descent (Option (Connective × Expr))
  | 0, _, _ => tooDeep
  | depth + 1, joined, left => do
    match (← peek).symbol?.bind Connective.ofChainSymbol? with
    | none => return none
    | some op =>
      let token ← take
      if joined.any (· != op) then
        fail .mixedChain [token]
      else
        let right ← comparison depth
        return some (op, .connect op token left right)

def comparison : Nat → Descent Expr
  | 0 => tooDeep
  | depth + 1 => do
    let left ← term depth
    match (← peek).symbol?.bind Comparison.ofSymbol? with
    | none => return left
    | some op =>
      let token ← take
      let right ← term depth
      return .compare op token left right

def term : Nat → Descent Expr
  | 0 => tooDeep
  | depth + 1 => do
    match (← peek).kind with
    | .symbol .leftParen => bracketed depth
    | .symbol .not =>
      let op ← take
      let operand ← term depth
      return .neg op operand
    | .symbol _ => fail .termExpected []
    | .identifier _ =>
      let name ← take
      if (← peek).symbol? = some .leftParen then application depth name else return .named name

def bracketed : Nat → Descent Expr
  | 0 => tooDeep
  | depth + 1 => do
    let _ ← symbol .leftParen
    let e ← quantified depth
    let _ ← symbol .rightParen
    return e

/-- The name in front has been taken. -/
def application : Nat → Token → Descent Expr
  | 0, _ => tooDeep
  | depth + 1, name =>
    match HeadKind.ofName? name.text with
    | none => fail .unsuitableHead [name]
    | some kind => do
      let _ ← symbol .leftParen
      let args ← arguments depth
      let _ ← symbol .rightParen
      return .app kind name args

def arguments : Nat → Descent (List Expr)
  | 0 => tooDeep
  | depth + 1 => do
    if (← peek).symbol? = some .rightParen then
      return []
    else
      let first ← term depth
      let following ← furtherArguments depth
      return first :: following

def furtherArguments : Nat → Descent (List Expr)
  | 0 => tooDeep
  | depth + 1 => do
    match ← furtherArgument depth with
    | none => return []
    | some next =>
      let following ← furtherArguments depth
      return next :: following

/-- One round of the arguments behind the first. -/
def furtherArgument : Nat → Descent (Option Expr)
  | 0 => tooDeep
  | depth + 1 => do
    if (← peek).symbol? = some .comma then
      let _ ← take
      let next ← term depth
      return some next
    else
      return none

end

def whole (depth : Nat) : Descent Expr := do
  let e ← quantified depth
  if (← peek).symbol? = some .endOfText then return e else fail .trailing []

def parse (depth : Nat) (source : String) : Option (Except ParseError Expr) :=
  match Lexer.tokenize source with
  | .error stop => some (.error (.unreadable source stop))
  | .ok tokens =>
    (whole depth (Cursor.start tokens)).map fun (outcome, _) =>
      match outcome with
      | .error fault => .error (.malformed source fault)
      | .ok e => .ok e

/-! ## What a reader does to the cursor -/

section

variable {β γ : Type} {tokens : List Token} {goal : β → Nat} {goal' : γ → Nat} {position : Nat}

/-- Started at the position, the walk comes to an end inside the list and not in front of the
position, with what is read from the tokens that were left. When it succeeds, it gets at least to
the goal. Nothing moves a cursor back, so the end of the text is never taken on the way. -/
inductive Proceeds (tokens : List Token) (goal : β → Nat) (position : Nat) (walk : Descent β) :
    Except Fault (β × List Token) → Prop where
  | done (value : β) (finish : Nat)
      (ends : walk ⟨tokens, position⟩ = some (.ok value, ⟨tokens, finish⟩))
      (forward : position ≤ finish) (inside : finish ≤ tokens.length)
      (far : goal value ≤ finish) :
      Proceeds tokens goal position walk (.ok (value, tokens.drop finish))
  | failed (fault : Fault) (finish : Nat)
      (ends : walk ⟨tokens, position⟩ = some (.error fault, ⟨tokens, finish⟩))
      (forward : position ≤ finish) (inside : finish ≤ tokens.length) :
      Proceeds tokens goal position walk (.error fault)

theorem bind_of_ok {walk : Descent β} {next : β → Descent γ} {cursor finish : Cursor} {value : β}
    (h : walk cursor = some (.ok value, finish)) : (walk >>= next) cursor = next value finish := by
  show (walk cursor).bind _ = _
  rw [h]
  rfl

theorem bind_of_error {walk : Descent β} {next : β → Descent γ} {cursor finish : Cursor}
    {fault : Fault} (h : walk cursor = some (.error fault, finish)) :
    (walk >>= next) cursor = some (.error fault, finish) := by
  show (walk cursor).bind _ = _
  rw [h]
  rfl

theorem peek_eq (tokens : List Token) (position : Nat) :
    peek ⟨tokens, position⟩ =
      some (.ok ((tokens.drop position).headD .endOfText), ⟨tokens, position⟩) :=
  congrArg (fun token => some (Except.ok token, _)) (Cursor.peek_eq ⟨tokens, position⟩)

theorem take_eq (tokens : List Token) (position : Nat) :
    take ⟨tokens, position⟩ =
      some (.ok ((tokens.drop position).headD .endOfText), ⟨tokens, position + 1⟩) :=
  congrArg (fun token => some (Except.ok token, _)) (Cursor.peek_eq ⟨tokens, position⟩)

namespace Proceeds

/-- A walk that goes on as another one does from further on. -/
theorem of_later {walk next : Descent β} {read : Except Fault (β × List Token)} {middle : Nat}
    (h : Proceeds tokens goal middle next read) (forward : position ≤ middle)
    (same : walk ⟨tokens, position⟩ = next ⟨tokens, middle⟩) :
    Proceeds tokens goal position walk read := by
  cases h with
  | done value finish ends further inside far =>
    exact .done value finish (same.trans ends) (Nat.le_trans forward further) inside far
  | failed fault finish ends further inside =>
    exact .failed fault finish (same.trans ends) (Nat.le_trans forward further) inside

theorem weaken {walk : Descent β} {read : Except Fault (β × List Token)} {low : β → Nat}
    (h : Proceeds tokens goal position walk read) (le : ∀ value, low value ≤ goal value) :
    Proceeds tokens low position walk read := by
  cases h with
  | done value finish ends forward inside far =>
    exact .done value finish ends forward inside (Nat.le_trans (le value) far)
  | failed fault finish ends forward inside => exact .failed fault finish ends forward inside

theorem bind {walk : Descent β} {next : β → Descent γ} {read : Except Fault (β × List Token)}
    {readNext : β × List Token → Except Fault (γ × List Token)}
    (first : Proceeds tokens goal position walk read)
    (second : ∀ value middle, position ≤ middle → middle ≤ tokens.length → goal value ≤ middle →
      Proceeds tokens goal' middle (next value) (readNext (value, tokens.drop middle))) :
    Proceeds tokens goal' position (walk >>= next) (read >>= readNext) := by
  cases first with
  | done value middle ends forward inside far =>
    exact (second value middle forward inside far).of_later forward (bind_of_ok ends)
  | failed fault finish ends forward inside =>
    exact .failed fault finish (bind_of_error ends) forward inside

theorem pure (value : β) (inside : position ≤ tokens.length) (far : goal value ≤ position) :
    Proceeds tokens goal position (Pure.pure value) (.ok (value, tokens.drop position)) :=
  .done value position rfl (Nat.le_refl _) inside far

theorem fail (cause : FaultCause) {taken rest : List Token} (inside : position ≤ tokens.length)
    (eq : taken ++ tokens.drop position = rest) :
    Proceeds tokens goal position (fail cause taken) (.error ⟨cause, rest⟩) := by
  subst eq
  exact .failed _ position rfl (Nat.le_refl _) inside

theorem peek {next : Token → Descent β} {read : Except Fault (β × List Token)}
    (h : Proceeds tokens goal position (next ((tokens.drop position).headD .endOfText)) read) :
    Proceeds tokens goal position (Descent.peek >>= next) read :=
  h.of_later (Nat.le_refl _) (bind_of_ok (peek_eq tokens position))

theorem take {next : Token → Descent β} {read : Except Fault (β × List Token)}
    (h : Proceeds tokens goal (position + 1) (next ((tokens.drop position).headD .endOfText))
      read) :
    Proceeds tokens goal position (Descent.take >>= next) read :=
  h.of_later (Nat.le_succ _) (bind_of_ok (take_eq tokens position))

theorem last (inside : position < tokens.length) :
    Proceeds tokens (fun _ => position + 1) position Descent.take
      (.ok ((tokens.drop position).headD .endOfText, (tokens.drop position).tail)) := by
  rw [List.tail_drop]
  exact .done _ (position + 1) (take_eq tokens position) (Nat.le_succ _) inside (Nat.le_refl _)

end Proceeds

/-! ## Single tokens -/

theorem symbol?_headD_eq_iff {ts : List Token} {s : Symbol} (written : s ≠ .endOfText) :
    (ts.headD .endOfText).symbol? = some s ↔ symbolAhead ts = some s := by
  cases ts with
  | nil => exact ⟨fun h => absurd (Option.some.inj h).symm written, nofun⟩
  | cons t ts => rfl

theorem symbol?_headD_bind {ts : List Token} {choose : Symbol → Option β}
    (none : choose .endOfText = none) :
    (ts.headD .endOfText).symbol?.bind choose = (symbolAhead ts).bind choose := by
  cases ts with
  | nil => exact none
  | cons t ts => rfl

theorem lt_of_drop_eq_cons {t : Token} {rest : List Token} (h : tokens.drop position = t :: rest) :
    position < tokens.length := by
  refine Nat.lt_of_not_le fun beyond => ?_
  rw [List.drop_eq_nil_of_le beyond] at h
  cases h

/-- A symbol ahead is one of the tokens, so the cursor is not past the last of them. -/
theorem lt_of_symbolAhead {s : Symbol} (h : symbolAhead (tokens.drop position) = some s) :
    position < tokens.length := by
  obtain ⟨t, rest, left, -⟩ := symbolAhead_eq_some h
  exact lt_of_drop_eq_cons left

theorem headD_cons_drop (more : position < tokens.length) :
    (tokens.drop position).headD .endOfText :: tokens.drop (position + 1) =
      tokens.drop position := by
  rw [List.drop_eq_getElem_cons more, List.headD_cons]

theorem lt_of_choice {choose : Symbol → Option β} {choice : β}
    (h : (symbolAhead (tokens.drop position)).bind choose = some choice) :
    position < tokens.length := by
  obtain ⟨s, ahead, -⟩ := Option.bind_eq_some_iff.mp h
  exact lt_of_symbolAhead ahead

theorem isIdentifier_headD (ts : List Token) :
    (ts.headD .endOfText).isIdentifier = ts.head?.any Token.isIdentifier := by
  cases ts <;> rfl

theorem lt_of_isIdentifier (h : ((tokens.drop position).head?.any Token.isIdentifier) = true) :
    position < tokens.length := by
  cases left : tokens.drop position with
  | nil => rw [left] at h; cases h
  | cons t rest => exact lt_of_drop_eq_cons left

theorem Proceeds.ifSymbol {s : Symbol} (written : s ≠ .endOfText) {yes no : Descent β}
    {readYes readNo : Except Fault (β × List Token)}
    (found : symbolAhead (tokens.drop position) = some s →
      Proceeds tokens goal position yes readYes)
    (missing : Proceeds tokens goal position no readNo) :
    Proceeds tokens goal position
      (Descent.peek >>= fun next => if next.symbol? = some s then yes else no)
      (if symbolAhead (tokens.drop position) = some s then readYes else readNo) := by
  refine .peek ?_
  by_cases ahead : symbolAhead (tokens.drop position) = some s
  · rw [if_pos ahead, if_pos ((symbol?_headD_eq_iff written).mpr ahead)]
    exact found ahead
  · rw [if_neg ahead, if_neg fun same => ahead ((symbol?_headD_eq_iff written).mp same)]
    exact missing

theorem proceeds_symbol {s : Symbol} (written : s ≠ .endOfText)
    (inside : position ≤ tokens.length) :
    Proceeds tokens (fun _ => position + 1) position (symbol s)
      (plain (Parser.symbol s (tokens.drop position))) := by
  rw [symbol, plain_symbol]
  exact .ifSymbol written (fun ahead => .last (lt_of_symbolAhead ahead)) (.fail _ inside rfl)

theorem Proceeds.expected {s : Symbol} (written : s ≠ .endOfText)
    (ahead : symbolAhead (tokens.drop position) = some s) {next : Token → Descent β}
    {read : Except Fault (β × List Token)}
    (h : Proceeds tokens goal (position + 1) (next ((tokens.drop position).headD .endOfText))
      read) :
    Proceeds tokens goal position (symbol s >>= next) read := by
  refine h.of_later (Nat.le_succ _) (bind_of_ok ?_)
  rw [symbol, bind_of_ok (peek_eq tokens position),
    if_pos ((symbol?_headD_eq_iff written).mpr ahead), take_eq]

theorem proceeds_identifier (inside : position ≤ tokens.length) :
    Proceeds tokens (fun _ => position + 1) position identifier
      (plain (Parser.identifier (tokens.drop position))) := by
  rw [identifier, plain_identifier]
  refine .peek ?_
  rw [isIdentifier_headD]
  split
  · next ahead => exact .last (lt_of_isIdentifier ahead)
  · exact .fail _ inside rfl

theorem plain_term_name {t : Token} {name : String} (h : t.kind = .identifier name)
    (ts : List Token) :
    plain (Parser.term (t :: ts)) =
      if symbolAhead ts = some .leftParen then plain (Parser.term (t :: ts))
      else .ok (.named t, ts) := by
  split
  · rfl
  · next notAhead => rw [plain_term_identifier h, if_neg notAhead]

/-! ## Rounds -/

/-- One round of a chain, on lists. -/
def readLink (joined : Option Connective) (left : Expr) (ts : List Token) :
    Except Fault (Option (Connective × Expr) × List Token) :=
  match (symbolAhead ts).bind Connective.ofChainSymbol? with
  | none => .ok (none, ts)
  | some op =>
    if joined.any (· != op) then .error ⟨.mixedChain, ts⟩
    else plain (Parser.comparison ts.tail) >>= fun (right, rest) =>
      .ok (some (op, .connect op (ts.headD .endOfText) left right), rest)

theorem plain_links_eq (joined : Option Connective) (left : Expr) (ts : List Token) :
    plain (Parser.links joined left ts) = readLink joined left ts >>= fun
      | (none, rest) => .ok (left, rest)
      | (some (op, longer), rest) => plain (Parser.links (some op) longer rest) := by
  rw [plain_links, readLink]
  cases (symbolAhead ts).bind Connective.ofChainSymbol? with
  | none => rfl
  | some op =>
    by_cases mixed : joined.any (· != op) = true
    · simp only [if_pos mixed]
      rfl
    · simp only [if_neg mixed]
      cases plain (Parser.comparison ts.tail) <;> rfl

/-- One round of the arguments behind the first, on lists. -/
def readArgument (ts : List Token) : Except Fault (Option Expr × List Token) :=
  if symbolAhead ts = some .comma then
    plain (Parser.term ts.tail) >>= fun (next, rest) => .ok (some next, rest)
  else .ok (none, ts)

theorem plain_furtherArguments_eq (ts : List Token) :
    plain (Parser.furtherArguments ts) = readArgument ts >>= fun
      | (none, rest) => .ok ([], rest)
      | (some next, rest) => plain (Parser.furtherArguments rest) >>= fun (following, rest) =>
        .ok (next :: following, rest) := by
  rw [plain_furtherArguments, readArgument]
  by_cases comma : symbolAhead ts = some .comma
  · simp only [if_pos comma]
    cases plain (Parser.term ts.tail) <;> rfl
  · simp only [if_neg comma]
    rfl

/-- A round that is not the last one uses up the token that starts it and at least one more. -/
def roundGoal (position : Nat) (round : Option β) : Nat :=
  round.elim position fun _ => position + 2

end

end Descent

end PredicateCalculus
