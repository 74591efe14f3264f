import PredicateCalculus.Reading

/-! # JSON texts

A value keeps what a reader of it can use: a number its value when it is written with digits alone,
a string its characters when its escapes name characters, an object its fields in order with
repetitions.

* `Json`: the values.
* `Json.parse`: the value that a whole text is.
* `Json.quote`: a string as a JSON text.
-/

set_option autoImplicit false

namespace PredicateCalculus

inductive Json where
  | null
  | bool (value : Bool)
  | number (natural : Option Nat)
  | string (text : Option String)
  | array (items : List Json)
  | object (fields : List (Option String × Json))

namespace Json

/-! ## Strings -/

/-- A character of a string, or an escape that names half of a surrogate pair. -/
inductive Piece where
  | char (c : Char)
  | surrogate (code : Nat)
  deriving Repr, DecidableEq

def isHighSurrogate (code : Nat) : Bool :=
  0xD800 ≤ code && code < 0xDC00

def isLowSurrogate (code : Nat) : Bool :=
  0xDC00 ≤ code && code < 0xE000

def Piece.ofCode (code : Nat) : Piece :=
  if isHighSurrogate code || isLowSurrogate code then .surrogate code else .char (Char.ofNat code)

/-- Puts surrogate pairs together; half a pair is no character. -/
def joinPieces : List Piece → Option (List Char)
  | [] => some []
  | .char c :: rest => (c :: ·) <$> joinPieces rest
  | .surrogate high :: .surrogate low :: rest =>
    if isHighSurrogate high && isLowSurrogate low then
      (Char.ofNat (0x10000 + (high - 0xD800) * 0x400 + (low - 0xDC00)) :: ·) <$> joinPieces rest
    else none
  | .surrogate _ :: _ => none

def ofPieces (pieces : List Piece) : Option String :=
  String.ofList <$> joinPieces pieces

def hexDigit? (c : Char) : Option Nat :=
  if c.isDigit then some (c.toNat - '0'.toNat)
  else if 'a' ≤ c && c ≤ 'f' then some (c.toNat - 'a'.toNat + 10)
  else if 'A' ≤ c && c ≤ 'F' then some (c.toNat - 'A'.toNat + 10)
  else none

/-- The character that stands for itself or for a control character behind a backslash. -/
def shortEscape? (c : Char) : Option Char :=
  match c with
  | '"' => some '"'
  | '\\' => some '\\'
  | '/' => some '/'
  | 'b' => some '\x08'
  | 'f' => some '\x0c'
  | 'n' => some '\n'
  | 'r' => some '\r'
  | 't' => some '\t'
  | _ => none

def hexCode? (a b c d : Char) : Option Nat := do
  return (((← hexDigit? a) * 16 + (← hexDigit? b)) * 16 + (← hexDigit? c)) * 16 + (← hexDigit? d)

/-- The pieces up to the closing quotation mark, which is used up. -/
def stringBody : (text : List Char) → Option (Reading Char text.length (List Piece))
  | [] => none
  | '"' :: rest => some ⟨[], rest, by simp⟩
  | '\\' :: 'u' :: a :: b :: c :: d :: rest => do
    let code ← hexCode? a b c d
    let body ← stringBody rest
    return (body.map (Piece.ofCode code :: ·)).relax (by simp only [List.length_cons]; omega)
  | '\\' :: c :: rest => do
    let escaped ← shortEscape? c
    let body ← stringBody rest
    return (body.map (Piece.char escaped :: ·)).relax (by simp only [List.length_cons]; omega)
  | c :: rest => do
    guard (0x20 ≤ c.toNat && c != '\\')
    let body ← stringBody rest
    return (body.map (Piece.char c :: ·)).relax (by simp)

/-! ## Numbers -/

def naturalOf (digits : List Char) : Nat :=
  digits.foldl (fun n c => 10 * n + (c.toNat - '0'.toNat)) 0

/-- The rest after one digit or more. -/
def afterDigits? : List Char → Option (List Char)
  | c :: rest => if c.isDigit then some (rest.dropWhile Char.isDigit) else none
  | [] => none

/-- The rest after an integer without sign, which has no leading zeros. -/
def afterInteger? : List Char → Option (List Char)
  | '0' :: rest => if rest.head?.any Char.isDigit then none else some rest
  | text => afterDigits? text

def afterFraction? : List Char → Option (List Char)
  | '.' :: rest => afterDigits? rest
  | text => some text

def afterExponent? : List Char → Option (List Char)
  | c :: rest =>
    if c == 'e' || c == 'E' then
      match rest with
      | '+' :: rest => afterDigits? rest
      | '-' :: rest => afterDigits? rest
      | rest => afterDigits? rest
    else some (c :: rest)
  | [] => some []

theorem afterDigits?_length {text rest : List Char} (h : afterDigits? text = some rest) :
    rest.length < text.length := by
  cases text with
  | nil => exact absurd h (by simp [afterDigits?])
  | cons c tail =>
    rw [afterDigits?] at h
    split at h
    · obtain rfl := Option.some.inj h
      exact Nat.lt_succ_of_le (List.dropWhile_sublist _).length_le
    · exact absurd h (by simp)

theorem afterInteger?_length {text rest : List Char} (h : afterInteger? text = some rest) :
    rest.length < text.length := by
  unfold afterInteger? at h
  split at h
  · split at h
    · exact absurd h (by simp)
    · obtain rfl := Option.some.inj h
      simp
  · exact afterDigits?_length h

theorem afterFraction?_length {text rest : List Char} (h : afterFraction? text = some rest) :
    rest.length ≤ text.length := by
  unfold afterFraction? at h
  split at h
  · have := afterDigits?_length h
    simp only [List.length_cons]
    omega
  · obtain rfl := Option.some.inj h
    exact Nat.le_refl _

theorem afterExponent?_length {text rest : List Char} (h : afterExponent? text = some rest) :
    rest.length ≤ text.length := by
  unfold afterExponent? at h
  split at h
  · split at h
    · split at h <;>
      · have := afterDigits?_length h
        simp only [List.length_cons] at *
        omega
    · obtain rfl := Option.some.inj h
      exact Nat.le_refl _
  · obtain rfl := Option.some.inj h
    exact Nat.le_refl _

def unsignedNumber (text : List Char) : Option (Reading Char text.length (Option Nat)) :=
  match hinteger : afterInteger? text with
  | none => none
  | some afterInteger =>
    match hfraction : afterFraction? afterInteger with
    | none => none
    | some afterFraction =>
      match hexponent : afterExponent? afterFraction with
      | none => none
      | some rest =>
        let digits := text.take (text.length - afterInteger.length)
        let natural := if rest.length = afterInteger.length then some (naturalOf digits) else none
        some ⟨natural, rest, by
          have := afterInteger?_length hinteger
          have := afterFraction?_length hfraction
          have := afterExponent?_length hexponent
          omega⟩

def signedNumber : (text : List Char) → Option (Reading Char text.length Json)
  | '-' :: rest =>
    (unsignedNumber rest).map fun r => (r.map fun _ => Json.number none).relax (by simp)
  | text => (unsignedNumber text).map (Reading.map Json.number)

/-! ## Values -/

def isSpace (c : Char) : Bool :=
  c == ' ' || c == '\t' || c == '\n' || c == '\r'

/-- The next character that is no white space. -/
def nextChar : (text : List Char) → Option (Reading Char text.length Char)
  | [] => none
  | c :: rest =>
    if isSpace c then (nextChar rest).map (·.relax (by simp)) else some ⟨c, rest, by simp⟩

/-- The value with the name `word`, whose first letter has been read. -/
def literal (word : String) (value : Json) (text : List Char) :
    Option (Reading Char (text.length + 1) Json) :=
  if word.toList.isPrefixOf text then
    some ⟨value, text.drop word.length, by rw [List.length_drop]; omega⟩
  else none

mutual

def value (text : List Char) : Option (Reading Char text.length Json) := do
  match ← nextChar text with
  | ⟨'n', rest, _⟩ => (literal "ull" .null rest).map (·.relax (by omega))
  | ⟨'t', rest, _⟩ => (literal "rue" (.bool true) rest).map (·.relax (by omega))
  | ⟨'f', rest, _⟩ => (literal "alse" (.bool false) rest).map (·.relax (by omega))
  | ⟨'"', rest, _⟩ =>
    let body ← stringBody rest
    return (body.map fun pieces => Json.string (ofPieces pieces)).relax (by omega)
  | ⟨'[', rest, _⟩ =>
    match nextChar rest with
    | some ⟨']', rest, _⟩ => return ⟨.array [], rest, by omega⟩
    | _ =>
      let ⟨first, rest, _⟩ ← value rest
      let ⟨further, rest, _⟩ ← furtherItems rest
      return ⟨.array (first :: further), rest, by omega⟩
  | ⟨'\x7b', rest, _⟩ =>
    match nextChar rest with
    | some ⟨'\x7d', rest, _⟩ => return ⟨.object [], rest, by omega⟩
    | _ =>
      let ⟨first, rest, _⟩ ← field rest
      let ⟨further, rest, _⟩ ← furtherFields rest
      return ⟨.object (first :: further), rest, by omega⟩
  | ⟨c, rest, _⟩ =>
    (signedNumber (c :: rest)).map (·.relax (by simp only [List.length_cons]; omega))
termination_by text.length
decreasing_by all_goals omega

/-- The items after the first, up to the closing bracket, which is used up. -/
def furtherItems (text : List Char) : Option (Reading Char text.length (List Json)) := do
  match ← nextChar text with
  | ⟨']', rest, _⟩ => return ⟨[], rest, by omega⟩
  | ⟨',', rest, _⟩ =>
    let ⟨item, rest, _⟩ ← value rest
    let ⟨further, rest, _⟩ ← furtherItems rest
    return ⟨item :: further, rest, by omega⟩
  | _ => none
termination_by text.length
decreasing_by all_goals omega

def field (text : List Char) : Option (Reading Char text.length (Option String × Json)) := do
  match ← nextChar text with
  | ⟨'"', rest, _⟩ =>
    let ⟨pieces, rest, _⟩ ← stringBody rest
    match ← nextChar rest with
    | ⟨':', rest, _⟩ =>
      let ⟨item, rest, _⟩ ← value rest
      return ⟨(ofPieces pieces, item), rest, by omega⟩
    | _ => none
  | _ => none
termination_by text.length
decreasing_by all_goals omega

/-- The fields after the first, up to the closing brace, which is used up. -/
def furtherFields (text : List Char) :
    Option (Reading Char text.length (List (Option String × Json))) := do
  match ← nextChar text with
  | ⟨'\x7d', rest, _⟩ => return ⟨[], rest, by omega⟩
  | ⟨',', rest, _⟩ =>
    let ⟨first, rest, _⟩ ← field rest
    let ⟨further, rest, _⟩ ← furtherFields rest
    return ⟨first :: further, rest, by omega⟩
  | _ => none
termination_by text.length
decreasing_by all_goals omega

end

def parse (text : String) : Option Json := do
  let ⟨json, rest, _⟩ ← value text.toList
  guard (nextChar rest).isNone
  return json

/-! ## Writing strings -/

def hexDigit (n : Nat) : Char :=
  if n < 10 then Char.ofNat ('0'.toNat + n) else Char.ofNat ('a'.toNat + (n - 10))

/-- Quotation marks, backslashes and control characters are escaped, nothing else. -/
def escape (c : Char) : List Char :=
  match c with
  | '"' => ['\\', '"']
  | '\\' => ['\\', '\\']
  | '\x08' => ['\\', 'b']
  | '\x0c' => ['\\', 'f']
  | '\n' => ['\\', 'n']
  | '\r' => ['\\', 'r']
  | '\t' => ['\\', 't']
  | c =>
    if c.toNat < 0x20 then ['\\', 'u', '0', '0', hexDigit (c.toNat / 16), hexDigit (c.toNat % 16)]
    else [c]

def quote (text : String) : String :=
  "\"" ++ String.ofList (text.toList.flatMap escape) ++ "\""

end Json

end PredicateCalculus
