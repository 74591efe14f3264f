import PredicateCalculus.Json
import PredicateCalculus.Signature

/-! # Signatures as JSON

A signature is written as an object with the fields `functions` and `predicates`, each an object
from names to arities. When it is read, either field may be missing and others may be present; a
list of up to two such objects, in the same order, will do as well.

* `Signature.toJson`: the text of a signature.
* `Signature.ofJson?`: the signature that a text describes.
-/

set_option autoImplicit false

namespace PredicateCalculus.Signature

/-! ## Writing -/

def entryJson (entry : String × Nat) : String :=
  Json.quote entry.1 ++ ":" ++ toString entry.2

def entriesJson : List (String × Nat) → String
  | [] => ""
  | [entry] => entryJson entry
  | entry :: rest => entryJson entry ++ "," ++ entriesJson rest

def tableJson (table : NameTable Nat) : String :=
  "\x7b" ++ entriesJson table.entries ++ "\x7d"

def toJson (σ : Signature) : String :=
  "\x7b\"functions\":" ++ tableJson σ.functions ++ ",\"predicates\":" ++ tableJson σ.predicates
    ++ "\x7d"

/-! ## Reading -/

/-- Arities are below this number, two to the power of sixty-four. -/
def arityBound : Nat :=
  18446744073709551616

def entry? : Option String × Json → Option (String × Nat)
  | (some name, .number (some n)) => if n < arityBound then some (name, n) else none
  | _ => none

/-- Of a repeated name the last arity counts. -/
def table? : Json → Option (NameTable Nat)
  | .object fields => NameTable.ofList <$> fields.mapM entry?
  | _ => none

/-- The table in the field of a name, which may be missing but not repeated. -/
def fieldTable? (name : String) (fields : List (Option String × Json)) : Option (NameTable Nat) :=
  match fields.filter fun field => field.1 == some name with
  | [] => some .empty
  | [field] => table? field.2
  | _ => none

def ofJson : Json → Option Signature
  | .object fields => do
    guard (fields.all fun field => field.1.isSome)
    return ⟨← fieldTable? "functions" fields, ← fieldTable? "predicates" fields⟩
  | .array [] => some .empty
  | .array [functions] => do return ⟨← table? functions, .empty⟩
  | .array [functions, predicates] => do return ⟨← table? functions, ← table? predicates⟩
  | _ => none

def ofJson? (text : String) : Option Signature :=
  (Json.parse text).bind ofJson

end PredicateCalculus.Signature
