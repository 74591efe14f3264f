import Mathlib.Data.List.Nodup
import PredicateCalculus.Proofs.Json
import PredicateCalculus.Signature.Json

/-! # Signatures in JSON texts

A signature is read from an object which has a field for each of its tables. The order of the fields
does not count, an empty table needs no field, and strings under other names are passed over. The
written form is one of these objects, so a signature is read back.

* `Signature.Fits`: the arities can be read; those of a signature that was read can.
* `Signature.Field`, `Signature.objectJson`: a table or a string under another name, and the object
  with some of these.
* `Signature.Complete`: what an object must have, in any order.
* `Signature.ofJson?_rearranged`: what is read from the written form and from such objects.
-/

set_option autoImplicit false

namespace PredicateCalculus

/-! ## Entries of a table -/

namespace NameTable

variable {β : Type}

theorem find?_ofList (table : NameTable β) (pairs : List (String × β)) (name : String)
    (ordered : pairs.Pairwise fun left right => left.1 < right.1) :
    (pairs.foldl (fun table (name, value) => table.insert name value) table).find? name =
      (lookup name pairs).or (table.find? name) := by
  induction pairs generalizing table with
  | nil => rfl
  | cons head rest ih =>
    obtain ⟨other, value⟩ := head
    obtain ⟨below, ordered⟩ := List.pairwise_cons.mp ordered
    rw [List.foldl_cons, ih _ ordered, lookup, find?_insert]
    by_cases same : other = name
    · subst same
      rw [lookup_eq_none_of_forall_lt below, if_pos rfl, if_pos rfl]
      rfl
    · rw [if_neg same, if_neg same]

theorem ofList_entries (table : NameTable β) : ofList table.entries = table := by
  refine ext fun name => ?_
  rw [ofList, find?_ofList _ _ _ table.ordered, find?_empty, Option.or_none]
  rfl

theorem mem_ofList (pairs : List (String × β)) :
    ∀ entry ∈ (ofList pairs).entries, entry ∈ pairs := by
  have placed : ∀ (pairs : List (String × β)) (table : NameTable β),
      ∀ entry ∈ (pairs.foldl (fun table (name, value) => table.insert name value) table).entries,
        entry ∈ pairs ∨ entry ∈ table.entries := by
    intro pairs
    induction pairs with
    | nil => exact fun table entry member => .inr member
    | cons head rest ih =>
      intro table entry member
      rcases ih _ entry member with later | earlier
      · exact .inl (List.mem_cons_of_mem _ later)
      · rcases mem_place earlier with rfl | old
        · exact .inl List.mem_cons_self
        · exact .inr old
  intro entry member
  rcases placed pairs empty entry member with listed | none
  · exact listed
  · cases none

end NameTable

namespace Signature

open Json

/-! ## Arities -/

/-- The arities are numbers that can be read. -/
def TableFits (table : NameTable Nat) : Prop :=
  ∀ entry ∈ table.entries, entry.2 < arityBound

instance (table : NameTable Nat) : Decidable (TableFits table) :=
  inferInstanceAs (Decidable (∀ entry ∈ _, _))

structure Fits (σ : Signature) : Prop where
  functions : TableFits σ.functions
  predicates : TableFits σ.predicates

theorem tableFits_empty : TableFits .empty :=
  nofun

theorem Fits.table {σ : Signature} (h : σ.Fits) : ∀ kind, TableFits (σ.table kind)
  | .function => h.functions
  | .predicate => h.predicates

/-! ## Tables -/

/-- The fields of a table. -/
def tableFields (table : NameTable Nat) : List (Option String × Json) :=
  table.entries.map fun entry => (some entry.1, .number (some entry.2))

theorem spellsField_entryJson (entry : String × Nat) :
    SpellsField (entryJson entry) (some entry.1, .number (some entry.2)) := by
  rw [← Literal.string?_ofString entry.1]
  exact .mk (.ofString entry.1) (spells_number entry.2)

theorem entriesJson_eq (entries : List (String × Nat)) :
    entriesJson entries = ",".intercalate (entries.map entryJson) := by
  induction entries with
  | nil => rfl
  | cons entry rest ih =>
    cases rest with
    | nil => rw [entriesJson, List.map_singleton, String.intercalate_singleton]
    | cons next rest =>
      rw [entriesJson, ih, List.map_cons, List.map_cons, List.map_cons,
        String.intercalate_cons_of_ne_nil (List.cons_ne_nil _ _)]
      exact List.cons_ne_nil _ _

theorem tableJson_eq (table : NameTable Nat) :
    tableJson table = objectText (table.entries.map entryJson) := by
  rw [tableJson, entriesJson_eq, objectText]

theorem spells_tableJson (table : NameTable Nat) :
    Spells (tableJson table) (.object (tableFields table)) := by
  rw [tableJson_eq]
  exact spells_objectText_map fun entry _ => spellsField_entryJson entry

theorem table?_tableFields {table : NameTable Nat} (fits : TableFits table) :
    table? (.object (tableFields table)) = some table := by
  have read : ∀ entries : List (String × Nat), (∀ entry ∈ entries, entry.2 < arityBound) →
      (entries.map fun entry => (some entry.1, Json.number (some entry.2))).mapM entry? =
        some entries := by
    intro entries below
    induction entries with
    | nil => rfl
    | cons entry rest ih =>
      obtain ⟨first, others⟩ := List.forall_mem_cons.mp below
      rw [List.map_cons, List.mapM_cons, ih others, entry?, if_pos first]
      rfl
  rw [table?, tableFields, read _ fits]
  exact congrArg some table.ofList_entries

/-! ## Objects -/

def tableName : HeadKind → String
  | .function => "functions"
  | .predicate => "predicates"

/-- A name that means nothing to a signature. -/
def Unknown (name : Literal) : Prop :=
  ∃ string, name.string? = some string ∧ string ≠ "functions" ∧ string ≠ "predicates"

/-- A field for a table, or a string under an unknown name. -/
inductive Field where
  | table (kind : HeadKind)
  | other (name : Literal) (unknown : Unknown name) (value : Literal)

namespace Field

def kind? : Field → Option HeadKind
  | .table kind => some kind
  | .other _ _ _ => none

def text (σ : Signature) : Field → String
  | .table kind => (Literal.ofString (tableName kind)).text ++ ":" ++ tableJson (σ.table kind)
  | .other name _ value => name.text ++ ":" ++ value.text

/-- What the field is read as. -/
def entry (σ : Signature) : Field → Option String × Json
  | .table kind => (some (tableName kind), .object (tableFields (σ.table kind)))
  | .other name _ value => (name.string?, .string value.string?)

theorem spells (σ : Signature) (field : Field) : SpellsField (field.text σ) (field.entry σ) := by
  cases field with
  | table kind =>
    rw [entry, ← Literal.string?_ofString (tableName kind)]
    exact .mk _ (spells_tableJson (σ.table kind))
  | other name unknown value => exact .mk name (spells_literal value)

theorem isSome_entry (σ : Signature) (field : Field) : (field.entry σ).1.isSome = true := by
  cases field with
  | table kind => rfl
  | other name unknown value =>
    obtain ⟨string, named, -⟩ := unknown
    exact Option.isSome_of_eq_some named

end Field

/-- The object with these fields. -/
def objectJson (σ : Signature) (fields : List Field) : String :=
  objectText (fields.map (Field.text σ))

/-- No table is given twice, and only an empty one may be missing. -/
structure Complete (σ : Signature) (fields : List Field) : Prop where
  once : (fields.filterMap Field.kind?).Nodup
  given : ∀ kind, kind ∉ fields.filterMap Field.kind? → σ.table kind = .empty

namespace Complete

variable {σ : Signature} {fields fields' : List Field}

theorem perm (h : σ.Complete fields) (order : fields.Perm fields') : σ.Complete fields' := by
  have tables : (fields.filterMap Field.kind?).Perm (fields'.filterMap Field.kind?) :=
    order.filterMap Field.kind?
  refine ⟨tables.nodup_iff.mp h.once, fun kind missing => ?_⟩
  exact h.given kind (tables.mem_iff.not.mpr missing)

theorem other (h : σ.Complete fields) {name : Literal} (unknown : Unknown name)
    (value : Literal) : σ.Complete (.other name unknown value :: fields) :=
  ⟨h.once, h.given⟩

theorem without {kind : HeadKind} (h : σ.Complete (.table kind :: fields))
    (empty : σ.table kind = .empty) : σ.Complete fields := by
  have tables : (Field.table kind :: fields).filterMap Field.kind? =
    kind :: fields.filterMap Field.kind? := rfl
  refine ⟨(List.nodup_cons.mp (tables ▸ h.once)).2, fun other missing => ?_⟩
  by_cases same : other = kind
  · rw [same, empty]
  · exact h.given other (by simp [tables, same, missing])

end Complete

theorem tableName_injective {kind kind' : HeadKind} (h : tableName kind = tableName kind') :
    kind = kind' := by
  cases kind <;> cases kind' <;> first | rfl | exact absurd h (by decide)

/-- Under the name of a table stand the fields that give it. -/
theorem filter_entry (σ : Signature) (kind : HeadKind) (fields : List Field) :
    (fields.map (Field.entry σ)).filter (fun entry => entry.1 == some (tableName kind)) =
      ((fields.filterMap Field.kind?).filter (· == kind)).map
        fun kind => (some (tableName kind), .object (tableFields (σ.table kind))) := by
  induction fields with
  | nil => rfl
  | cons field rest ih =>
    cases field with
    | table given =>
      by_cases same : given = kind
      · subst same
        simp [Field.entry, Field.kind?, ih]
      · have different : tableName given ≠ tableName kind := fun h => same (tableName_injective h)
        simp [Field.entry, Field.kind?, ih, same, different]
    | other name unknown value =>
      have noTable : (Field.other name unknown value).kind? = none := rfl
      rw [List.filterMap_cons_none noTable, ← ih]
      obtain ⟨string, named, noFunctions, noPredicates⟩ := unknown
      have different : string ≠ tableName kind := by
        cases kind
        · exact noFunctions
        · exact noPredicates
      simp [Field.entry, named, different]

theorem Complete.fieldTable?_eq {σ : Signature} {fields : List Field} (h : σ.Complete fields)
    (fits : σ.Fits) (kind : HeadKind) :
    fieldTable? (tableName kind) (fields.map (Field.entry σ)) = some (σ.table kind) := by
  rw [fieldTable?, filter_entry, List.filter_beq]
  by_cases member : kind ∈ fields.filterMap Field.kind?
  · rw [List.count_eq_one_of_mem h.once member]
    exact table?_tableFields (fits.table kind)
  · rw [List.count_eq_zero_of_not_mem member, h.given kind member]
    rfl

theorem ofJson?_objectJson {σ : Signature} (fits : σ.Fits) {fields : List Field}
    (complete : σ.Complete fields) : ofJson? (σ.objectJson fields) = some σ := by
  have spelled : Spells (σ.objectJson fields) (.object (fields.map (Field.entry σ))) :=
    spells_objectText_map fun field _ => field.spells σ
  have named : ((fields.map (Field.entry σ)).all fun field => field.1.isSome) = true := by
    simp [Field.isSome_entry]
  have functions : fieldTable? "functions" (fields.map (Field.entry σ)) = some σ.functions :=
    complete.fieldTable?_eq fits .function
  have predicates : fieldTable? "predicates" (fields.map (Field.entry σ)) = some σ.predicates :=
    complete.fieldTable?_eq fits .predicate
  rw [ofJson?, spelled.parse, Option.bind_some, ofJson, (Option.guard_eq_some' ()).mpr named,
    functions, predicates]
  rfl

/-! ## What is read -/

theorem entry?_lt {field : Option String × Json} {entry : String × Nat}
    (h : entry? field = some entry) : entry.2 < arityBound := by
  unfold entry? at h
  split at h
  · split at h
    · next below =>
      obtain rfl := Option.some.inj h
      exact below
    · cases h
  · cases h

theorem fits_of_table? {json : Json} {table : NameTable Nat} (h : table? json = some table) :
    TableFits table := by
  have below : ∀ (fields : List (Option String × Json)) (entries : List (String × Nat)),
      fields.mapM entry? = some entries → ∀ entry ∈ entries, entry.2 < arityBound := by
    intro fields
    induction fields with
    | nil => rintro _ ⟨⟩ _ ⟨⟩
    | cons field rest ih =>
      intro entries read
      rw [List.mapM_cons] at read
      obtain ⟨entry, first, read⟩ := Option.bind_eq_some_iff.mp read
      obtain ⟨others, second, read⟩ := Option.bind_eq_some_iff.mp read
      obtain rfl := Option.some.inj read
      exact List.forall_mem_cons.mpr ⟨entry?_lt first, ih others second⟩
  unfold table? at h
  split at h
  · next fields =>
    obtain ⟨entries, read, rfl⟩ := Option.map_eq_some_iff.mp h
    intro entry member
    exact below fields entries read entry (NameTable.mem_ofList entries entry member)
  · cases h

theorem fits_of_fieldTable? {name : String} {fields : List (Option String × Json)}
    {table : NameTable Nat} (h : fieldTable? name fields = some table) : TableFits table := by
  unfold fieldTable? at h
  split at h
  · obtain rfl := Option.some.inj h
    exact tableFits_empty
  · exact fits_of_table? h
  · cases h

/-- What is read as a signature has such arities. -/
theorem fits_of_ofJson? {text : String} {σ : Signature} (h : ofJson? text = some σ) : σ.Fits := by
  obtain ⟨json, -, read⟩ := Option.bind_eq_some_iff.mp h
  match json, read with
  | .object fields, read =>
    obtain ⟨-, -, read⟩ := Option.bind_eq_some_iff.mp read
    obtain ⟨functions, first, read⟩ := Option.bind_eq_some_iff.mp read
    obtain ⟨predicates, second, read⟩ := Option.bind_eq_some_iff.mp read
    obtain rfl := Option.some.inj read
    exact ⟨fits_of_fieldTable? first, fits_of_fieldTable? second⟩
  | .array [], read =>
    obtain rfl := Option.some.inj read
    exact ⟨tableFits_empty, tableFits_empty⟩
  | .array [_], read =>
    obtain ⟨functions, first, read⟩ := Option.bind_eq_some_iff.mp read
    obtain rfl := Option.some.inj read
    exact ⟨fits_of_table? first, tableFits_empty⟩
  | .array [_, _], read =>
    obtain ⟨functions, first, read⟩ := Option.bind_eq_some_iff.mp read
    obtain ⟨predicates, second, read⟩ := Option.bind_eq_some_iff.mp read
    obtain rfl := Option.some.inj read
    exact ⟨fits_of_table? first, fits_of_table? second⟩

/-! ## The written form -/

/-- Both tables, functions first. -/
def bothTables : List Field :=
  [.table .function, .table .predicate]

theorem toJson_eq (σ : Signature) :
    σ.toJson = "\x7b\"functions\":" ++ tableJson σ.functions ++ ",\"predicates\":"
      ++ tableJson σ.predicates ++ "\x7d" := rfl

theorem toJson_eq_objectJson (σ : Signature) : σ.toJson = σ.objectJson bothTables := by
  have opening : "\x7b" ++ (quote "functions" ++ ":") = "\x7b\"functions\":" := by decide
  have middle : "," ++ (quote "predicates" ++ ":") = ",\"predicates\":" := by decide
  rw [toJson_eq, ← opening, ← middle, objectJson, objectText, bothTables, List.map_cons,
    List.map_singleton, String.intercalate_cons_of_ne_nil (List.cons_ne_nil _ _),
    String.intercalate_singleton]
  simp only [Field.text, Literal.text_ofString, tableName, table, String.append_assoc]

theorem complete_bothTables (σ : Signature) : σ.Complete bothTables := by
  refine ⟨by decide, fun kind missing => absurd ?_ missing⟩
  cases kind <;> decide

/-- A signature is read back from its text. -/
theorem ofJson?_toJson {σ : Signature} (fits : σ.Fits) : ofJson? σ.toJson = some σ := by
  rw [toJson_eq_objectJson]
  exact ofJson?_objectJson fits (complete_bothTables σ)

/-- A signature is read back from its text, and from every object that has its tables: in either
order, without a table that is empty, and with strings under other names. -/
theorem ofJson?_rearranged {σ : Signature} (fits : σ.Fits) :
    (ofJson? σ.toJson = some σ ∧ σ.toJson = σ.objectJson bothTables) ∧
      ∀ fields, σ.Complete fields → ofJson? (σ.objectJson fields) = some σ :=
  ⟨⟨ofJson?_toJson fits, toJson_eq_objectJson σ⟩, fun _ => ofJson?_objectJson fits⟩

/-- The empty name is in both tables of the first signature; the second has no functions. The field
that is passed over has an escape in its name and half a surrogate pair in its value. -/
theorem ofJson?_rearranged_withOther :
    let σ : Signature :=
      ⟨.ofList [("", 18446744073709551615)], .ofList [("", 0), ("\"\\\x01😀", 2)]⟩
    ofJson? ("\x7b\"\\u0061\":\"\\uD800é\",\"predicates\":\x7b\"\":0,"
        ++ "\"\\\"\\\\\\u0001😀\":2\x7d,\"functions\":\x7b\"\":18446744073709551615\x7d\x7d") =
      some σ ∧
    ofJson? ("\x7b\"predicates\":\x7b\"\":0,\"\\\"\\\\\\u0001😀\":2\x7d,"
        ++ "\"\\u0061\":\"\\uD800é\"\x7d") =
      some ⟨.empty, σ.predicates⟩ := by
  intro σ
  let name : Literal := ⟨_, _, .cons (.numbered (show hexCode? '0' '0' '6' '1' = _ from rfl)) .nil⟩
  let value : Literal := ⟨_, _, .cons (.numbered (show hexCode? 'D' '8' '0' '0' = _ from rfl))
    (.cons (.plain (show 0x20 ≤ 'é'.toNat by decide) (by decide) (by decide)) .nil)⟩
  let unknown : Unknown name := ⟨"a", by decide⟩
  have complete := ((complete_bothTables σ).perm (.swap _ _ _)).other unknown value
  have completeWithout : Complete ⟨.empty, σ.predicates⟩ _ :=
    (((complete_bothTables _).without rfl).other unknown value).perm (.swap _ _ _)
  have fits : σ.Fits := ⟨by decide, by decide⟩
  have fitsWithout : Fits ⟨.empty, σ.predicates⟩ := ⟨tableFits_empty, fits.predicates⟩
  have first := (ofJson?_rearranged fits).2 _ complete
  have second := (ofJson?_rearranged fitsWithout).2 _ completeWithout
  refine ⟨(congrArg ofJson? ?_).trans first, (congrArg ofJson? ?_).trans second⟩
  · decide +kernel
  · decide +kernel

end Signature

end PredicateCalculus
