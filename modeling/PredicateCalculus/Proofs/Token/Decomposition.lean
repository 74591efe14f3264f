import PredicateCalculus.Proofs.Token.Name

/-! # The decomposition of a text

A text is blanks and lexemes in turn. Which lexeme comes next is settled by the text alone: it is
the only spelling in front of what is left, or, where no spelling is in front, the longest run of
letters. Splitting into tokens finds this decomposition, up to the end or up to the first place where
there is neither.

* `Blanks`: texts of blanks only.
* `Lexer.Front`: a lexeme in front of the rest of a text, with the kind of its token.
* `Lexer.Unreadable`: the texts with no lexeme in front.
* `Lexer.Decomposes`: a text as blanks, tokens and blanks in turn, and then a rest.
* `Lexer.front_of_tokenAt`, `Lexer.tokenAt_eq_none_iff`: one token.
* `Lexer.decomposes_scan`, `Lexer.Decomposes.scan_eq`: all tokens.
* `Lexer.tokenize_decomposes`: splitting a text, and where it stops.
-/

set_option autoImplicit false

namespace PredicateCalculus

def Blanks (text : List Char) : Prop :=
  ∀ c ∈ text, Text.isBlank c = true

instance (text : List Char) : Decidable (Blanks text) :=
  decidable_of_iff (text.all Text.isBlank = true) List.all_eq_true

/-- The first token has a lexeme and ends where the second begins, or before. -/
def Token.Precedes (t u : Token) : Prop :=
  ∃ i j, t.offset = some i ∧ u.offset = some j ∧ 0 < t.lexeme.length ∧ i + t.lexeme.length ≤ j

namespace Lexer

/-! ## One lexeme -/

/-- A lexeme that stands before the rest of a text: the only spelling there, or, where there is no
spelling, all the letters up to the first other character. -/
inductive Front (behind : List Char) : TokenKind → String → Prop where
  | symbol {symbol : Symbol} {spelling : String} (listed : (symbol, spelling) ∈ Symbol.table)
      (only : ∀ entry ∈ Symbol.table, entry.2.toList <+: spelling.toList ++ behind →
        entry = (symbol, spelling)) : Front behind (.symbol symbol) spelling
  | identifier {name : String} (nonempty : name.toList ≠ [])
      (letters : ∀ c ∈ name.toList, c.isAlpha = true) (longest : Separated behind)
      (unspelled : ∀ entry ∈ Symbol.table, ¬entry.2.toList <+: name.toList ++ behind) :
      Front behind (.identifier name) name

structure Unreadable (text : List Char) : Prop where
  nonempty : text ≠ []
  visible : text.head?.all (!Text.isBlank ·) = true
  unspelled : ∀ entry ∈ Symbol.table, ¬entry.2.toList <+: text
  letterless : Separated text

theorem drop_lexeme (lexeme : String) (behind : List Char) :
    (lexeme.toList ++ behind).drop lexeme.length = behind := by
  rw [← String.length_toList, List.drop_left]

theorem separated_dropWhile (text : List Char) : Separated (text.dropWhile Char.isAlpha) := by
  induction text with
  | nil => rfl
  | cons c rest ih =>
    by_cases letter : c.isAlpha = true
    · rw [List.dropWhile_cons_of_pos letter]
      exact ih
    · rw [List.dropWhile_cons_of_neg letter]
      simpa [Separated] using letter

theorem tokenAt_eq_none_iff {offset : Nat} {text : List Char} :
    tokenAt offset text = none ↔
      (∀ entry ∈ Symbol.table, ¬entry.2.toList <+: text) ∧ Separated text := by
  rw [← symbolAt_eq_none_iff]
  cases found : symbolAt text with
  | some entry => simp [tokenAt, found]
  | none =>
    have letters : text.takeWhile Char.isAlpha = [] ↔ Separated text := by
      cases text with
      | nil => exact iff_of_true rfl rfl
      | cons c rest => by_cases letter : c.isAlpha = true <;> simp [Separated, letter]
    rw [← letters, and_iff_right rfl]
    cases run : text.takeWhile Char.isAlpha <;> simp [tokenAt, found, run]

theorem front_of_listed {symbol : Symbol} {spelling : String}
    (listed : (symbol, spelling) ∈ Symbol.table) (behind : List Char) :
    Front behind (.symbol symbol) spelling :=
  .symbol listed fun _ listed' begins =>
    Symbol.eq_of_begins listed' listed begins (List.prefix_append _ _)

theorem front_of_isName {name : String} (h : IsName name) {behind : List Char}
    (separated : Separated behind) : Front behind (.identifier name) name :=
  .identifier h.nonempty h.letters separated
    (symbolAt_eq_none_iff.mp (symbolAt_name h separated))

theorem Front.isName {behind : List Char} {name lexeme : String}
    (h : Front behind (.identifier name) lexeme) : IsName name := by
  cases h with
  | identifier nonempty letters longest unspelled =>
    exact ⟨nonempty, letters, fun entry listed begins =>
      unspelled entry listed (begins.trans (List.prefix_append _ _))⟩

theorem Front.tokenAt_eq {behind : List Char} {kind : TokenKind} {lexeme : String}
    (h : Front behind kind lexeme) (offset : Nat) :
    tokenAt offset (lexeme.toList ++ behind) = some ⟨kind, lexeme, some offset⟩ := by
  cases h with
  | symbol listed only => exact tokenAt_append listed offset behind
  | identifier nonempty letters longest unspelled =>
    exact tokenAt_name (Front.identifier nonempty letters longest unspelled).isName offset longest

theorem front_of_tokenAt {offset : Nat} {text : List Char} {token : Token}
    (h : tokenAt offset text = some token) :
    token.offset = some offset ∧
      ∃ behind, text = token.lexeme.toList ++ behind ∧ Front behind token.kind token.lexeme := by
  unfold tokenAt at h
  split at h
  · next symbol spelling found =>
    obtain rfl := Option.some.inj h
    obtain ⟨listed, begins⟩ := begins_of_symbolAt found
    obtain ⟨behind, rfl⟩ := begins
    exact ⟨rfl, behind, rfl, front_of_listed listed behind⟩
  · next noSymbol =>
    split at h
    · cases h
    · next nonempty =>
      obtain rfl := Option.some.inj h
      have parts : text = text.takeWhile Char.isAlpha ++ text.dropWhile Char.isAlpha :=
        List.takeWhile_append_dropWhile.symm
      refine ⟨rfl, text.dropWhile Char.isAlpha, ?_, ?_⟩
      · rw [String.toList_ofList]
        exact parts
      · refine .identifier ?_ ?_ (separated_dropWhile text) ?_
        · rw [String.toList_ofList]
          exact nonempty
        · rw [String.toList_ofList]
          exact List.all_eq_true.mp List.all_takeWhile
        · rw [String.toList_ofList, ← parts]
          exact symbolAt_eq_none_iff.mp noSymbol

theorem Front.length_pos {behind : List Char} {kind : TokenKind} {lexeme : String}
    (h : Front behind kind lexeme) : 0 < lexeme.length :=
  lexeme_pos (h.tokenAt_eq 0)

/-- A lexeme does not begin with a blank. -/
theorem Front.visible {behind : List Char} {kind : TokenKind} {lexeme : String}
    (h : Front behind kind lexeme) :
    ∃ c rest, lexeme.toList = c :: rest ∧ Text.isBlank c = false := by
  cases h with
  | symbol listed only =>
    obtain ⟨c, rest, chars⟩ := List.exists_cons_of_ne_nil (Symbol.spelling_ne_nil listed)
    have visible := Symbol.table_visible _ listed
    rw [chars] at visible
    exact ⟨c, rest, chars, by simpa using visible⟩
  | identifier nonempty letters longest unspelled =>
    obtain ⟨c, rest, chars⟩ := List.exists_cons_of_ne_nil nonempty
    have letter : c.isAlpha = true := letters c (by rw [chars]; exact List.mem_cons_self)
    exact ⟨c, rest, chars, not_isBlank_of_isAlpha letter⟩

/-- The order in which the table lists the spellings does not matter. -/
theorem find?_eq_symbolAt {table : List (Symbol × String)} (reordered : table.Perm Symbol.table)
    (text : List Char) :
    table.find? (fun (_, spelling) => spelling.toList.isPrefixOf text) = symbolAt text := by
  cases found : symbolAt text with
  | none =>
    rw [List.find?_eq_none]
    intro entry member begins
    exact symbolAt_eq_none_iff.mp found entry (reordered.mem_iff.mp member)
      (List.isPrefixOf_iff_prefix.mp begins)
  | some entry =>
    obtain ⟨listed, begins⟩ := begins_of_symbolAt found
    have unique : ∀ other ∈ table, other.2.toList.isPrefixOf text = true → other = entry := by
      intro other member begins'
      exact Symbol.eq_of_begins (reordered.mem_iff.mp member) listed
        (List.isPrefixOf_iff_prefix.mp begins') begins
    cases result : table.find? (fun (_, spelling) => spelling.toList.isPrefixOf text) with
    | none =>
      have fails := List.find?_eq_none.mp result entry (reordered.mem_iff.mpr listed)
      exact absurd (List.isPrefixOf_iff_prefix.mpr begins) fails
    | some other =>
      have begins' := List.find?_some (p := fun e : Symbol × String =>
        e.2.toList.isPrefixOf text) result
      rw [unique other (List.mem_of_find?_eq_some result) begins']

/-! ## Steps of the scan -/

theorem scan_blanks {blanks : List Char} (blank : Blanks blanks) (offset : Nat)
    (text : List Char) : scan offset (blanks ++ text) = scan (offset + blanks.length) text := by
  induction blanks generalizing offset with
  | nil => rfl
  | cons c blanks ih =>
    obtain ⟨first, others⟩ := List.forall_mem_cons.mp blank
    rw [List.cons_append, scan, if_pos first, ih others, List.length_cons, Nat.add_right_comm,
      Nat.add_assoc]

theorem scan_token {kind : TokenKind} {lexeme : String} {behind : List Char}
    (front : Front behind kind lexeme) (offset : Nat) :
    scan offset (lexeme.toList ++ behind) =
      ⟨⟨kind, lexeme, some offset⟩ :: (scan (offset + lexeme.length) behind).tokens,
        (scan (offset + lexeme.length) behind).stop⟩ := by
  obtain ⟨c, rest, chars, notBlank⟩ := front.visible
  have found := front.tokenAt_eq offset
  have after := drop_lexeme lexeme behind
  rw [chars, List.cons_append] at found after ⊢
  rw [scan, if_neg (by rw [notBlank]; exact Bool.false_ne_true)]
  split
  · next missing =>
    rw [found] at missing
    cases missing
  · next token read =>
    obtain rfl := Option.some.inj (found.symm.trans read)
    simp only [after]

theorem Unreadable.scan_eq {text : List Char} (h : Unreadable text) (offset : Nat) :
    scan offset text = ⟨[], some ⟨offset, text⟩⟩ := by
  have missing : tokenAt offset text = none :=
    tokenAt_eq_none_iff.mpr ⟨h.unspelled, h.letterless⟩
  obtain ⟨c, rest, rfl⟩ := List.exists_cons_of_ne_nil h.nonempty
  have visible : Text.isBlank c = false := by simpa using h.visible
  rw [scan, if_neg (by rw [visible]; exact Bool.false_ne_true)]
  split
  · rfl
  · next token found =>
    rw [missing] at found
    cases found

theorem unreadable_of_tokenAt {c : Char} {rest : List Char} {offset : Nat}
    (visible : ¬Text.isBlank c = true) (missing : tokenAt offset (c :: rest) = none) :
    Unreadable (c :: rest) := by
  obtain ⟨unspelled, letterless⟩ := tokenAt_eq_none_iff.mp missing
  exact ⟨List.cons_ne_nil c rest, by simpa using visible, unspelled, letterless⟩

/-- Where a scan stops there is something, but no lexeme, and the column counts what is before. -/
theorem stop_of_scan (offset : Nat) (text : List Char) {stop : Stop}
    (h : (scan offset text).stop = some stop) :
    Unreadable stop.remaining ∧
      ∃ front, text = front ++ stop.remaining ∧ stop.offset = offset + front.length := by
  fun_induction scan offset text with
  | case1 => cases h
  | case2 offset c rest blank ih =>
    obtain ⟨unreadable, front, rfl, place⟩ := ih h
    refine ⟨unreadable, c :: front, rfl, ?_⟩
    rw [place, List.length_cons]
    omega
  | case3 offset c rest visible missing =>
    obtain rfl := Option.some.inj h
    exact ⟨unreadable_of_tokenAt visible missing, [], rfl, rfl⟩
  | case4 offset c rest visible token found width following ih =>
    obtain ⟨unreadable, front, behind, place⟩ := ih h
    obtain ⟨-, others, chars, -⟩ := front_of_tokenAt found
    have drop : (c :: rest).drop width = others := by rw [chars, drop_lexeme]
    refine ⟨unreadable, token.lexeme.toList ++ front, ?_, ?_⟩
    · rw [chars, List.append_assoc, ← behind, drop]
    · rw [place, List.length_append, String.length_toList, Nat.add_assoc]

/-! ## Whole texts -/

/-- A text with the text before it, as blanks, tokens and blanks in turn, and then a rest. Each token
has the kind of its lexeme, and its offset counts the characters before the lexeme. -/
inductive Decomposes : (before text : List Char) → List Token → (rest : List Char) → Prop where
  | rest {before rest : List Char} (blanks : List Char) (blank : Blanks blanks) :
      Decomposes before (blanks ++ rest) [] rest
  | token {before behind rest : List Char} {kind : TokenKind} {lexeme : String}
      {tokens : List Token} (blanks : List Char) (blank : Blanks blanks)
      (front : Front behind kind lexeme)
      (others : Decomposes (before ++ blanks ++ lexeme.toList) behind tokens rest) :
      Decomposes before (blanks ++ (lexeme.toList ++ behind))
        (⟨kind, lexeme, some (before ++ blanks).length⟩ :: tokens) rest

def Scan.rest (s : Scan) : List Char :=
  match s.stop with
  | none => []
  | some stop => stop.remaining

variable {before text rest : List Char} {tokens : List Token}

theorem Decomposes.skip {c : Char} (blank : Text.isBlank c = true)
    (h : Decomposes (before ++ [c]) text tokens rest) :
    Decomposes before (c :: text) tokens rest := by
  cases h with
  | rest blanks each =>
    rw [← List.cons_append]
    exact .rest (c :: blanks) (List.forall_mem_cons.mpr ⟨blank, each⟩)
  | token blanks each front others =>
    rw [List.append_assoc before, List.singleton_append] at others ⊢
    rw [← List.cons_append]
    exact .token (c :: blanks) (List.forall_mem_cons.mpr ⟨blank, each⟩) front others

theorem decomposes_scan (offset : Nat) (text : List Char) : ∀ before : List Char,
    before.length = offset →
      Decomposes before text (scan offset text).tokens (scan offset text).rest := by
  fun_induction scan offset text with
  | case1 => exact fun before place => .rest [] (by decide)
  | case2 offset c rest blank ih =>
    intro before place
    exact (ih (before ++ [c]) (by simp [place])).skip blank
  | case3 offset c rest visible missing => exact fun before place => .rest [] (by decide)
  | case4 offset c rest visible token found width following ih =>
    intro before place
    obtain ⟨column, behind, chars, front⟩ := front_of_tokenAt found
    have drop : (c :: rest).drop width = behind := by rw [chars, drop_lexeme]
    have further : (before ++ [] ++ token.lexeme.toList).length = offset + width := by
      rw [List.append_nil, List.length_append, place, String.length_toList]
    have others := ih _ further
    rw [drop] at others
    have whole := Decomposes.token [] (by decide) front others
    rw [List.append_nil, place, ← column, List.nil_append, ← chars, ← drop] at whole
    exact whole

/-- The scan goes on with the rest, after the tokens of the decomposition. -/
theorem Decomposes.scan_eq (h : Decomposes before text tokens rest) :
    ∃ front, text = front ++ rest ∧
      scan before.length text =
        ⟨tokens ++ (scan (before ++ front).length rest).tokens,
          (scan (before ++ front).length rest).stop⟩ := by
  induction h with
  | @rest before rest blanks blank =>
    refine ⟨blanks, rfl, ?_⟩
    rw [scan_blanks blank, List.length_append, List.nil_append]
  | @token before behind rest kind lexeme tokens blanks blank front others ih =>
    obtain ⟨inner, rfl, scanned⟩ := ih
    refine ⟨blanks ++ (lexeme.toList ++ inner), by simp, ?_⟩
    have columns : (before ++ blanks).length + lexeme.length =
        (before ++ blanks ++ lexeme.toList).length := by
      rw [@List.length_append _ (before ++ blanks), String.length_toList]
    rw [scan_blanks blank, ← List.length_append, scan_token front, columns, scanned]
    simp only [List.append_assoc, List.cons_append]

theorem Decomposes.precedes (h : Decomposes before text tokens rest) :
    (∀ t ∈ tokens, ∃ i, t.offset = some i ∧ before.length ≤ i) ∧
      tokens.Pairwise Token.Precedes := by
  induction h with
  | rest blanks blank => exact ⟨by simp, .nil⟩
  | @token before behind rest kind lexeme tokens blanks blank front others ih =>
    obtain ⟨later, ordered⟩ := ih
    simp only [List.length_append, String.length_toList] at later
    refine ⟨List.forall_mem_cons.mpr ⟨⟨_, rfl, ?_⟩, fun t member => ?_⟩,
      List.pairwise_cons.mpr ⟨fun t member => ?_, ordered⟩⟩
    · rw [List.length_append]
      omega
    · obtain ⟨i, offset, le⟩ := later t member
      exact ⟨i, offset, by omega⟩
    · obtain ⟨i, offset, le⟩ := later t member
      refine ⟨(before ++ blanks).length, i, rfl, offset, front.length_pos, ?_⟩
      rw [List.length_append]
      exact le

theorem Decomposes.isName (h : Decomposes before text tokens rest) :
    ∀ t ∈ tokens, ∀ name, t.kind = .identifier name → IsName name := by
  induction h with
  | rest blanks blank => simp
  | token blanks blank front others ih =>
    refine List.forall_mem_cons.mpr ⟨?_, ih⟩
    rintro name rfl
    exact front.isName

theorem Decomposes.symbol?_ne_endOfText (h : Decomposes before text tokens rest) :
    ∀ t ∈ tokens, t.symbol? ≠ some .endOfText := by
  have unwritten : ∀ entry ∈ Symbol.table, entry.1 ≠ .endOfText := by decide
  induction h with
  | rest blanks blank => simp
  | token blanks blank front others ih =>
    refine List.forall_mem_cons.mpr ⟨?_, ih⟩
    cases front with
    | symbol listed only => exact fun same => unwritten _ listed (Option.some.inj same)
    | identifier nonempty letters longest unspelled => nofun

/-! ## Splitting a text -/

theorem tokenize_eq_ok_iff {source : String} {tokens : List Token} :
    tokenize source = .ok tokens ↔ scan 0 source.toList = ⟨tokens, none⟩ := by
  cases scanned : scan 0 source.toList with
  | mk read stop => cases stop <;> simp [tokenize, scanned, Scan.toExcept]

theorem tokenize_eq_error_iff {source : String} {stop : Stop} :
    tokenize source = .error stop ↔ (scan 0 source.toList).stop = some stop := by
  cases scanned : scan 0 source.toList with
  | mk read stop => cases stop <;> simp [tokenize, scanned, Scan.toExcept]

theorem decomposes_of_tokenize {source : String} (h : tokenize source = .ok tokens) :
    Decomposes [] source.toList tokens [] := by
  have decomposes := decomposes_scan 0 source.toList [] rfl
  rw [tokenize_eq_ok_iff.mp h] at decomposes
  exact decomposes

/-- A text that can be split is blanks and lexemes in turn, each lexeme being the only spelling or
the longest run of letters where it stands, and the tokens say what they are and where. Otherwise
this is true of the text up to the place of the stop, where there is neither. The tokens do not
overlap, and the order of the table of spellings does not matter. -/
theorem tokenize_decomposes (source : String) :
    (∀ tokens, tokenize source = .ok tokens ↔ Decomposes [] source.toList tokens []) ∧
    (∀ stop, tokenize source = .error stop ↔
      Unreadable stop.remaining ∧
        (∃ tokens, Decomposes [] source.toList tokens stop.remaining) ∧
        ∃ front, source.toList = front ++ stop.remaining ∧ stop.offset = front.length) ∧
    (∀ tokens rest, Decomposes [] source.toList tokens rest → tokens.Pairwise Token.Precedes) ∧
    ∀ table : List (Symbol × String), table.Perm Symbol.table → ∀ text : List Char,
      table.find? (fun (_, spelling) => spelling.toList.isPrefixOf text) = symbolAt text := by
  refine ⟨fun tokens => ⟨decomposes_of_tokenize, fun parts => ?_⟩,
    fun stop => ⟨fun stopped => ?_, fun ⟨unreadable, ⟨tokens, parts⟩, front, chars, place⟩ => ?_⟩,
    fun tokens rest parts => parts.precedes.2, fun table => find?_eq_symbolAt⟩
  · obtain ⟨front, -, scanned⟩ := parts.scan_eq
    rw [tokenize_eq_ok_iff]
    simpa [scan] using scanned
  · have isStop := tokenize_eq_error_iff.mp stopped
    obtain ⟨unreadable, front, chars, place⟩ := stop_of_scan 0 source.toList isStop
    rw [Nat.zero_add] at place
    have decomposes := decomposes_scan 0 source.toList [] rfl
    rw [Scan.rest, isStop] at decomposes
    exact ⟨unreadable, ⟨_, decomposes⟩, front, chars, place⟩
  · obtain ⟨front', chars', scanned⟩ := parts.scan_eq
    obtain rfl : front = front' := List.append_cancel_right (chars.symm.trans chars')
    rw [unreadable.scan_eq, List.nil_append, ← place] at scanned
    rw [tokenize_eq_error_iff]
    exact congrArg Scan.stop scanned

/-- The spelling `not` is cut off from the letter that follows it, a wide blank is skipped, and
reading stops at `=`, which begins no spelling here. -/
theorem tokenize_decomposes_stopped :
    tokenize "notx\u3000&=y" = .error ⟨6, ['=', 'y']⟩ ∧
      [(⟨.symbol .not, "not", some 0⟩ : Token), ⟨.identifier "x", "x", some 3⟩,
        ⟨.symbol .and, "&", some 5⟩].Pairwise Token.Precedes ∧
      Symbol.table.reverse.find? (fun (_, spelling) =>
        spelling.toList.isPrefixOf "notx".toList) = symbolAt "notx".toList := by
  have sign : Front ['=', 'y'] (.symbol .and) "&" := front_of_listed (by decide) _
  have letter : Front ['\u3000', '&', '=', 'y'] (.identifier "x") "x" :=
    front_of_isName (by decide +kernel) rfl
  have word : Front ['x', '\u3000', '&', '=', 'y'] (.symbol .not) "not" :=
    front_of_listed (by decide) _
  have parts : Decomposes [] "notx\u3000&=y".toList
      [⟨.symbol .not, "not", some 0⟩, ⟨.identifier "x", "x", some 3⟩,
        ⟨.symbol .and, "&", some 5⟩] ['=', 'y'] :=
    .token [] (by decide) word <| .token [] (by decide) letter <|
      .token ['\u3000'] (by decide) sign <| .rest [] (by decide)
  have unreadable : Unreadable ['=', 'y'] :=
    ⟨by decide, by decide, by decide +kernel, rfl⟩
  obtain ⟨-, stops, ordered, sameTable⟩ := tokenize_decomposes "notx\u3000&=y"
  refine ⟨(stops _).mpr ⟨unreadable, ⟨_, parts⟩, "notx\u3000&".toList, ?_, ?_⟩,
    ordered _ _ parts, sameTable _ (List.reverse_perm _) _⟩
  · decide
  · decide

end Lexer

end PredicateCalculus
