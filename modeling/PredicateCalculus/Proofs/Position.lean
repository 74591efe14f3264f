import PredicateCalculus.Proofs.Grammar.Viability

/-! # Where an error points

An error has its place twice: as a run of bytes of the text's UTF-8 form, and as columns of the line
below the text. The two are counted apart and agree: whatever characters stand in front, the bytes
are those of the characters above the mark. Only at the end of the text, where there is nothing to
cover, the last character is covered and the mark stands behind it.

* `Text.Span.bytes`, `Text.Span.Within`: what a span covers, and that it cuts no character.
* `Text.spanBehind`: the span of a part of a text.
* `Lexer.Decomposes.place`: where the lexeme of a token stands.
* `Fault.token_mem_or_eq`: the token at a fault is one of the text, or the end.
* `Expr.parse_error_position`: the places that an error gives.
-/

set_option autoImplicit false

namespace PredicateCalculus

/-! ## Spans -/

namespace Text

namespace Span

def bytes (source : String) (span : Span) : ByteArray :=
  source.toByteArray.extract span.start (span.start + span.length)

/-- Both ends of the span are places between two characters of the text or at one of its ends. -/
structure Within (source : String) (span : Span) : Prop where
  start : String.Pos.Raw.IsValid source ⟨span.start⟩
  stop : String.Pos.Raw.IsValid source ⟨span.start + span.length⟩

end Span

def spanBehind (before part : String) : Span :=
  ⟨before.utf8ByteSize, part.utf8ByteSize⟩

theorem within_spanBehind (before part after : String) :
    (spanBehind before part).Within (before ++ part ++ after) := by
  constructor
  · exact String.Pos.Raw.isValid_iff_exists_append.mpr
      ⟨before, part ++ after, String.append_assoc, rfl⟩
  · refine String.Pos.Raw.isValid_iff_exists_append.mpr ⟨before ++ part, after, rfl, ?_⟩
    exact String.Pos.Raw.ext (String.utf8ByteSize_append).symm

theorem bytes_spanBehind (before part after : String) :
    (spanBehind before part).bytes (before ++ part ++ after) = part.toByteArray := by
  have whole : (before ++ part ++ after).toByteArray =
      before.toByteArray ++ (part.toByteArray ++ after.toByteArray) := by
    rw [String.toByteArray_append, String.toByteArray_append, ByteArray.append_assoc]
  have size : before.utf8ByteSize = before.toByteArray.size := rfl
  rw [Span.bytes, whole, spanBehind, ← Nat.add_zero before.utf8ByteSize, Nat.add_assoc, size,
    ByteArray.extract_append_size_add, Nat.zero_add]
  exact ByteArray.extract_append_eq_left rfl

theorem bytePosition_append (front back : List Char) :
    bytePosition (front ++ back) front.length = byteSize front := by
  rw [bytePosition, List.take_left]

theorem length_le_byteSize (text : List Char) : text.length ≤ byteSize text := by
  induction text with
  | nil => exact Nat.le_refl 0
  | cons c text ih =>
    have positive := c.utf8Size_pos
    rw [List.length_cons, byteSize]
    omega

theorem lastSpan_push (before : String) (last : Char) :
    lastSpan (before.push last).toList = spanBehind before (String.singleton last) := by
  rw [lastSpan, String.toList_push, List.getLast?_concat, List.dropLast_concat, byteSize_toList,
    spanBehind, String.utf8ByteSize_singleton]

/-- The one span of an empty text covers nothing. -/
theorem within_lastSpan (source : String) : (lastSpan source.toList).Within source := by
  rcases List.eq_nil_or_concat source.toList with empty | ⟨init, last, chars⟩
  · obtain rfl : source = "" := String.toList_eq_nil_iff.mp empty
    exact ⟨String.Pos.Raw.isValid_zero, String.Pos.Raw.isValid_zero⟩
  · obtain rfl : source = (String.ofList init).push last := by
      rw [← String.toList_inj, chars, String.toList_push, String.toList_ofList,
        List.concat_eq_append]
    have within := within_spanBehind (String.ofList init) (String.singleton last) ""
    rw [String.append_empty, String.append_singleton] at within
    rw [lastSpan_push]
    exact within

end Text

/-! ## Tokens in a text -/

namespace Lexer

/-- A token tells the characters in front of its lexeme. -/
theorem Decomposes.place {before text rest : List Char} {tokens : List Token}
    (h : Decomposes before text tokens rest) {t : Token} (member : t ∈ tokens) :
    0 < t.lexeme.length ∧ ∃ front back, before ++ text = front ++ t.lexeme.toList ++ back ∧
      t.offset = some front.length := by
  induction h with
  | rest blanks blank => cases member
  | @token before behind rest kind lexeme tokens blanks blank front others ih =>
    rcases List.mem_cons.mp member with rfl | member
    · exact ⟨front.length_pos, before ++ blanks, behind, by simp, rfl⟩
    · obtain ⟨positive, inFront, back, parts, column⟩ := ih member
      exact ⟨positive, inFront, back, by simpa using parts, column⟩

theorem place_of_tokenize {source : String} {ts : List Token} (h : tokenize source = .ok ts)
    {t : Token} (member : t ∈ ts) :
    0 < t.lexeme.length ∧ ∃ before after, source = before ++ t.lexeme ++ after ∧
      t.offset = some before.length := by
  obtain ⟨positive, front, back, parts, column⟩ := (decomposes_of_tokenize h).place member
  refine ⟨positive, String.ofList front, String.ofList back, ?_, ?_⟩
  · rw [← String.toList_inj]
    simpa using parts
  · rw [column, String.length_ofList]

end Lexer

theorem Fault.token_mem_or_eq {ts : List Token} {fault : Fault} (lexed : Lexed ts)
    (h : Parser.whole ts = .error fault) : fault.token ∈ ts ∨ fault.token = .endOfText := by
  obtain ⟨k, -, dropped⟩ := Parser.rest_of_whole lexed h
  rw [Fault.token_of_drop dropped, List.getD_eq_getElem?_getD]
  cases found : ts[k]? with
  | none => exact .inr rfl
  | some t => exact .inl (List.mem_of_getElem? found)

/-! ## Errors -/

namespace ParseError

theorem toList_underline (column width : Nat) :
    (Text.underline column width).toList = List.replicate column ' ' ++ List.replicate width '^' :=
  String.toList_ofList

theorem unreadable_position {source : String} {stop : Lexer.Stop}
    (h : Lexer.tokenize source = .error stop) :
    ∃ before first others, stop = ⟨before.length, first :: others⟩ ∧
      source = before ++ String.ofList (first :: others) ∧
      (ParseError.unreadable source stop).span =
        Text.spanBehind before (String.singleton first) := by
  obtain ⟨unreadable, front, parts, column⟩ :=
    Lexer.stop_of_scan 0 source.toList (Lexer.tokenize_eq_error_iff.mp h)
  obtain ⟨first, others, remaining⟩ := List.exists_cons_of_ne_nil unreadable.nonempty
  rw [Nat.zero_add] at column
  refine ⟨String.ofList front, first, others, ?_, ?_, ?_⟩
  · rw [← remaining, String.length_ofList, ← column]
  · rw [← String.toList_inj, parts, remaining]
    simp
  · rw [span, parts, column, Text.bytePosition_append, remaining, Text.spanBehind,
      String.utf8ByteSize_singleton, Text.byteSize_ofList]
    rfl

theorem tokenSpan_of_offset {before after : String} {t : Token} (positive : 0 < t.lexeme.length)
    (column : t.offset = some before.length) :
    tokenSpan (before ++ t.lexeme ++ after).toList t = Text.spanBehind before t.lexeme := by
  have atLeast : 1 ≤ Text.byteSize t.lexeme.toList :=
    Nat.le_trans positive (Text.length_le_byteSize t.lexeme.toList)
  rw [tokenSpan, column]
  simp only [String.toList_append, List.append_assoc]
  rw [← String.length_toList, Text.bytePosition_append, Nat.max_eq_right atLeast,
    Text.byteSize_toList, Text.byteSize_toList]
  rfl

theorem malformed_position {source : String} {fault : Fault} {ts : List Token}
    (lexed : Lexer.tokenize source = .ok ts) (member : fault.token ∈ ts) :
    ∃ before after, source = before ++ fault.token.lexeme ++ after ∧
      fault.token.offset = some before.length ∧
      (ParseError.malformed source fault).span = Text.spanBehind before fault.token.lexeme ∧
      (ParseError.malformed source fault).caret =
        Text.underline before.length fault.token.lexeme.length := by
  obtain ⟨positive, before, after, parts, column⟩ := Lexer.place_of_tokenize lexed member
  refine ⟨before, after, parts, column, ?_, ?_⟩
  · rw [span, parts]
    exact tokenSpan_of_offset positive column
  · rw [caret, column, Token.underline, column]
    exact congrArg (Text.underline before.length) (Nat.max_eq_right positive)

theorem malformed_position_end (source : String) {fault : Fault}
    (atEnd : fault.token = .endOfText) :
    fault.token.offset = none ∧
      (ParseError.malformed source fault).span = Text.lastSpan source.toList ∧
      (ParseError.malformed source fault).caret = Text.underline source.length 1 := by
  have noColumn : fault.token.offset = none := by
    rw [atEnd]
    rfl
  refine ⟨noColumn, ?_, ?_⟩
  · rw [span, tokenSpan, noColumn]
  · rw [caret, noColumn, String.length_toList]

end ParseError

namespace Expr

/-- What an error says of its place. The span never cuts a character. It is the first character that
could not be read, with the mark below it; or the lexeme of the offending token, with marks below
all of it; or, when the text ended too early, its last character, if any, with the mark behind. -/
theorem parse_error_position {source : String} {error : ParseError}
    (failed : parse source = .error error) :
    error.source = source ∧ error.span.Within source ∧
    (∀ stop, error = .unreadable source stop →
      ∃ before first others, stop.remaining = first :: others ∧
        source = before ++ String.ofList stop.remaining ∧ stop.offset = before.length ∧
        error.span = ⟨before.utf8ByteSize, first.utf8Size⟩ ∧
        error.caret.toList = List.replicate before.length ' ' ++ ['^']) ∧
    (∀ fault offset, error = .malformed source fault → fault.token.offset = some offset →
      ∃ before after, source = before ++ fault.token.lexeme ++ after ∧ before.length = offset ∧
        error.span = ⟨before.utf8ByteSize, fault.token.lexeme.utf8ByteSize⟩ ∧
        error.span.bytes source = fault.token.lexeme.toByteArray ∧
        error.caret.toList =
          List.replicate offset ' ' ++ List.replicate fault.token.lexeme.length '^') ∧
    ∀ fault, error = .malformed source fault → fault.token.offset = none →
      fault.token = .endOfText ∧ (source = "" → error.span = ⟨0, 0⟩) ∧
        (∀ (before : String) (last : Char), source = before.push last →
          error.span = ⟨before.utf8ByteSize, last.utf8Size⟩) ∧
        error.caret.toList = List.replicate source.length ' ' ++ ['^'] := by
  cases lexed : Lexer.tokenize source with
  | error stop =>
    obtain rfl : error = .unreadable source stop := by
      rw [parse, lexed] at failed
      exact (Except.error.inj failed).symm
    obtain ⟨before, first, others, rfl, parts, span⟩ := ParseError.unreadable_position lexed
    have split : source = before ++ String.singleton first ++ String.ofList others := by
      rw [parts, ← String.toList_inj]
      simp
    refine ⟨rfl, ?_, ?_, ?_, ?_⟩
    · rw [span, split]
      exact Text.within_spanBehind _ _ _
    · rintro _ ⟨⟩
      refine ⟨before, first, others, rfl, parts, rfl, ?_, ParseError.toList_underline _ 1⟩
      rw [span, Text.spanBehind, String.utf8ByteSize_singleton]
    · rintro fault offset ⟨⟩
    · rintro fault ⟨⟩
  | ok ts =>
    obtain ⟨fault, rfl, stopped⟩ := (parse_eq_error_iff lexed).mp failed
    rcases Fault.token_mem_or_eq (lexed_of_tokenize lexed) stopped with member | atEnd
    · obtain ⟨before, after, parts, column, span, caret⟩ :=
        ParseError.malformed_position lexed member
      have within := Text.within_spanBehind before fault.token.lexeme after
      have covered := Text.bytes_spanBehind before fault.token.lexeme after
      rw [← parts, ← span] at within covered
      refine ⟨rfl, within, ?_, ?_, ?_⟩
      · rintro stop ⟨⟩
      · rintro _ offset ⟨⟩ isColumn
        obtain rfl : before.length = offset := Option.some.inj (column.symm.trans isColumn)
        refine ⟨before, after, parts, rfl, span, covered, ?_⟩
        rw [caret, ParseError.toList_underline]
      · rintro _ ⟨⟩ noColumn
        rw [column] at noColumn
        cases noColumn
    · obtain ⟨noColumn, span, caret⟩ := ParseError.malformed_position_end source atEnd
      refine ⟨rfl, ?_, ?_, ?_, ?_⟩
      · rw [span]
        exact Text.within_lastSpan source
      · rintro stop ⟨⟩
      · rintro _ offset ⟨⟩ isColumn
        rw [noColumn] at isColumn
        cases isColumn
      · rintro _ ⟨⟩ -
        refine ⟨atEnd, ?_, ?_, ?_⟩
        · rintro rfl
          exact span
        · rintro before last rfl
          rw [span, Text.lastSpan_push, Text.spanBehind, String.utf8ByteSize_singleton]
        · rw [caret, ParseError.toList_underline]
          rfl

/-- Wide blanks put bytes and columns apart: in front of a character that cannot be read, in front
of an operator that cannot stand there, and at the end of a text that ends too early. -/
theorem parse_error_position_wide :
    (∃ error, parse "\u3000x\u3000=" = .error error ∧
      error.caret.toList = [' ', ' ', ' ', '^']) ∧
    (∃ error, parse "x\u3000^\u3000and" = .error error ∧
      error.span.bytes "x\u3000^\u3000and" = "and".toByteArray ∧
      error.caret.toList = [' ', ' ', ' ', ' ', '^', '^', '^']) ∧
    ∃ error, parse "x ==\u3000" = .error error ∧ error.span = ⟨4, 3⟩ ∧
      error.caret.toList = [' ', ' ', ' ', ' ', ' ', '^'] := by
  refine ⟨?_, ?_, ?_⟩
  · have stopped : Lexer.tokenize "\u3000x\u3000=" = .error ⟨3, ['=']⟩ :=
      Lexer.tokenize_eq_error_iff.mpr (by decide +kernel)
    have failed : parse "\u3000x\u3000=" = .error (.unreadable "\u3000x\u3000=" ⟨3, ['=']⟩) := by
      rw [parse, stopped]
    obtain ⟨-, -, atCharacter, -⟩ := parse_error_position failed
    obtain ⟨before, first, others, -, -, column, -, caret⟩ := atCharacter _ rfl
    rw [← column] at caret
    exact ⟨_, failed, caret⟩
  · obtain ⟨ts, lexed, test⟩ := Parser.exists_ok_of_any (Lexer.tokenize "x\u3000^\u3000and")
      (fun ts => Parser.failsWith
        (fun fault => fault.token.offset == some 4 && fault.token.lexeme == "and")
        (Parser.whole ts))
      (by decide +kernel)
    obtain ⟨fault, stopped, found⟩ := Parser.exists_error_of_failsWith test
    rw [Bool.and_eq_true, beq_iff_eq, beq_iff_eq] at found
    have failed := (parse_eq_error_iff lexed).mpr ⟨fault, rfl, stopped⟩
    obtain ⟨-, -, -, atToken, -⟩ := parse_error_position failed
    obtain ⟨before, after, -, -, -, bytes, caret⟩ := atToken fault 4 rfl found.1
    rw [found.2] at bytes caret
    exact ⟨_, failed, bytes, caret⟩
  · obtain ⟨ts, lexed, test⟩ := Parser.exists_ok_of_any (Lexer.tokenize "x ==\u3000")
      (fun ts => Parser.failsWith (fun fault => fault.token.offset == none) (Parser.whole ts))
      (by decide +kernel)
    obtain ⟨fault, stopped, found⟩ := Parser.exists_error_of_failsWith test
    rw [beq_iff_eq] at found
    have failed := (parse_eq_error_iff lexed).mpr ⟨fault, rfl, stopped⟩
    obtain ⟨-, -, -, -, atEnd⟩ := parse_error_position failed
    obtain ⟨-, -, span, caret⟩ := atEnd fault rfl found
    exact ⟨_, failed, span "x ==" '\u3000' rfl, caret⟩

end Expr

end PredicateCalculus
