import PredicateCalculus.Proofs.Token.Decomposition

/-! # Texts one behind the other

When blanks stand between two texts, neither text has a say in how the other one splits into tokens:
the blanks end every lexeme of the first text, and the second text is split as if it stood alone, in
columns that are counted from further left. So the tokens of the whole are those of the parts, and
where one of the parts cannot be split, the whole stops at that place.

* `Token.moved`, `Lexer.Stop.moved`, `Lexer.Scan.moved`: the same in columns further right.
* `Lexer.scan_moved`: what is found in a text does not depend on where the text stands.
* `Lexer.Decomposes.extend`: the tokens of a text stay when blanks and anything else follow.
* `Lexer.Unreadable.extend`: a stop stays when blanks and anything else follow.
* `Lexer.tokenize_append_blanks`: two texts with blanks between them.
-/

set_option autoImplicit false

namespace PredicateCalculus

def Token.moved (distance : Nat) (t : Token) : Token :=
  { t with offset := t.offset.map (· + distance) }

namespace Lexer

def Stop.moved (distance : Nat) (stop : Stop) : Stop :=
  { stop with offset := stop.offset + distance }

def Scan.moved (distance : Nat) (s : Scan) : Scan :=
  ⟨s.tokens.map (Token.moved distance), s.stop.map (Stop.moved distance)⟩

/-! ## Columns -/

theorem scan_moved (offset distance : Nat) (text : List Char) :
    scan (offset + distance) text = (scan offset text).moved distance := by
  fun_induction scan offset text with
  | case1 => rw [scan]; rfl
  | case2 offset c rest blank ih => rw [scan, if_pos blank, Nat.add_right_comm, ih]
  | case3 offset c rest visible missing => exact (unreadable_of_tokenAt visible missing).scan_eq _
  | case4 offset c rest visible token found width following ih =>
    obtain ⟨column, behind, chars, front⟩ := front_of_tokenAt found
    have others : (c :: rest).drop width = behind := by rw [chars, drop_lexeme]
    rw [others, Nat.add_right_comm] at ih
    rw [chars, scan_token front, ih, ← others]
    simp only [Scan.moved, List.map_cons, Token.moved, column, Option.map_some]
    rfl

/-! ## What follows -/

section

variable {c : Char} (blank : Text.isBlank c = true) (more : List Char)

include blank

theorem Separated.extend {text : List Char} (h : Separated text) :
    Separated (text ++ c :: more) := by
  cases text with
  | nil => exact separated_of_isBlank blank more
  | cons first text => exact h

theorem Front.extend {behind : List Char} {kind : TokenKind} {lexeme : String}
    (h : Front behind kind lexeme) : Front (behind ++ c :: more) kind lexeme := by
  cases h with
  | symbol listed only => exact front_of_listed listed _
  | identifier nonempty letters longest unspelled =>
    have isName := (Front.identifier nonempty letters longest unspelled).isName
    exact front_of_isName isName (longest.extend blank more)

theorem Decomposes.extend {before text rest : List Char} {tokens : List Token}
    (h : Decomposes before text tokens rest) :
    Decomposes before (text ++ c :: more) tokens (rest ++ c :: more) := by
  induction h with
  | rest blanks each =>
    rw [List.append_assoc]
    exact .rest blanks each
  | token blanks each front others ih =>
    rw [List.append_assoc, List.append_assoc]
    exact .token blanks each (front.extend blank more) ih

/-- A spelling has no blanks, so it does not reach beyond the text. -/
theorem Unreadable.extend {text : List Char} (h : Unreadable text) :
    Unreadable (text ++ c :: more) := by
  obtain ⟨first, others, rfl⟩ := List.exists_cons_of_ne_nil h.nonempty
  refine ⟨List.cons_ne_nil _ _, h.visible, fun entry listed begins => ?_, h.letterless⟩
  rcases List.prefix_or_prefix_of_prefix begins (List.prefix_append _ (c :: more)) with
    within | ⟨beyond, eq⟩
  · exact h.unspelled entry listed within
  · rw [← eq, List.prefix_append_right_inj] at begins
    cases beyond with
    | nil =>
      rw [List.append_nil] at eq
      exact h.unspelled entry listed (eq ▸ List.prefix_rfl)
    | cons d beyond =>
      obtain rfl : d = c := (List.cons_prefix_cons.mp begins).1
      have visible :=
        List.all_eq_true.mp (Symbol.table_blankless entry listed) d (by rw [← eq]; simp)
      rw [blank] at visible
      cases visible

end

/-- The scan of the first text goes on with the blanks and what is behind them. -/
theorem scan_append {text : List Char} {tokens : List Token} (h : Decomposes [] text tokens [])
    {c : Char} (blank : Text.isBlank c = true) (more : List Char) :
    scan 0 (text ++ c :: more) =
      ⟨tokens ++ (scan text.length (c :: more)).tokens, (scan text.length (c :: more)).stop⟩ := by
  obtain ⟨front, parts, scanned⟩ := (h.extend blank more).scan_eq
  obtain rfl : text = front := List.append_cancel_right parts
  exact scanned

theorem scan_append_stop {text : List Char} {stop : Stop}
    (h : (scan 0 text).stop = some stop) {c : Char} (blank : Text.isBlank c = true)
    (more : List Char) :
    (scan 0 (text ++ c :: more)).stop = some ⟨stop.offset, stop.remaining ++ c :: more⟩ := by
  obtain ⟨unreadable, place, chars, column⟩ := stop_of_scan 0 text h
  have decomposes := decomposes_scan 0 text [] rfl
  rw [Scan.rest, h] at decomposes
  obtain ⟨front, parts, scanned⟩ := (decomposes.extend blank more).scan_eq
  obtain rfl : place = front := by
    rw [chars, List.append_assoc] at parts
    exact List.append_cancel_right parts
  rw [(unreadable.extend blank more).scan_eq] at scanned
  rw [column, Nat.zero_add]
  exact congrArg Scan.stop scanned

/-! ## Splitting -/

theorem tokenize_of_stop {source : String} (h : (scan 0 source.toList).stop = none) :
    tokenize source = .ok (scan 0 source.toList).tokens := by
  rw [tokenize_eq_ok_iff, ← h]

/-- When blanks stand between two texts, the tokens are those of the first text and, moved, those of
the second. A stop in the first text stays, with more behind it, and one in the second is moved. -/
theorem tokenize_append_blanks (left right : String) {blanks : String}
    (blank : Blanks blanks.toList) (some : blanks ≠ "") :
    (∀ ts us, tokenize left = .ok ts → tokenize right = .ok us →
      tokenize (left ++ blanks ++ right) =
        .ok (ts ++ us.map (Token.moved (left ++ blanks).length))) ∧
    (∀ stop, tokenize left = .error stop →
      tokenize (left ++ blanks ++ right) =
        .error ⟨stop.offset, stop.remaining ++ blanks.toList ++ right.toList⟩) ∧
    ∀ ts stop, tokenize left = .ok ts → tokenize right = .error stop →
      tokenize (left ++ blanks ++ right) =
        .error ⟨stop.offset + (left ++ blanks).length, stop.remaining⟩ := by
  obtain ⟨c, others, chars⟩ :=
    List.exists_cons_of_ne_nil (fun empty => some (String.toList_eq_nil_iff.mp empty))
  have isBlank : Text.isBlank c = true := blank c (by rw [chars]; exact List.mem_cons_self)
  have whole : (left ++ blanks ++ right).toList = left.toList ++ c :: (others ++ right.toList) := by
    simp [chars]
  have behind : scan left.toList.length (c :: (others ++ right.toList)) =
      (scan 0 right.toList).moved (left ++ blanks).length := by
    rw [← List.cons_append, ← chars, scan_blanks blank, ← scan_moved, Nat.zero_add,
      String.length_append, String.length_toList, String.length_toList]
  refine ⟨fun ts us splits splits' => ?_, fun stop fails => ?_, fun ts stop splits fails => ?_⟩
  · rw [tokenize_eq_ok_iff] at splits' ⊢
    rw [whole, scan_append (decomposes_of_tokenize splits) isBlank, behind, splits']
    rfl
  · rw [tokenize_eq_error_iff] at fails ⊢
    rw [whole, scan_append_stop fails isBlank, chars]
    simp
  · rw [tokenize_eq_error_iff] at fails ⊢
    rw [whole, scan_append (decomposes_of_tokenize splits) isBlank, behind]
    simp only [Scan.moved, fails]
    rfl

/-- A wide blank and a line feed keep `xa` and `nd` apart, and `-` and `>`; a stop at `=` behind them
is found four columns further right than alone. -/
theorem tokenize_append_blanks_wide :
    (∃ ts us, tokenize "xa" = .ok ts ∧ tokenize "nd" = .ok us ∧ ts.length = 1 ∧ us.length = 1 ∧
      tokenize ("xa" ++ "\u3000\n" ++ "nd") = .ok (ts ++ us.map (Token.moved 4))) ∧
    tokenize ("x -" ++ "\u3000\n" ++ ">y") = .error ⟨2, ['-', '\u3000', '\n', '>', 'y']⟩ ∧
    tokenize ("vx" ++ "\u3000\n" ++ "y =") = .error ⟨6, ['=']⟩ := by
  have blank : Blanks "\u3000\n".toList := by decide
  have some : "\u3000\n" ≠ "" := by decide
  refine ⟨⟨_, _, tokenize_of_stop (by decide +kernel), tokenize_of_stop (by decide +kernel),
    by decide +kernel, by decide +kernel, ?_⟩, ?_, ?_⟩
  · exact (tokenize_append_blanks "xa" "nd" blank some).1 _ _
      (tokenize_of_stop (by decide +kernel)) (tokenize_of_stop (by decide +kernel))
  · have stopped : tokenize "x -" = .error ⟨2, ['-']⟩ :=
      tokenize_eq_error_iff.mpr (by decide +kernel)
    exact (tokenize_append_blanks "x -" ">y" blank some).2.1 _ stopped
  · have stopped : tokenize "y =" = .error ⟨2, ['=']⟩ :=
      tokenize_eq_error_iff.mpr (by decide +kernel)
    exact (tokenize_append_blanks "vx" "y =" blank some).2.2 _ _
      (tokenize_of_stop (by decide +kernel)) stopped

end Lexer

end PredicateCalculus
