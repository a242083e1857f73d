import OneDef.Proofs.Pieces

/-!
# Scanning by pieces

Scanning a text is reading its pieces.  Good pieces become tokens in their order, with blanks left out.
The first piece that is not good is where the scan fails, and everything from there on is the remainder.
Both halves follow from one statement: a good text in front is read as if it stood alone, provided that
no run goes on behind it.
-/

namespace OneDef.Pieces

open Lexeme

/-- A run of letters, a run of digits, a punctuation mark or a blank. -/
def Good (piece : List Char) : Prop :=
  (∀ c ∈ piece, c.isAlpha) ∨ (∀ c ∈ piece, c.isDigit) ∨ piece = ['('] ∨ piece = [')'] ∨
    piece = [','] ∨ ∃ c, isBlank c ∧ piece = [c]

/-- The token of a piece that starts at an offset. -/
def tokenAt (start : Nat) (piece : List Char) : Option Token :=
  (kind? piece).map fun kind ↦ ⟨kind, String.ofList piece, ⟨start, start + Text.size piece⟩⟩

/-- The tokens of pieces that stand one behind the other from an offset on. -/
def tokensAt : Nat → List (List Char) → List Token
  | _, [] => []
  | start, piece :: others =>
    (tokenAt start piece).toList ++ tokensAt (start + Text.size piece) others

section Blanks

variable {c : Char} {piece others : List Char}

theorem isBlank_iff : isBlank c ↔
    c = ' ' ∨ c = '\t' ∨ c = '\n' ∨ c = '\x0b' ∨ c = '\x0c' ∨ c = '\r' ∨ c = '\x00' := by
  simp [isBlank, or_assoc]

theorem isWordChar_of_isBlank (h : isBlank c) : isWordChar c = false := by
  obtain rfl | rfl | rfl | rfl | rfl | rfl | rfl := isBlank_iff.1 h <;> rfl

theorem kind?_of_isBlank (h : isBlank c) : kind? [c] = none := by
  obtain rfl | rfl | rfl | rfl | rfl | rfl | rfl := isBlank_iff.1 h <;> rfl

theorem IsPiece.eq_nil_of_isBlank (h : IsPiece (c :: others)) (hc : isBlank c) : others = [] := by
  cases h with
  | run _ hword =>
    have hnot := isWordChar_of_isBlank hc
    simp [hword c List.mem_cons_self] at hnot
  | other _ => rfl

theorem separated_of_blanks {cs gap : List Char} (h : gap.all isBlank) : Separated cs gap := by
  intro a _ b hb
  have hblank : isBlank b := List.all_eq_true.1 h b (List.mem_of_mem_head? hb)
  simp [joined, isWordChar_of_isBlank hblank]

theorem good_of_isBlank (h : isBlank c) : Good [c] := .inr (.inr (.inr (.inr (.inr ⟨c, h, rfl⟩))))

theorem good_of_fits {kind : Kind} (h : Fits kind piece) : Good piece := by
  cases kind with
  | defWord | endWord =>
    obtain rfl := h
    exact .inl (List.all_eq_true.1 rfl)
  | identifier => exact .inl (List.all_eq_true.1 h.2)
  | integer => exact .inr (.inl (List.all_eq_true.1 h.2))
  | openParen => exact .inr (.inr (.inl h))
  | closeParen => exact .inr (.inr (.inr (.inl h)))
  | comma => exact .inr (.inr (.inr (.inr (.inl h))))

/-- A good piece is a blank or the text of a token. -/
theorem IsPiece.good_iff (h : IsPiece piece) :
    Good piece ↔ (∃ c, isBlank c ∧ piece = [c]) ∨ ∃ kind, kind? piece = some kind := by
  constructor
  · have hfits (kind : Kind) (h : Fits kind piece) : ∃ kind, kind? piece = some kind :=
      Option.isSome_iff_exists.1 (isSome_kind?_of_fits h)
    rintro (hgood | hgood | hgood | hgood | hgood | hblank)
    · exact .inr (hfits .identifier ⟨h.ne_nil, List.all_eq_true.2 hgood⟩)
    · exact .inr (hfits .integer ⟨h.ne_nil, List.all_eq_true.2 hgood⟩)
    · exact .inr (hfits .openParen hgood)
    · exact .inr (hfits .closeParen hgood)
    · exact .inr (hfits .comma hgood)
    · exact .inl hblank
  · rintro (⟨c, hc, rfl⟩ | ⟨kind, hkind⟩)
    · exact good_of_isBlank hc
    · exact good_of_fits (fits_of_kind? hkind)

end Blanks

section Steps

variable {offset : Nat} {kind : Kind} {c : Char} {piece others rest : List Char}

theorem tokenAt_of_isBlank (h : isBlank c) : tokenAt offset [c] = none := by
  rw [tokenAt, kind?_of_isBlank h, Option.map_none]

theorem ofText_blanks {gap : List Char} (offset : Nat) (h : gap.all isBlank) :
    Scan.ofText offset gap = ⟨[], .ok ()⟩ := by
  induction gap generalizing offset with
  | nil => exact Scan.ofText_nil offset
  | cons c gap ih =>
    rw [List.all_cons, Bool.and_eq_true] at h
    rw [Scan.ofText_blank offset h.1, ih _ h.2]

theorem not_isBlank_of_kind? (hpiece : IsPiece (c :: others)) (h : kind? (c :: others) = some kind) :
    ¬isBlank c := by
  intro hc
  obtain rfl := hpiece.eq_nil_of_isBlank hc
  simp [kind?_of_isBlank hc] at h

theorem ofText_token_piece (hpiece : IsPiece piece) (hrest : Separated piece rest)
    (hkind : kind? piece = some kind) (hlimit : offset + Text.size piece ≤ Span.limit) :
    Scan.ofText offset (piece ++ rest) =
      ⟨⟨kind, String.ofList piece, ⟨offset, offset + Text.size piece⟩⟩ ::
        (Scan.ofText (offset + Text.size piece) rest).tokens,
        (Scan.ofText (offset + Text.size piece) rest).ending⟩ := by
  have hfirst : first? (piece ++ rest) = some ⟨kind, piece, rest⟩ := by
    rw [first?_piece hpiece hrest, hkind, Option.map_some]
  cases piece with
  | nil => exact absurd rfl hpiece.ne_nil
  | cons c others =>
    have hstart : offset ≤ Span.limit := by omega
    rw [List.cons_append] at hfirst ⊢
    rw [Scan.ofText_token (not_isBlank_of_kind? hpiece hkind) hfirst hlimit]
    simp only [Lexeme.token, Span.between_of_le hstart hlimit]

theorem ofText_endless_piece (hpiece : IsPiece piece) (hrest : Separated piece rest)
    (hkind : kind? piece = some kind) (hlimit : Span.limit < offset + Text.size piece) :
    (Scan.ofText offset (piece ++ rest)).ending = .endless := by
  have hfirst : first? (piece ++ rest) = some ⟨kind, piece, rest⟩ := by
    rw [first?_piece hpiece hrest, hkind, Option.map_some]
  cases piece with
  | nil => exact absurd rfl hpiece.ne_nil
  | cons c others =>
    rw [List.cons_append] at hfirst ⊢
    rw [Scan.ofText_endless (not_isBlank_of_kind? hpiece hkind) hfirst hlimit]

theorem isBlank_of_ofText (hpiece : IsPiece piece) (hrest : Separated piece rest)
    (hkind : kind? piece = none) (h : (Scan.ofText offset (piece ++ rest)).ending = .ok ()) :
    ∃ c, isBlank c ∧ piece = [c] := by
  have hfirst : first? (piece ++ rest) = none := by
    rw [first?_piece hpiece hrest, hkind, Option.map_none]
  cases piece with
  | nil => exact absurd rfl hpiece.ne_nil
  | cons c others =>
    by_cases hc : isBlank c
    · exact ⟨c, hc, by rw [hpiece.eq_nil_of_isBlank hc]⟩
    · rw [List.cons_append] at hfirst h
      rw [Scan.ofText_noMatch offset hc hfirst] at h
      cases h

theorem ofText_bad_piece (hpiece : IsPiece (c :: others)) (hrest : Separated (c :: others) rest)
    (hbad : ¬Good (c :: others)) (hlimit : offset + Text.size (c :: others) ≤ Span.limit) :
    Scan.ofText offset (c :: others ++ rest) =
      ⟨[], .error (.noMatch (String.ofList (c :: others ++ rest)) ⟨offset, offset + c.utf8Size⟩)⟩ := by
  rw [hpiece.good_iff, not_or] at hbad
  obtain ⟨hblank, hkind⟩ := hbad
  have hc : ¬isBlank c := by
    intro hc
    obtain rfl := hpiece.eq_nil_of_isBlank hc
    exact hblank ⟨c, hc, rfl⟩
  have hfirst : first? (c :: others ++ rest) = none := by
    rw [first?_piece hpiece hrest, Option.map_eq_none_iff]
    exact Option.eq_none_iff_forall_ne_some.2 fun kind h ↦ hkind ⟨kind, h⟩
  rw [Text.size_cons] at hlimit
  rw [List.cons_append] at hfirst ⊢
  rw [Scan.ofText_noMatch offset hc hfirst, Span.between_of_le (by omega) (by omega)]

end Steps

section Runs

variable {offset : Nat} {cs ds : List Char}

/-- All pieces of a text are good. -/
def AllGood (cs : List Char) : Prop := ∀ piece ∈ pieces cs, Good piece

/-- A good text in front of another is read as if it stood alone. -/
theorem ofText_good_append (hgood : AllGood cs) (hds : Separated cs ds)
    (hlimit : offset + Text.size cs ≤ Span.limit) :
    Scan.ofText offset (cs ++ ds) =
      ⟨tokensAt offset (pieces cs) ++ (Scan.ofText (offset + Text.size cs) ds).tokens,
        (Scan.ofText (offset + Text.size cs) ds).ending⟩ := by
  induction cs using pieces_induction generalizing offset with
  | nil => rfl
  | append piece rest hpiece hrest ih =>
    rw [AllGood, hpiece.pieces_append hrest, List.forall_mem_cons] at hgood
    rw [Text.size_append, ← Nat.add_assoc] at hlimit ⊢
    have hread := ih hgood.2 hds.of_append_left hlimit
    have hsep := hrest.of_append_right hds
    rw [hpiece.pieces_append hrest, List.append_assoc, tokensAt, List.append_assoc]
    obtain ⟨c, hc, rfl⟩ | ⟨kind, hkind⟩ := hpiece.good_iff.1 hgood.1
    · rw [List.singleton_append, Scan.ofText_blank offset hc, tokenAt_of_isBlank hc]
      exact hread
    · rw [ofText_token_piece hpiece hsep hkind (by omega), hread, tokenAt, hkind]
      rfl

theorem ofText_good (hgood : AllGood cs) (hlimit : offset + Text.size cs ≤ Span.limit) :
    Scan.ofText offset cs = ⟨tokensAt offset (pieces cs), .ok ()⟩ := by
  have hnil : Separated cs [] := fun _ _ _ h ↦ by simp at h
  simpa using ofText_good_append hgood hnil hlimit

/-- A text that is not all good has a first piece that is not good. -/
theorem exists_first_bad (h : ¬AllGood cs) :
    ∃ front c others rest, cs = front ++ (c :: others ++ rest) ∧ AllGood front ∧
      Separated front (c :: others ++ rest) ∧ IsPiece (c :: others) ∧
      Separated (c :: others) rest ∧ ¬Good (c :: others) := by
  induction cs using pieces_induction with
  | nil => exact absurd (by simp [AllGood]) h
  | append piece rest hpiece hrest ih =>
    by_cases hgood : Good piece
    · have hbad : ¬AllGood rest := by
        intro hall
        rw [AllGood, hpiece.pieces_append hrest, List.forall_mem_cons] at h
        exact h ⟨hgood, hall⟩
      obtain ⟨front, c, others, tail, rfl, hfront, hsep, hc, htail, hnot⟩ := ih hbad
      refine ⟨piece ++ front, c, others, tail, (List.append_assoc ..).symm, ?_, hrest.append hsep,
        hc, htail, hnot⟩
      rw [AllGood, hpiece.pieces_append hrest.of_append, List.forall_mem_cons]
      exact ⟨hgood, hfront⟩
    · cases piece with
      | nil => exact absurd rfl hpiece.ne_nil
      | cons c others =>
        exact ⟨[], c, others, rest, rfl, by simp [AllGood], fun _ h ↦ by simp at h, hpiece, hrest,
          hgood⟩

/-- A text of any size that is scanned to its end is good, and its pieces are read.  Past the largest
offset nothing but blanks can follow. -/
theorem good_of_ofText (h : (Scan.ofText offset cs).ending = .ok ()) :
    AllGood cs ∧ (Scan.ofText offset cs).tokens = tokensAt offset (pieces cs) := by
  induction cs using pieces_induction generalizing offset with
  | nil => simp [AllGood, tokensAt]
  | append piece rest hpiece hrest ih =>
    rw [AllGood, hpiece.pieces_append hrest, List.forall_mem_cons, tokensAt]
    cases hkind : kind? piece with
    | some kind =>
      have hgood : Good piece := good_of_fits (fits_of_kind? hkind)
      rcases Nat.lt_or_ge Span.limit (offset + Text.size piece) with hlimit | hlimit
      · rw [ofText_endless_piece hpiece hrest hkind hlimit] at h
        cases h
      · rw [ofText_token_piece hpiece hrest hkind hlimit] at h ⊢
        obtain ⟨hall, htokens⟩ := ih h
        refine ⟨⟨hgood, hall⟩, ?_⟩
        rw [tokenAt, hkind, htokens]
        rfl
    | none =>
      obtain ⟨c, hc, rfl⟩ := isBlank_of_ofText hpiece hrest hkind h
      rw [List.singleton_append, Scan.ofText_blank offset hc] at h ⊢
      obtain ⟨hall, htokens⟩ := ih h
      refine ⟨⟨hpiece.good_iff.2 (.inl ⟨c, hc, rfl⟩), hall⟩, ?_⟩
      rw [tokenAt_of_isBlank hc, Text.size_cons, Text.size_nil, htokens]
      rfl

variable {source : String}

theorem lex_of_allGood (hlimit : source.utf8ByteSize ≤ Span.limit) (h : AllGood source.toList) :
    lex source = .ok (tokensAt 0 (pieces source.toList)) := by
  rw [← Text.size_toList] at hlimit
  rw [lex, scan, ofText_good h (by omega)]
  rfl

theorem lex_of_not_allGood (hlimit : source.utf8ByteSize ≤ Span.limit) (h : ¬AllGood source.toList) :
    ∃ before c others after, pieces source.toList = before ++ (c :: others) :: after ∧
      (∀ piece ∈ before, Good piece) ∧ ¬Good (c :: others) ∧
      lex source = .error (.noMatch (String.ofList ((c :: others) :: after).flatten)
        ⟨Text.size before.flatten, Text.size before.flatten + c.utf8Size⟩) := by
  obtain ⟨front, c, others, rest, hsource, hfront, hsep, hpiece, hrest, hnot⟩ := exists_first_bad h
  rw [← Text.size_toList, hsource, Text.size_append, Text.size_append] at hlimit
  refine ⟨pieces front, c, others, pieces rest, ?_, hfront, hnot, ?_⟩
  · rw [hsource, pieces_append hsep, hpiece.pieces_append hrest]
  · rw [lex, scan, hsource, ofText_good_append hfront hsep (by omega),
      ofText_bad_piece hpiece hrest hnot (by omega)]
    simp [Scan.result, Verdict.map]

/-- Whatever its size, a text is scanned in no other way than by its pieces. -/
theorem eq_tokensAt_of_lex {ts : List Token} (h : lex source = .ok ts) :
    AllGood source.toList ∧ ts = tokensAt 0 (pieces source.toList) := by
  obtain ⟨hending, rfl⟩ := Scan.result_eq_ok_iff.1 h
  exact good_of_ofText hending

/-- Blanks behind a good text change nothing. -/
theorem lex_append_blanks {gap : String} (hlimit : source.utf8ByteSize ≤ Span.limit)
    (h : AllGood source.toList) (hgap : gap.toList.all isBlank) :
    lex (source ++ gap) = .ok (tokensAt 0 (pieces source.toList)) := by
  rw [← Text.size_toList] at hlimit
  rw [lex, scan, String.toList_append, ofText_good_append h (separated_of_blanks hgap) (by omega),
    ofText_blanks _ hgap]
  simp [Scan.result, Verdict.map]

/-- Only good texts can be scanned, and only one way. -/
theorem lex_eq_ok_iff {ts : List Token} (hlimit : source.utf8ByteSize ≤ Span.limit) :
    lex source = .ok ts ↔ AllGood source.toList ∧ ts = tokensAt 0 (pieces source.toList) := by
  constructor
  · exact eq_tokensAt_of_lex
  · rintro ⟨hgood, rfl⟩
    exact lex_of_allGood hlimit hgood

end Runs

/-- Scanning equals reading the pieces of the source, which is cut in one way only.  If all are good, each
of them that is not blank is one token, in their order, at its own byte range.  Otherwise the first
character of the first piece that is not good is reported, with the whole source from there on. -/
theorem lex_eq_pieces (source : String) (h : source.utf8ByteSize ≤ Span.limit) :
    (∀ ps, IsCut source.toList ps ↔ ps = pieces source.toList) ∧
      ((∀ piece ∈ pieces source.toList, Good piece) →
        lex source = .ok (tokensAt 0 (pieces source.toList))) ∧
      ((∃ piece ∈ pieces source.toList, ¬Good piece) →
        ∃ before c others after, pieces source.toList = before ++ (c :: others) :: after ∧
          (∀ piece ∈ before, Good piece) ∧ ¬Good (c :: others) ∧
          lex source = .error (.noMatch (String.ofList ((c :: others) :: after).flatten)
            ⟨Text.size before.flatten, Text.size before.flatten + c.utf8Size⟩)) := by
  refine ⟨fun ps ↦ isCut_iff, lex_of_allGood h, ?_⟩
  rintro ⟨piece, hpiece, hbad⟩
  exact lex_of_not_allGood h fun hgood ↦ hbad (hgood piece hpiece)

/-- A keyword and a number with every blank between them, and two runs behind a keyword that are refused as a
whole: one mixes letters with a digit, the other with an underscore. -/
theorem lex_eq_pieces_mixed_run :
    let spread := "def \t\n\x0b\x0c\r\x007"
    let fails (source : String) (error : LexError) : Prop := source.utf8ByteSize ≤ Span.limit ∧
      (∃ piece ∈ pieces source.toList, ¬Good piece) ∧ lex source = .error error ∧
        ∃ before c others after, pieces source.toList = before ++ (c :: others) :: after ∧
          (∀ piece ∈ before, Good piece) ∧ ¬Good (c :: others) ∧
          lex source = .error (.noMatch (String.ofList ((c :: others) :: after).flatten)
            ⟨Text.size before.flatten, Text.size before.flatten + c.utf8Size⟩)
    (spread.utf8ByteSize ≤ Span.limit ∧ (∀ piece ∈ pieces spread.toList, Good piece) ∧
      lex spread = .ok [⟨.defWord, "def", ⟨0, 3⟩⟩, ⟨.integer, "7", ⟨10, 11⟩⟩]) ∧
    fails "def end1" (.noMatch "end1" ⟨4, 5⟩) ∧ fails "def x_y\x0b" (.noMatch "x_y\x0b" ⟨4, 5⟩) := by
  intro spread fails
  have hlimit : spread.utf8ByteSize ≤ Span.limit := by decide
  have hgood : ∀ piece ∈ pieces spread.toList, Good piece := by
    have hpieces : pieces spread.toList =
        ['d', 'e', 'f'] :: [' ', '\t', '\n', '\x0b', '\x0c', '\r', '\x00'].map ([·]) ++ [['7']] := by
      decide
    rw [hpieces]
    simp only [List.map_cons, List.map_nil, List.cons_append, List.nil_append, List.forall_mem_cons]
    exact ⟨good_of_fits (show Fits .defWord _ from rfl), good_of_isBlank rfl, good_of_isBlank rfl,
      good_of_isBlank rfl, good_of_isBlank rfl, good_of_isBlank rfl, good_of_isBlank rfl,
      good_of_isBlank rfl, good_of_fits (show Fits .integer _ by decide), by simp⟩
  have htokens : tokensAt 0 (pieces spread.toList) =
      [⟨.defWord, "def", ⟨0, 3⟩⟩, ⟨.integer, "7", ⟨10, 11⟩⟩] := by decide
  refine ⟨⟨hlimit, hgood, ((lex_eq_pieces _ hlimit).2.1 hgood).trans (congrArg Verdict.ok htokens)⟩, ?_, ?_⟩
  · have hbad : ∃ piece ∈ pieces "def end1".toList, ¬Good piece := by
      refine ⟨['e', 'n', 'd', '1'], by decide, ?_⟩
      rintro (h | h | h | h | h | ⟨c, -, h⟩)
      all_goals revert h
      all_goals simp
    exact ⟨by decide, hbad, by decide +kernel, (lex_eq_pieces _ (by decide)).2.2 hbad⟩
  · have hbad : ∃ piece ∈ pieces "def x_y\x0b".toList, ¬Good piece := by
      refine ⟨['x', '_', 'y'], by decide, ?_⟩
      rintro (h | h | h | h | h | ⟨c, -, h⟩)
      all_goals revert h
      all_goals simp
    exact ⟨by decide, hbad, by decide +kernel, (lex_eq_pieces _ (by decide)).2.2 hbad⟩

end OneDef.Pieces
