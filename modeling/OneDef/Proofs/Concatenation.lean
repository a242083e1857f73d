import OneDef.Proofs.Subtrees

/-!
# Texts one behind the other

Where no run of word characters goes on from one text into the next, scanning both at once is scanning one
after the other.  The tokens of the second text are the same as if it stood alone, moved behind the first
one, and so is its error.  An error of the first text stays where it is, and only its remainder grows.

A scan that fails has the same shape every time: a good text, and a piece behind it that is not good.  That
shape does not change with the offset, nor with a text that is put behind it.
-/

namespace OneDef

def LexError.mapOffsets (f : Nat → Nat) : LexError → LexError
  | noMatch remainder span => .noMatch remainder (span.mapOffsets f)

namespace Pieces

section Failures

variable {offset amount : Nat} {c : Char} {cs ds front others rest : List Char}

/-- A good text, and a piece behind it that is not good. -/
structure Stops (front : List Char) (c : Char) (others rest : List Char) : Prop where
  allGood : AllGood front
  separated : Separated front (c :: others ++ rest)
  isPiece : IsPiece (c :: others)
  separated_rest : Separated (c :: others) rest
  not_good : ¬Good (c :: others)

theorem exists_stops (h : ¬AllGood cs) :
    ∃ front c others rest, cs = front ++ (c :: others ++ rest) ∧ Stops front c others rest := by
  obtain ⟨front, c, others, rest, hcs, hgood, hsep, hpiece, hrest, hnot⟩ := exists_first_bad h
  exact ⟨front, c, others, rest, hcs, hgood, hsep, hpiece, hrest, hnot⟩

theorem Stops.ofText (h : Stops front c others rest)
    (hlimit : offset + Text.size (front ++ (c :: others ++ rest)) ≤ Span.limit) :
    Scan.ofText offset (front ++ (c :: others ++ rest)) =
      ⟨tokensAt offset (pieces front), .error (.noMatch (String.ofList (c :: others ++ rest))
        ⟨offset + Text.size front, offset + Text.size front + c.utf8Size⟩)⟩ := by
  rw [Text.size_append, Text.size_append] at hlimit
  rw [ofText_good_append h.allGood h.separated (by omega),
    ofText_bad_piece h.isPiece h.separated_rest h.not_good (by omega), List.append_nil]

theorem Stops.not_isBlank (h : Stops front c others rest) : ¬Lexeme.isBlank c := by
  intro hc
  obtain rfl := h.isPiece.eq_nil_of_isBlank hc
  exact h.not_good (h.isPiece.good_iff.2 (.inl ⟨c, hc, rfl⟩))

/-- What stands behind a piece that is not good does not matter, as long as it does not make the piece
longer. -/
theorem Stops.append (h : Stops front c others rest)
    (hds : Separated (front ++ (c :: others ++ rest)) ds) : Stops front c others (rest ++ ds) where
  allGood := h.allGood
  separated := h.separated
  isPiece := h.isPiece
  separated_rest := h.separated_rest.of_append_right hds.of_append_left
  not_good := h.not_good

/-- A text that is scanned further behind gives the same tokens and the same error there. -/
theorem ofText_add (hlimit : offset + amount + Text.size cs ≤ Span.limit) :
    Scan.ofText (offset + amount) cs =
      ⟨(Scan.ofText offset cs).tokens.map (Token.mapOffsets (· + amount)),
        (Scan.ofText offset cs).ending.mapError (LexError.mapOffsets (· + amount))⟩ := by
  by_cases hgood : AllGood cs
  · rw [ofText_good hgood hlimit, ofText_good hgood (by omega), tokensAt_add]
    rfl
  · obtain ⟨front, c, others, rest, rfl, hstops⟩ := exists_stops hgood
    have hstart : offset + amount + Text.size front = offset + Text.size front + amount := by omega
    have hstop : offset + Text.size front + amount + c.utf8Size =
        offset + Text.size front + c.utf8Size + amount := by omega
    rw [hstops.ofText hlimit, hstops.ofText (by omega), tokensAt_add, hstart, hstop]
    rfl

end Failures

section Sources

variable {source a b : String} {c : Char} {front others rest : List Char} {ta : List Token}

theorem Stops.lex_eq (h : Stops front c others rest) (hlimit : source.utf8ByteSize ≤ Span.limit)
    (hsource : source.toList = front ++ (c :: others ++ rest)) :
    lex source = .error (.noMatch (String.ofList (c :: others ++ rest))
      ⟨Text.size front, Text.size front + c.utf8Size⟩) := by
  rw [← Text.size_toList, hsource] at hlimit
  unfold lex scan
  rw [hsource, h.ofText (by omega), Nat.zero_add]
  rfl

theorem exists_stops_of_lex {error : LexError} (hlimit : source.utf8ByteSize ≤ Span.limit)
    (h : lex source = .error error) :
    ∃ front c others rest, source.toList = front ++ (c :: others ++ rest) ∧ Stops front c others rest ∧
      error = .noMatch (String.ofList (c :: others ++ rest))
        ⟨Text.size front, Text.size front + c.utf8Size⟩ := by
  have hbad : ¬AllGood source.toList := by
    intro hgood
    rw [lex_of_allGood hlimit hgood] at h
    cases h
  obtain ⟨front, c, others, rest, hsource, hstops⟩ := exists_stops hbad
  rw [hstops.lex_eq hlimit hsource] at h
  exact ⟨front, c, others, rest, hsource, hstops, (Verdict.error.inj h).symm⟩

/-- A source within the limit is scanned to an end. -/
theorem lex_ne_endless (hlimit : source.utf8ByteSize ≤ Span.limit) : lex source ≠ .endless := by
  by_cases hgood : AllGood source.toList
  · rw [lex_of_allGood hlimit hgood]
    nofun
  · obtain ⟨front, c, others, rest, hsource, hstops⟩ := exists_stops hgood
    rw [hstops.lex_eq hlimit hsource]
    nofun

/-- Behind a text that is scanned, another one is scanned as if it stood alone, further behind. -/
theorem lex_append_of_ok (hlimit : (a ++ b).utf8ByteSize ≤ Span.limit)
    (hsep : Separated a.toList b.toList) (h : lex a = .ok ta) :
    lex (a ++ b) = ((lex b).map (ta ++ ·.map (Token.mapOffsets (· + a.utf8ByteSize)))).mapError
      (LexError.mapOffsets (· + a.utf8ByteSize)) := by
  obtain ⟨hgood, rfl⟩ := eq_tokensAt_of_lex h
  rw [String.utf8ByteSize_append, ← Text.size_toList, ← Text.size_toList] at hlimit
  have hb := @ofText_add 0 (Text.size a.toList) b.toList (by omega)
  unfold lex scan
  rw [String.toList_append, ofText_good_append hgood hsep (by omega), hb, ← Text.size_toList]
  unfold Scan.result
  cases (Scan.ofText 0 b.toList).ending <;> rfl

theorem lex_append_of_noMatch {remainder : String} {span : Span}
    (hlimit : (a ++ b).utf8ByteSize ≤ Span.limit) (hsep : Separated a.toList b.toList)
    (h : lex a = .error (.noMatch remainder span)) :
    lex (a ++ b) = .error (.noMatch (remainder ++ b) span) := by
  have ha : a.utf8ByteSize ≤ Span.limit := by
    rw [String.utf8ByteSize_append] at hlimit
    omega
  obtain ⟨front, c, others, rest, hsource, hstops, herror⟩ := exists_stops_of_lex ha h
  obtain ⟨rfl, rfl⟩ := LexError.noMatch.inj herror
  rw [hsource] at hsep
  have hboth : (a ++ b).toList = front ++ (c :: others ++ (rest ++ b.toList)) := by
    rw [String.toList_append, hsource]
    simp only [List.append_assoc]
  have hremainder : String.ofList (c :: others ++ (rest ++ b.toList)) =
      String.ofList (c :: others ++ rest) ++ b := by
    rw [← String.toList_inj, String.toList_append, String.toList_ofList, String.toList_ofList,
      List.append_assoc]
  rw [(hstops.append hsep).lex_eq hlimit hboth, hremainder]

end Sources

/-- Where no run goes on from one text into the next, scanning both is scanning the second one behind the
first, unless the first already fails. -/
theorem lex_append_of_separated (a b : String) (hlimit : (a ++ b).utf8ByteSize ≤ Span.limit)
    (hsep : Separated a.toList b.toList) :
    (∀ ta tb, lex a = .ok ta → lex b = .ok tb →
      lex (a ++ b) = .ok (ta ++ tb.map (Token.mapOffsets (· + a.utf8ByteSize)))) ∧
    (∀ ta remainder span, lex a = .ok ta → lex b = .error (.noMatch remainder span) →
      lex (a ++ b) = .error (.noMatch remainder (span.mapOffsets (· + a.utf8ByteSize)))) ∧
    ∀ remainder span, lex a = .error (.noMatch remainder span) →
      lex (a ++ b) = .error (.noMatch (remainder ++ b) span) := by
  refine ⟨fun ta tb ha hb ↦ ?_, fun ta remainder span ha hb ↦ ?_, fun remainder span ha ↦ ?_⟩
  · rw [lex_append_of_ok hlimit hsep ha, hb]
    rfl
  · rw [lex_append_of_ok hlimit hsep ha, hb]
    rfl
  · exact lex_append_of_noMatch hlimit hsep ha

/-- A name is cut off by a parenthesis, and a character of two bytes is no token on either side. -/
theorem lex_append_of_separated_parenthesis :
    let name := " def"
    let list := "(07"
    let accent := "(é"
    (Separated name.toList list.toList ∧ lex name = .ok [⟨.defWord, "def", ⟨1, 4⟩⟩] ∧
      lex list = .ok [⟨.openParen, "(", ⟨0, 1⟩⟩, ⟨.integer, "07", ⟨1, 3⟩⟩] ∧
      lex (name ++ list) = .ok [⟨.defWord, "def", ⟨1, 4⟩⟩, ⟨.openParen, "(", ⟨4, 5⟩⟩,
        ⟨.integer, "07", ⟨5, 7⟩⟩]) ∧
    (Separated name.toList accent.toList ∧ lex accent = .error (.noMatch "é" ⟨1, 3⟩) ∧
      lex (name ++ accent) = .error (.noMatch "é" ⟨5, 7⟩)) ∧
    Separated accent.toList name.toList ∧
      lex (accent ++ name) = .error (.noMatch "é def" ⟨1, 3⟩) := by
  intro name list accent
  have hname : lex name = .ok [⟨.defWord, "def", ⟨1, 4⟩⟩] := by decide +kernel
  have hlist : lex list = .ok [⟨.openParen, "(", ⟨0, 1⟩⟩, ⟨.integer, "07", ⟨1, 3⟩⟩] := by
    decide +kernel
  have haccent : lex accent = .error (.noMatch "é" ⟨1, 3⟩) := by decide +kernel
  have hfirst : Separated name.toList list.toList := separated_of_endsWord (by decide)
  have hsecond : Separated name.toList accent.toList := separated_of_endsWord (by decide)
  have hthird : Separated accent.toList name.toList := separated_of_endsWord (by decide)
  exact ⟨⟨hfirst, hname, hlist, (lex_append_of_separated name list (by decide) hfirst).1 _ _ hname hlist⟩,
    ⟨hsecond, haccent,
      (lex_append_of_separated name accent (by decide) hsecond).2.1 _ _ _ hname haccent⟩,
    hthird, (lex_append_of_separated accent name (by decide) hthird).2.2 _ _ haccent⟩

end Pieces

end OneDef
