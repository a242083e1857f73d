import OneDef.Proofs.RoundTrip

/-!
# Slices of a source

A span of a source that starts and ends between characters has a text, its slice.  Each token of a source
is the slice at its own span.  The same holds of tokens that follow one another: the slice from the start
of the first to the end of the last is cut into the same pieces as it is in the source, so the tokens of
the slice are those tokens, at the places that they have in the source.
-/

namespace OneDef

namespace Text

variable {source text : String} {span : Span}

/-- The text at a span, if the span starts and ends between characters. -/
def slice? (source : String) (span : Span) : Option String := do
  let start ← source.pos? ⟨span.start⟩
  let stop ← source.pos? ⟨span.stop⟩
  let slice ← source.slice? start stop
  return slice.copy

theorem pos?_eq_some_iff {offset : String.Pos.Raw} {pos : source.Pos} :
    source.pos? offset = some pos ↔ pos.offset = offset := by
  unfold String.pos? String.Slice.pos?
  constructor
  · intro h
    split at h
    · obtain rfl := by simpa using h
      rfl
    · simp at h
  · rintro rfl
    have hvalid := String.Pos.Raw.isValidForSlice_eq_true_iff.2 pos.toSlice.isValidForSlice
    exact congrArg (Option.map String.Pos.ofToSlice) (dif_pos hvalid)

theorem slice?_eq_some_iff : slice? source span = some text ↔
    ∃ before after, source = before ++ text ++ after ∧ span.start = before.utf8ByteSize ∧
      span.stop = (before ++ text).utf8ByteSize := by
  simp only [slice?, bind, Option.bind_eq_some_iff, pos?_eq_some_iff, String.slice?]
  constructor
  · rintro ⟨start, hstart, stop, hstop, slice, hslice, hcopy⟩
    split at hslice
    · next hle =>
      cases hslice
      obtain ⟨before, after, hbefore, hafter⟩ :=
        String.copy_slice_eq_iff_splits.1 ⟨hle, Option.some.inj hcopy⟩
      have hfirst := hstart.symm.trans hbefore.offset_eq_rawEndPos
      have hsecond := hstop.symm.trans hafter.offset_eq_rawEndPos
      exact ⟨before, after, hafter.eq_append, congrArg String.Pos.Raw.byteIdx hfirst,
        congrArg String.Pos.Raw.byteIdx hsecond⟩
    · cases hslice
  · rintro ⟨before, after, hsource, hstart, hstop⟩
    have hbefore := String.Pos.splits_ofEqAppend (hsource.trans String.append_assoc)
    have hafter := String.Pos.splits_ofEqAppend hsource
    obtain ⟨hle, hcopy⟩ := String.copy_slice_eq_iff_splits.2 ⟨before, after, hbefore, hafter⟩
    refine ⟨_, ?_, _, ?_, _, dif_pos hle, congrArg some hcopy⟩
    · rw [hbefore.offset_eq_rawEndPos, hstart]
      rfl
    · rw [hafter.offset_eq_rawEndPos, hstop]
      rfl

-- `é` takes the bytes 1 and 2, so nothing starts at the second of them
example : slice? "aé(b" ⟨1, 4⟩ = some "é(" ∧ slice? "aé(b" ⟨2, 4⟩ = none := by decide +kernel

theorem size_ofList (cs : List Char) : (String.ofList cs).utf8ByteSize = size cs := by
  rw [← size_toList, String.toList_ofList]

theorem size_slice_le (h : slice? source span = some text) :
    text.utf8ByteSize ≤ source.utf8ByteSize := by
  obtain ⟨before, after, rfl, -, -⟩ := slice?_eq_some_iff.1 h
  simp only [String.utf8ByteSize_append]
  omega

end Text

namespace Pieces

section Places

variable {offset : Nat} {token first last : Token} {us vs : List Token} {piece : List Char}
  {ps : List (List Char)}

theorem tokenAt_eq_some (h : tokenAt offset piece = some token) :
    token.text = String.ofList piece ∧ token.span = ⟨offset, offset + Text.size piece⟩ := by
  obtain ⟨kind, -, rfl⟩ := Option.map_eq_some_iff.1 h
  exact ⟨rfl, rfl⟩

/-- A token has a piece of its own, and the tokens on its two sides are those of the pieces there. -/
def HasPiece (offset : Nat) (ps : List (List Char)) (us : List Token) (token : Token)
    (vs : List Token) : Prop :=
  ∃ qs piece rs, ps = qs ++ piece :: rs ∧ tokensAt offset qs = us ∧
    tokenAt (offset + Text.size qs.flatten) piece = some token ∧
    tokensAt (offset + Text.size qs.flatten) (piece :: rs) = token :: vs

theorem HasPiece.cons (h : HasPiece (offset + Text.size piece) ps us token vs) :
    HasPiece offset (piece :: ps) ((tokenAt offset piece).toList ++ us) token vs := by
  obtain ⟨qs, found, rs, rfl, rfl, htoken, hrs⟩ := h
  refine ⟨piece :: qs, found, rs, rfl, rfl, ?_, ?_⟩
  · rwa [List.flatten_cons, Text.size_append, ← Nat.add_assoc]
  · rwa [List.flatten_cons, Text.size_append, ← Nat.add_assoc]

theorem hasPiece_of_tokensAt (h : tokensAt offset ps = us ++ token :: vs) :
    HasPiece offset ps us token vs := by
  induction ps generalizing offset us with
  | nil => simp [tokensAt] at h
  | cons piece ps ih =>
    have hnext {rest : List Token} (h : tokensAt (offset + Text.size piece) ps = rest ++ token :: vs) :
        HasPiece offset (piece :: ps) ((tokenAt offset piece).toList ++ rest) token vs := (ih h).cons
    cases hpiece : tokenAt offset piece with
    | none =>
      rw [tokensAt, hpiece] at h
      rw [hpiece] at hnext
      exact hnext h
    | some first =>
      cases us with
      | nil =>
        have htoken : first = token := by
          rw [tokensAt, hpiece] at h
          exact (List.cons.inj h).1
        exact ⟨[], piece, ps, rfl, rfl, hpiece.trans (congrArg some htoken), h⟩
      | cons u us =>
        rw [tokensAt, hpiece] at h
        rw [hpiece] at hnext
        obtain ⟨rfl, hrest⟩ := List.cons.inj h
        exact hnext hrest

theorem exists_split_before (h : tokensAt offset ps = us ++ vs) (hfirst : vs.head? = some first) :
    ∃ qs rs, ps = qs ++ rs ∧ tokensAt (offset + Text.size qs.flatten) rs = vs ∧
      first.span.start = offset + Text.size qs.flatten := by
  obtain ⟨vs, rfl⟩ := List.head?_eq_some_iff.1 hfirst
  obtain ⟨qs, piece, rs, rfl, -, htoken, hrs⟩ := hasPiece_of_tokensAt h
  refine ⟨qs, piece :: rs, rfl, hrs, ?_⟩
  rw [(tokenAt_eq_some htoken).2]

theorem exists_split_behind (h : tokensAt offset ps = us ++ vs) (hlast : us.getLast? = some last) :
    ∃ qs rs, ps = qs ++ rs ∧ tokensAt offset qs = us ∧
      last.span.stop = offset + Text.size qs.flatten := by
  obtain ⟨us, rfl⟩ := List.getLast?_eq_some_iff.1 hlast
  rw [List.append_assoc, List.singleton_append] at h
  obtain ⟨qs, piece, rs, rfl, hqs, htoken, -⟩ := hasPiece_of_tokensAt h
  refine ⟨qs ++ [piece], rs, by simp, ?_, ?_⟩
  · rw [tokensAt_append, hqs, tokensAt, htoken]
    rfl
  · rw [(tokenAt_eq_some htoken).2]
    simp [Nat.add_assoc]

/-- A span that reaches from the start of the first of some tokens to the end of the last. -/
def Covers (span : Span) (ts : List Token) : Prop :=
  ∃ first last, ts.head? = some first ∧ ts.getLast? = some last ∧ span = first.span.join last.span

theorem exists_segment {span : Span} {before after : List Token}
    (h : tokensAt offset ps = before ++ (us ++ after)) (hspan : Covers span us) :
    ∃ qs xs rs, ps = qs ++ (xs ++ rs) ∧ tokensAt (offset + Text.size qs.flatten) xs = us ∧
      span = ⟨offset + Text.size qs.flatten,
        offset + Text.size qs.flatten + Text.size xs.flatten⟩ := by
  obtain ⟨first, last, hfirst, hlast, rfl⟩ := hspan
  have hhead : (us ++ after).head? = some first := by
    rw [List.head?_append, hfirst]
    rfl
  obtain ⟨qs, rs, rfl, hrs, hstart⟩ := exists_split_before h hhead
  obtain ⟨xs, rs, rfl, hxs, hstop⟩ := exists_split_behind hrs hlast
  refine ⟨qs, xs, rs, rfl, hxs, ?_⟩
  rw [Span.join, hstart, hstop]

end Places

section Sources

variable {source : String} {span : Span} {before us after : List Token} {token : Token}
  {qs xs rs : List (List Char)}

theorem pieces_flatten_of_segment {cs : List Char} (h : pieces cs = qs ++ (xs ++ rs)) :
    pieces xs.flatten = xs := by
  have hcut := isCut_pieces cs
  rw [h] at hcut
  have hsegment : xs <:+: qs ++ (xs ++ rs) := ⟨qs, rs, List.append_assoc ..⟩
  symm
  exact IsCut.eq_pieces ⟨rfl, fun piece hpiece ↦ hcut.isPiece piece (hsegment.subset hpiece),
    hcut.separated.infix hsegment⟩

theorem slice?_of_pieces (h : pieces source.toList = qs ++ (xs ++ rs)) :
    Text.slice? source ⟨Text.size qs.flatten, Text.size qs.flatten + Text.size xs.flatten⟩ =
      some (String.ofList xs.flatten) := by
  have hsource : source = String.ofList qs.flatten ++ String.ofList xs.flatten ++
      String.ofList rs.flatten := by
    rw [← String.toList_inj, ← flatten_pieces source.toList, h]
    simp
  refine Text.slice?_eq_some_iff.2 ⟨_, _, hsource, ?_, ?_⟩
  · rw [Text.size_ofList]
  · rw [String.utf8ByteSize_append, Text.size_ofList, Text.size_ofList]

theorem slice?_of_mem_tokensAt (h : token ∈ tokensAt 0 (pieces source.toList)) :
    Text.slice? source token.span = some token.text := by
  obtain ⟨us, vs, hts⟩ := List.append_of_mem h
  obtain ⟨qs, piece, rs, hpieces, -, htoken, -⟩ := hasPiece_of_tokensAt hts
  have hslice := slice?_of_pieces (show _ = qs ++ ([piece] ++ rs) from hpieces)
  obtain ⟨htext, hspan⟩ := tokenAt_eq_some htoken
  rw [htext, hspan, Nat.zero_add]
  rwa [List.flatten_singleton] at hslice

/-- Tokens of a source that follow one another are the tokens of their slice. -/
theorem exists_slice (hgood : AllGood source.toList)
    (h : tokensAt 0 (pieces source.toList) = before ++ (us ++ after)) (hspan : Covers span us) :
    ∃ text, Text.slice? source span = some text ∧ AllGood text.toList ∧
      tokensAt span.start (pieces text.toList) = us := by
  obtain ⟨qs, xs, rs, hpieces, hxs, rfl⟩ := exists_segment h hspan
  rw [Nat.zero_add] at hxs
  refine ⟨String.ofList xs.flatten, ?_, ?_, ?_⟩
  · rw [Nat.zero_add]
    exact slice?_of_pieces hpieces
  · rw [AllGood, String.toList_ofList, pieces_flatten_of_segment hpieces]
    intro piece hpiece
    exact hgood piece (by simp [hpieces, hpiece])
  · rwa [String.toList_ofList, pieces_flatten_of_segment hpieces, Nat.zero_add]

end Sources

end Pieces

end OneDef
