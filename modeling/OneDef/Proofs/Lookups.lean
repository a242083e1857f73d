import OneDef.Proofs.Positions
import Mathlib.Data.List.TakeWhile

/-!
# Positions in order

A position can be looked up without walking along the table of starts.  Halving the table finds how many lines
start at or before the offset, the start of the last of them is read from the table, and the column is what is
left of the offset behind it.  The last two steps may fail: the table may not have that line, and its start may
lie behind the offset.

They do not fail in the line map of a source, however long it is.  All that matters is that the table begins
with 0 and is in order, and saturated starts, which are equal, are in order too.  For the same reason a later
offset has a later position: it has reached at least as many lines, and if it has reached no more of them, then
it is further behind the start of the same line.
-/

namespace OneDef

namespace Position

/-- Positions are in the order of their lines, and those of one line in the order of their columns. -/
instance : LT Position := ⟨fun p q ↦ p.line < q.line ∨ p.line = q.line ∧ p.column < q.column⟩

variable {p q : Position}

theorem lt_iff : p < q ↔ p.line < q.line ∨ p.line = q.line ∧ p.column < q.column := Iff.rfl

theorem ne_of_lt (h : p < q) : p ≠ q := by
  rintro rfl
  rw [lt_iff] at h
  omega

end Position

namespace LineMap

/-- The number of starts up to an offset, if it lies between `low` and `high`. -/
def countBetween (starts : List Nat) (offset low high : Nat) : Nat :=
  if low < high then
    let middle := (low + high) / 2
    if starts[middle]?.any (· ≤ offset) then countBetween starts offset (middle + 1) high
    else countBetween starts offset low middle
  else low
termination_by high - low

/-- The position of an offset, unless the table lacks its line or has it start behind the offset. -/
def lookup? (map : LineMap) (offset : Nat) : Option Position := do
  let index := countBetween map.starts offset 0 map.starts.length - 1
  let start ← map.starts[index]?
  if start ≤ offset then some ⟨index + 1, offset - start + 1⟩ else none

/-- What is known of a table halfway through a search: the offset has reached the starts in front of `low`, and
none from `high` on. -/
structure Bracket (starts : List Nat) (offset low high : Nat) : Prop where
  low_le_high : low ≤ high
  high_le_length : high ≤ starts.length
  reached : ∀ {i start}, starts[i]? = some start → i < low → start ≤ offset
  unreached : ∀ {i start}, starts[i]? = some start → high ≤ i → offset < start

section Search

variable {starts : List Nat} {offset low high middle index i j first second : Nat}

theorem le_of_pairwise (horder : starts.Pairwise (· ≤ ·)) (hfirst : starts[i]? = some first)
    (hsecond : starts[j]? = some second) (h : i ≤ j) : first ≤ second := by
  obtain ⟨hi, rfl⟩ := List.getElem?_eq_some_iff.1 hfirst
  obtain ⟨hj, rfl⟩ := List.getElem?_eq_some_iff.1 hsecond
  obtain rfl | hlt := Nat.eq_or_lt_of_le h
  · exact Nat.le_refl _
  · exact List.pairwise_iff_getElem.1 horder i j hi hj hlt

theorem bracket_whole (starts : List Nat) (offset : Nat) : Bracket starts offset 0 starts.length where
  low_le_high := Nat.zero_le _
  high_le_length := Nat.le_refl _
  reached _ hlt := absurd hlt (Nat.not_lt_zero _)
  unreached hstart hle := absurd (List.getElem?_eq_some_iff.1 hstart).1 (Nat.not_lt.2 hle)

namespace Bracket

/-- The offset has reached the start in the middle, and so those in front of it. -/
theorem raise (h : Bracket starts offset low high) (horder : starts.Pairwise (· ≤ ·)) (hlt : middle < high)
    (hmiddle : starts[middle]?.any (· ≤ offset)) : Bracket starts offset (middle + 1) high where
  low_le_high := hlt
  high_le_length := h.high_le_length
  reached hstart hi := by
    obtain ⟨start, hget, hle⟩ := (Option.any_eq_true _ _).1 hmiddle
    exact (le_of_pairwise horder hstart hget (Nat.le_of_lt_succ hi)).trans (of_decide_eq_true hle)
  unreached := h.unreached

/-- The offset has not reached the start in the middle, nor those behind it. -/
theorem lower (h : Bracket starts offset low high) (horder : starts.Pairwise (· ≤ ·)) (hle : low ≤ middle)
    (hlt : middle < high) (hmiddle : ¬starts[middle]?.any (· ≤ offset)) :
    Bracket starts offset low middle where
  low_le_high := hle
  high_le_length := hlt.le.trans h.high_le_length
  reached := h.reached
  unreached hstart hi := by
    have hget := List.getElem?_eq_getElem (hlt.trans_le h.high_le_length)
    have hnot := (Option.any_eq_false _ _).1 (Bool.eq_false_of_not_eq_true hmiddle) _ hget
    exact (Nat.lt_of_not_le (of_decide_eq_false hnot)).trans_le (le_of_pairwise horder hget hstart hi)

theorem takeWhile_eq_take (h : Bracket starts offset index index) :
    starts.takeWhile (· ≤ offset) = starts.take index := by
  have hfront : ∀ start ∈ starts.take index, decide (start ≤ offset) = true := by
    intro start hstart
    obtain ⟨i, hi, rfl⟩ := List.mem_take_iff_getElem.1 hstart
    have hget := List.getElem?_eq_getElem (hi.trans_le (Nat.min_le_right _ _))
    exact decide_eq_true (h.reached hget (hi.trans_le (Nat.min_le_left _ _)))
  have hback : (starts.drop index).takeWhile (· ≤ offset) = [] := by
    apply List.takeWhile_eq_nil_iff.2
    intro hlength hle
    rw [List.get_eq_getElem, List.getElem_drop, decide_eq_true_eq] at hle
    rw [List.length_drop] at hlength
    have hlt : index < starts.length := by omega
    exact Nat.not_lt.2 hle (h.unreached (List.getElem?_eq_getElem hlt) (Nat.le_refl index))
  calc starts.takeWhile (· ≤ offset)
    _ = (starts.take index ++ starts.drop index).takeWhile (· ≤ offset) := by
      rw [List.take_append_drop]
    _ = starts.take index := by
      rw [List.takeWhile_append_of_pos hfront, hback, List.append_nil]

/-- A later offset has reached at least as many starts. -/
theorem le_of_le {other : Nat} (h : Bracket starts first index index) (h' : Bracket starts second other other)
    (hle : first ≤ second) : index ≤ other := by
  by_contra! hlt
  -- The start behind the second bound is reached by the first offset and not by the second.
  have hget := List.getElem?_eq_getElem (hlt.trans_le h.high_le_length)
  have hreached := h.reached hget hlt
  have hunreached := h'.unreached hget (Nat.le_refl other)
  omega

end Bracket

/-- Each step of the search keeps what its bounds say, and it ends where they meet. -/
theorem bracket_countBetween (h : Bracket starts offset low high) (horder : starts.Pairwise (· ≤ ·)) :
    Bracket starts offset (countBetween starts offset low high) (countBetween starts offset low high) := by
  fun_induction countBetween starts offset low high with
  | case1 low high hlt middle hmiddle ih => exact ih (h.raise horder (by omega) hmiddle)
  | case2 low high hlt middle hmiddle ih => exact ih (h.lower horder (by omega) (by omega) hmiddle)
  | case3 low high hge =>
    obtain rfl : low = high := Nat.le_antisymm h.low_le_high (Nat.not_lt.1 hge)
    exact h

end Search

/-- The first line starts at the beginning, and no line starts in front of an earlier one. -/
structure WellFormed (map : LineMap) : Prop where
  first : map.starts[0]? = some 0
  ordered : map.starts.Pairwise (· ≤ ·)

theorem wellFormed_ofSource (source : String) : (ofSource source).WellFormed := ⟨rfl, pairwise_starts source⟩

namespace WellFormed

variable {map : LineMap} {first second : Nat}

/-- The last line that an offset has reached is in the table, and the position counts from its start. -/
theorem exists_start (h : map.WellFormed) (offset : Nat) : ∃ index start,
    countBetween map.starts offset 0 map.starts.length = index + 1 ∧
    Bracket map.starts offset (index + 1) (index + 1) ∧
    map.starts[index]? = some start ∧ start ≤ offset ∧
    map.position offset = ⟨index + 1, offset - start + 1⟩ := by
  have hbracket := bracket_countBetween (bracket_whole map.starts offset) h.ordered
  obtain ⟨index, hindex⟩ : ∃ index, countBetween map.starts offset 0 map.starts.length = index + 1 := by
    apply Nat.exists_eq_add_one_of_ne_zero
    intro hzero
    rw [hzero] at hbracket
    exact Nat.not_lt_zero _ (hbracket.unreached h.first (Nat.le_refl 0))
  rw [hindex] at hbracket
  have hget := List.getElem?_eq_getElem (Nat.lt_of_succ_le hbracket.high_le_length)
  refine ⟨index, _, hindex, hbracket, hget, hbracket.reached hget (Nat.lt_succ_self index), ?_⟩
  have hlength : (map.starts.take (index + 1)).length = index + 1 :=
    List.length_take_of_le hbracket.high_le_length
  rw [position, hbracket.takeWhile_eq_take, List.getLastD_eq_getLast?, List.getLast?_eq_getElem?, hlength,
    Nat.add_sub_cancel, List.getElem?_take_of_lt (Nat.lt_succ_self index), hget, Option.getD_some]

theorem lookup?_eq (h : map.WellFormed) (offset : Nat) :
    map.lookup? offset = some (map.position offset) := by
  obtain ⟨index, start, hcount, -, hstart, hle, hposition⟩ := h.exists_start offset
  rw [lookup?, hcount, Nat.add_sub_cancel, hstart, hposition]
  exact if_pos hle

theorem one_le_position (h : map.WellFormed) (offset : Nat) :
    1 ≤ (map.position offset).line ∧ 1 ≤ (map.position offset).column := by
  obtain ⟨index, start, -, -, -, -, hposition⟩ := h.exists_start offset
  rw [hposition]
  exact ⟨Nat.le_add_left 1 index, Nat.le_add_left 1 _⟩

theorem position_lt (h : map.WellFormed) (hlt : first < second) : map.position first < map.position second := by
  obtain ⟨i, start, -, hbracket, hstart, hle, hfirst⟩ := h.exists_start first
  obtain ⟨j, other, -, hbracket', hother, -, hsecond⟩ := h.exists_start second
  rw [hfirst, hsecond, Position.lt_iff]
  obtain hlines | hlines := Nat.lt_or_eq_of_le (hbracket.le_of_le hbracket' hlt.le)
  · exact .inl hlines
  · obtain rfl : i = j := Nat.succ.inj hlines
    obtain rfl : start = other := Option.some.inj (hstart.symm.trans hother)
    exact .inr ⟨rfl, by dsimp only; omega⟩

end WellFormed

/-- In a source of any length, also past the limit, every offset is found: its line is in the table and starts
at or before it, and lines and columns count from one.  Of two offsets the later one has the later position. -/
theorem positions_in_order (source : String) (first second : Nat) (h : first < second) :
    (∀ offset, (ofSource source).lookup? offset = some ((ofSource source).position offset) ∧
      1 ≤ ((ofSource source).position offset).line ∧ 1 ≤ ((ofSource source).position offset).column) ∧
    (ofSource source).position first < (ofSource source).position second ∧
    (ofSource source).position first ≠ (ofSource source).position second := by
  have hmap := wellFormed_ofSource source
  have hlt := hmap.position_lt h
  exact ⟨fun offset ↦ ⟨hmap.lookup?_eq offset, hmap.one_le_position offset⟩, hlt, Position.ne_of_lt hlt⟩

section FarFeeds

/-- Two line feeds behind a line of so many letters. -/
def farFeeds (letters : Nat) : String := String.ofList (List.replicate letters 'a' ++ ['\n', '\n'])

theorem startsBehind_replicate (offset letters : Nat) (cs : List Char) :
    startsBehind offset (List.replicate letters 'a' ++ cs) = startsBehind (offset + letters) cs := by
  induction letters generalizing offset with
  | zero => rfl
  | succ letters ih =>
    have hone : startsBehind offset ('a' :: (List.replicate letters 'a' ++ cs)) =
        startsBehind (offset + 1) (List.replicate letters 'a' ++ cs) := rfl
    rw [List.replicate_succ, List.cons_append, hone, ih, Nat.add_right_comm, Nat.add_assoc]

theorem starts_farFeeds (letters : Nat) : (ofSource (farFeeds letters)).starts =
    [0, Span.clamp (letters + 1), Span.clamp (letters + 2)] := by
  rw [ofSource, farFeeds, String.toList_ofList, startsBehind_replicate, Nat.zero_add]
  rfl

theorem lt_size_farFeeds (letters : Nat) : letters < (farFeeds letters).utf8ByteSize := by
  have hlength : (farFeeds letters).toList.length = letters + 2 := by simp [farFeeds]
  have hsize := Text.length_le_size (farFeeds letters).toList
  rw [Text.size_toList] at hsize
  omega

end FarFeeds

/-- Behind as many letters as the limit, both further lines are recorded to start at the limit.  In a table that
does not begin with 0 an offset may have no line. -/
theorem positions_in_order_saturated :
    let map := ofSource (farFeeds Span.limit)
    Span.limit < (farFeeds Span.limit).utf8ByteSize ∧ map.starts = [0, Span.limit, Span.limit] ∧
      Span.limit - 1 < Span.limit ∧ map.lookup? (Span.limit - 1) = some ⟨1, Span.limit⟩ ∧
      map.lookup? Span.limit = some ⟨3, 1⟩ ∧ (⟨1, Span.limit⟩ : Position) < ⟨3, 1⟩ ∧
      (⟨[5, 9]⟩ : LineMap).lookup? 3 = none := by
  intro map
  have hlimit : Span.limit - 1 < Span.limit := by decide
  have hstarts : map.starts = [0, Span.limit, Span.limit] := starts_farFeeds Span.limit
  have hlast : map.position (Span.limit - 1) = ⟨1, Span.limit⟩ := by
    rw [position, hstarts]
    decide
  have hnext : map.position Span.limit = ⟨3, 1⟩ := by
    rw [position, hstarts]
    decide
  obtain ⟨hfound, hlt, -⟩ := positions_in_order (farFeeds Span.limit) _ _ hlimit
  rw [hlast, hnext] at hlt
  have hnone : (⟨[5, 9]⟩ : LineMap).lookup? 3 = none := by decide +kernel
  exact ⟨lt_size_farFeeds Span.limit, hstarts, hlimit, hlast ▸ (hfound _).1, hnext ▸ (hfound _).1, hlt, hnone⟩

end LineMap

end OneDef
