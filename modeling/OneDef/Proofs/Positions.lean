import OneDef.LineMap
import Mathlib.Data.List.Sort

/-!
# Lines and columns by counting

The line of an offset is found by a search among the starts of all lines.  It is the line that counting finds:
one more than the number of line feeds among the bytes before the offset, with the column counted from behind
the last of them.

The search needs the starts to be in order, which they are even where they saturate.  Counting goes by bytes
and the starts by characters, and both agree since no byte of another character is that of a line feed.
-/

namespace OneDef

namespace Text

/-- The places of the line feeds, which are the byte 10, among the bytes before an offset. -/
def feedsBefore (bytes : List UInt8) (offset : Nat) : List Nat :=
  (List.range offset).filter fun i ↦ bytes[i]? = some 10

def bytes (source : String) : List UInt8 := source.toByteArray.data.toList

/-- The place behind the last line feed before an offset; the beginning if there is none. -/
def lineStart (source : String) (offset : Nat) : Nat :=
  match (feedsBefore (bytes source) offset).getLast? with
  | none => 0
  | some feed => feed + 1

section Bytes

variable {c : Char} {bs : List UInt8} {offset i : Nat}

theorem bytes_eq_flatMap (source : String) :
    bytes source = source.toList.flatMap String.utf8EncodeChar := by
  have hbytes := congrArg (·.data.toList) (String.toByteArray_ofList (l := source.toList))
  rw [String.ofList_toList] at hbytes
  exact hbytes.trans (congrArg Array.toList List.data_toByteArray)

theorem length_flatMap_utf8EncodeChar (cs : List Char) :
    (cs.flatMap String.utf8EncodeChar).length = size cs := by
  induction cs with
  | nil => rfl
  | cons c cs ih => rw [List.flatMap_cons, List.length_append, String.length_utf8EncodeChar, ih, size_cons]

theorem length_bytes (source : String) : (bytes source).length = source.utf8ByteSize := by
  rw [bytes_eq_flatMap, length_flatMap_utf8EncodeChar, size_toList]

theorem mem_feedsBefore_iff : i ∈ feedsBefore bs offset ↔ i < offset ∧ bs[i]? = some 10 := by
  rw [feedsBefore, List.mem_filter, List.mem_range, decide_eq_true_eq]

theorem lt_length_of_feed (h : bs[i]? = some 10) : i < bs.length := (List.getElem?_eq_some_iff.1 h).1

theorem pairwise_feedsBefore (bs : List UInt8) (offset : Nat) :
    (feedsBefore bs offset).Pairwise (· < ·) :=
  List.pairwise_lt_range.filter _

theorem feedsBefore_append (front back : List UInt8) (offset : Nat) :
    feedsBefore (front ++ back) (front.length + offset) =
      feedsBefore front front.length ++ (feedsBefore back offset).map (front.length + ·) := by
  unfold feedsBefore
  rw [List.range_add, List.filter_append, List.filter_map]
  congr 1
  · apply List.filter_congr
    intro i hi
    rw [List.getElem?_append_left (List.mem_range.1 hi)]
  · congr 1
    apply List.filter_congr
    intro i _
    rw [Function.comp_apply, List.getElem?_append_right (Nat.le_add_right _ _), Nat.add_sub_cancel_left]

/-- Past the end of the bytes there are no more feeds. -/
theorem filter_feedsBefore (bs : List UInt8) (offset : Nat) :
    (feedsBefore bs bs.length).filter (· < offset) = feedsBefore bs offset := by
  have hleft := (pairwise_feedsBefore bs bs.length).filter (· < offset)
  apply hleft.eq_of_mem_iff (pairwise_feedsBefore bs offset)
  intro i
  rw [List.mem_filter, mem_feedsBefore_iff, mem_feedsBefore_iff, decide_eq_true_eq]
  constructor
  · rintro ⟨⟨-, hfeed⟩, hlt⟩
    exact ⟨hlt, hfeed⟩
  · rintro ⟨hlt, hfeed⟩
    exact ⟨⟨lt_length_of_feed hfeed, hfeed⟩, hlt⟩

/-- No byte of another character is that of a line feed. -/
theorem ten_notMem_utf8EncodeChar (h : c ≠ '\n') : 10 ∉ String.utf8EncodeChar c := by
  have hlarge {n : Nat} (hn : 128 ≤ n) (hn' : n < 256) : (10 : UInt8) ≠ UInt8.ofNat n := by
    intro heq
    have hnat := congrArg UInt8.toNat heq
    rw [UInt8.toNat_ofNat_of_lt' hn'] at hnat
    change 10 = n at hnat
    omega
  have hsmall (hc : c.val.toNat ≤ 127) : (10 : UInt8) ≠ UInt8.ofNat c.val.toNat := by
    intro heq
    have hnat := congrArg UInt8.toNat heq
    rw [UInt8.toNat_ofNat_of_lt' (Nat.lt_of_le_of_lt hc (by decide))] at hnat
    exact h (Char.ext (UInt32.toNat_inj.1 hnat.symm))
  delta String.utf8EncodeChar
  dsimp only
  split_ifs with hc
  · simpa using hsmall hc
  · simp only [List.mem_cons, List.not_mem_nil, or_false, not_or]
    refine ⟨hlarge ?_ ?_, hlarge ?_ ?_⟩ <;> omega
  · simp only [List.mem_cons, List.not_mem_nil, or_false, not_or]
    refine ⟨hlarge ?_ ?_, hlarge ?_ ?_, hlarge ?_ ?_⟩ <;> omega
  · simp only [List.mem_cons, List.not_mem_nil, or_false, not_or]
    refine ⟨hlarge ?_ ?_, hlarge ?_ ?_, hlarge ?_ ?_, hlarge ?_ ?_⟩ <;> omega

theorem feedsBefore_utf8EncodeChar (c : Char) :
    feedsBefore (String.utf8EncodeChar c) (String.utf8EncodeChar c).length =
      if c = '\n' then [0] else [] := by
  split
  · next h =>
    subst h
    decide
  · next h =>
    apply List.eq_nil_iff_forall_not_mem.2
    intro i hi
    exact ten_notMem_utf8EncodeChar h (List.mem_of_getElem? (mem_feedsBefore_iff.1 hi).2)

end Bytes

theorem lineStart_eq (source : String) (offset : Nat) :
    lineStart source offset = ((feedsBefore (bytes source) offset).map (· + 1)).getLastD 0 := by
  rw [lineStart, List.getLastD_eq_getLast?, List.getLast?_map]
  cases (feedsBefore (bytes source) offset).getLast? <;> rfl

theorem lineStart_le (source : String) (offset : Nat) : lineStart source offset ≤ offset := by
  unfold lineStart
  split
  · exact Nat.zero_le _
  · next feed hlast => exact (mem_feedsBefore_iff.1 (List.mem_of_getLast? hlast)).1

end Text

namespace LineMap

open Text

/-- Each line but the first starts behind a line feed, at an offset that may be saturated. -/
theorem startsBehind_eq_map (offset : Nat) (cs : List Char) :
    startsBehind offset cs = (feedsBefore (cs.flatMap String.utf8EncodeChar) (size cs)).map
      fun feed ↦ Span.clamp (offset + feed + 1) := by
  induction cs generalizing offset with
  | nil => rfl
  | cons c cs ih =>
    have hfirst := feedsBefore_utf8EncodeChar c
    rw [List.flatMap_cons, size_cons, ← String.length_utf8EncodeChar, feedsBefore_append, hfirst,
      List.map_append, List.map_map, String.length_utf8EncodeChar]
    have hothers : (feedsBefore (cs.flatMap String.utf8EncodeChar) (size cs)).map
        ((fun feed ↦ Span.clamp (offset + feed + 1)) ∘ (c.utf8Size + ·)) =
          startsBehind (offset + c.utf8Size) cs := by
      rw [ih]
      apply List.map_congr_left
      intro feed _
      simp only [Function.comp_apply, Nat.add_assoc]
    rw [hothers]
    by_cases h : c = '\n'
    · subst h
      rfl
    · simp [startsBehind, h]

theorem starts_ofSource (source : String) :
    (ofSource source).starts = 0 :: (feedsBefore (bytes source) (bytes source).length).map
      fun feed ↦ Span.clamp (feed + 1) := by
  rw [bytes_eq_flatMap, length_flatMap_utf8EncodeChar]
  exact congrArg (0 :: ·) ((startsBehind_eq_map 0 source.toList).trans (by simp only [Nat.zero_add]))

/-- The starts of the lines are in order. -/
theorem pairwise_starts (source : String) : (ofSource source).starts.Pairwise (· ≤ ·) := by
  rw [starts_ofSource]
  refine List.pairwise_cons.2 ⟨fun start _ ↦ Nat.zero_le start, ?_⟩
  apply (pairwise_feedsBefore _ _).map
  intro first second h
  exact Span.clamp_le_clamp (Nat.succ_le_succ h.le)

/-- A search in a list that is in order finds all elements up to a bound. -/
theorem takeWhile_eq_filter {starts : List Nat} (h : starts.Pairwise (· ≤ ·)) (offset : Nat) :
    starts.takeWhile (· ≤ offset) = starts.filter (· ≤ offset) := by
  induction h with
  | nil => rfl
  | @cons start starts hstart _ ih =>
    by_cases hle : start ≤ offset
    · rw [List.takeWhile_cons_of_pos (by simpa using hle), List.filter_cons_of_pos (by simpa using hle), ih]
    · have hnone : starts.filter (· ≤ offset) = [] := by
        apply List.filter_eq_nil_iff.2
        intro other hother
        have := hstart other hother
        simp only [decide_eq_true_eq]
        omega
      rw [List.takeWhile_cons_of_neg (by simpa using hle), List.filter_cons_of_neg (by simpa using hle),
        hnone]

/-- The lines that start at an offset or before it are the first one and those behind the line feeds before
the offset. -/
theorem reached_eq {source : String} (hlimit : source.utf8ByteSize ≤ Span.limit) (offset : Nat) :
    (ofSource source).starts.takeWhile (· ≤ offset) =
      0 :: (feedsBefore (bytes source) offset).map (· + 1) := by
  have hexact (feed : Nat) (h : feed ∈ feedsBefore (bytes source) (bytes source).length) :
      Span.clamp (feed + 1) = feed + 1 := by
    have hlt := (mem_feedsBefore_iff.1 h).1
    rw [length_bytes] at hlt
    exact Span.clamp_of_le (by omega)
  rw [takeWhile_eq_filter (pairwise_starts source), starts_ofSource, List.map_congr_left hexact,
    ← filter_feedsBefore _ offset, List.filter_cons_of_pos (by simp), List.filter_map]
  rfl

/-- The starts of the lines are in order, and the line and the column of any offset are those that counting
gives: the line feeds before the offset, and the bytes from behind the last of them. -/
theorem position_eq_count (source : String) (offset : Nat) (hlimit : source.utf8ByteSize ≤ Span.limit) :
    (ofSource source).starts.Pairwise (· ≤ ·) ∧ lineStart source offset ≤ offset ∧
      (ofSource source).position offset =
        ⟨1 + (feedsBefore (bytes source) offset).length, 1 + (offset - lineStart source offset)⟩ := by
  refine ⟨pairwise_starts source, lineStart_le source offset, ?_⟩
  rw [position, reached_eq hlimit, lineStart_eq, List.length_cons, List.length_map, List.getLastD_cons,
    Nat.add_comm, Nat.add_comm 1 (offset - _)]

/-- In `é`, two line feeds, `b` and another line feed: an offset inside `é`, one at the second feed, and one
past the end. -/
theorem position_eq_count_each :
    let source := "é\n\nb\n"
    source.utf8ByteSize ≤ Span.limit ∧ (ofSource source).starts.Pairwise (· ≤ ·) ∧
      (feedsBefore (bytes source) 1 = [] ∧ lineStart source 1 = 0 ∧
        (ofSource source).position 1 = ⟨1, 2⟩) ∧
      (feedsBefore (bytes source) 3 = [2] ∧ lineStart source 3 = 3 ∧
        (ofSource source).position 3 = ⟨2, 1⟩) ∧
      feedsBefore (bytes source) 9 = [2, 3, 5] ∧ lineStart source 9 = 6 ∧
        (ofSource source).position 9 = ⟨4, 4⟩ := by
  intro source
  have hlimit : source.utf8ByteSize ≤ Span.limit := by decide
  have hinside : feedsBefore (bytes source) 1 = [] ∧ lineStart source 1 = 0 := by decide +kernel
  have hfeed : feedsBefore (bytes source) 3 = [2] ∧ lineStart source 3 = 3 := by decide +kernel
  have hpast : feedsBefore (bytes source) 9 = [2, 3, 5] ∧ lineStart source 9 = 6 := by decide +kernel
  obtain ⟨horder, -, hfirst⟩ := position_eq_count source 1 hlimit
  obtain ⟨-, -, hsecond⟩ := position_eq_count source 3 hlimit
  obtain ⟨-, -, hthird⟩ := position_eq_count source 9 hlimit
  rw [hinside.1, hinside.2] at hfirst
  rw [hfeed.1, hfeed.2] at hsecond
  rw [hpast.1, hpast.2] at hthird
  exact ⟨hlimit, horder, ⟨hinside.1, hinside.2, hfirst⟩, ⟨hfeed.1, hfeed.2, hsecond⟩, hpast.1, hpast.2,
    hthird⟩

end LineMap

end OneDef
