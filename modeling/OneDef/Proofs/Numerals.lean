import OneDef.Proofs.WellFormed
import Mathlib.Data.List.TakeWhile

/-!
# The number that a literal denotes

Digits denote a number by their places, and leading zeros add nothing to it.  What is left without them is
the decimal representation of the number, so literals are kept in the same form exactly if they denote the
same number.

Literals have no size limit.  The induction goes through the digits from left to right, with the number that
the digits so far denote.
-/

namespace OneDef.Numeral

/-- A string of decimal digits that is not empty. -/
def IsNumeral (digits : String) : Prop := digits ≠ "" ∧ digits.toList.all Char.isDigit

instance (digits : String) : Decidable (IsNumeral digits) := inferInstanceAs (Decidable (_ ∧ _))

/-- The number that digits denote: each digit counts ten times as much as the next one. -/
def value (digits : String) : Nat := Nat.ofDigitChars 10 digits.toList 0

section Digits

variable {c : Char} {cs : List Char}

theorem toNat_of_isDigit (h : c.isDigit) : 48 ≤ c.toNat ∧ c.toNat ≤ 57 := by
  have hbounds : (c.val ≥ 48 && c.val ≤ 57) = true := h
  rw [Bool.and_eq_true, decide_eq_true_eq, decide_eq_true_eq] at hbounds
  exact ⟨UInt32.le_iff_toNat_le.1 hbounds.1, UInt32.le_iff_toNat_le.1 hbounds.2⟩

theorem digitChar_of_isDigit (h : c.isDigit) : (c.toNat - 48).digitChar = c := by
  have hbounds := toNat_of_isDigit h
  apply Char.toNat_inj.1
  rw [Nat.toNat_digitChar_of_lt_ten (by omega)]
  omega

/-- Digits behind those of a positive number are the last digits of a larger one. -/
theorem toDigits_append {n : Nat} (hn : 0 < n) (h : cs.all Char.isDigit) :
    Nat.toDigits 10 n ++ cs = Nat.toDigits 10 (Nat.ofDigitChars 10 cs n) := by
  induction cs generalizing n with
  | nil => rw [List.append_nil, Nat.ofDigitChars_nil]
  | cons c cs ih =>
    rw [List.all_cons, Bool.and_eq_true] at h
    have hdigit : c.toNat - 48 < 10 := by
      have hbounds := toNat_of_isDigit h.1
      omega
    have hnext : Nat.toDigits 10 n ++ [c] = Nat.toDigits 10 (10 * n + (c.toNat - 48)) := by
      rw [← Nat.toDigits_append_toDigits (by decide) hn hdigit, Nat.toDigits_of_lt_base hdigit,
        digitChar_of_isDigit h.1]
    calc
      Nat.toDigits 10 n ++ c :: cs = Nat.toDigits 10 n ++ [c] ++ cs := by simp
      _ = Nat.toDigits 10 (10 * n + (c.toNat - 48)) ++ cs := by rw [hnext]
      _ = Nat.toDigits 10 (Nat.ofDigitChars 10 cs (10 * n + (c.toNat - 48))) := ih (by omega) h.2
      _ = Nat.toDigits 10 (Nat.ofDigitChars 10 (c :: cs) n) := by rw [Nat.ofDigitChars_cons]; rfl

/-- Digits without leading zeros are the decimal representation of the number that they denote. -/
theorem toDigits_ofDigitChars (hzero : c ≠ '0') (h : (c :: cs).all Char.isDigit) :
    Nat.toDigits 10 (Nat.ofDigitChars 10 (c :: cs) 0) = c :: cs := by
  rw [List.all_cons, Bool.and_eq_true] at h
  have hbounds := toNat_of_isDigit h.1
  have hpos : 0 < c.toNat - 48 := by
    have hne : c.toNat ≠ 48 := fun heq ↦ hzero (Char.toNat_inj.1 heq)
    omega
  have hfirst : Nat.toDigits 10 (c.toNat - 48) = [c] := by
    rw [Nat.toDigits_of_lt_base (by omega), digitChar_of_isDigit h.1]
  calc
    Nat.toDigits 10 (Nat.ofDigitChars 10 (c :: cs) 0)
        = Nat.toDigits 10 (Nat.ofDigitChars 10 cs (c.toNat - 48)) := by
      rw [Nat.ofDigitChars_cons, Nat.mul_zero, Nat.zero_add]; rfl
    _ = Nat.toDigits 10 (c.toNat - 48) ++ cs := (toDigits_append hpos h.2).symm
    _ = c :: cs := by rw [hfirst, List.singleton_append]

theorem ofDigitChars_dropWhile (cs : List Char) :
    Nat.ofDigitChars 10 (cs.dropWhile (· = '0')) 0 = Nat.ofDigitChars 10 cs 0 := by
  induction cs with
  | nil => rfl
  | cons c cs ih =>
    by_cases hzero : c = '0'
    · subst hzero
      rw [List.dropWhile_cons_of_pos (by decide), ih, Nat.ofDigitChars_cons, Nat.mul_zero, Nat.sub_self]
    · rw [List.dropWhile_cons_of_neg (by simpa using hzero)]

end Digits

section Literals

variable {digits : String}

theorem IsNumeral.kind? (h : IsNumeral digits) : Pieces.kind? digits.toList = some .integer := by
  apply kind?_eq_integer_iff.2
  exact ⟨fun hnil ↦ h.1 (String.toList_eq_nil_iff.1 hnil), h.2⟩

theorem isNumeral_canonical (h : IsNumeral digits) : IsNumeral (canonical digits) := by
  have hkind := kind?_eq_integer_iff.1 (isCanonical_canonical h.kind?).kind?_toList
  exact ⟨fun hempty ↦ hkind.1 (String.toList_eq_nil_iff.2 hempty), hkind.2⟩

/-- The kept form of digits is the decimal representation of the number that they denote. -/
theorem toList_canonical (h : IsNumeral digits) :
    (canonical digits).toList = Nat.toDigits 10 (value digits) := by
  unfold canonical value
  rw [← ofDigitChars_dropWhile]
  have hhead := List.head?_dropWhile_not (· = '0') digits.toList
  have hdigits : (digits.toList.dropWhile (· = '0')).all Char.isDigit := by
    apply List.all_eq_true.2
    intro c hc
    exact List.all_eq_true.1 h.2 c ((List.dropWhile_suffix _).subset hc)
  cases hkept : digits.toList.dropWhile (· = '0') with
  | nil => rfl
  | cons c cs =>
    rw [hkept] at hhead hdigits
    rw [String.toList_ofList, toDigits_ofDigitChars (by simpa using hhead) hdigits]

theorem value_canonical (h : IsNumeral digits) : value (canonical digits) = value digits := by
  rw [value, toList_canonical h, Nat.ofDigitChars_ten_toDigits]

theorem canonical_suffix (h : IsNumeral digits) : (canonical digits).toList <:+ digits.toList := by
  unfold canonical
  cases hkept : digits.toList.dropWhile (· = '0') with
  | cons c cs =>
    rw [String.toList_ofList, ← hkept]
    exact List.dropWhile_suffix _
  | nil =>
    -- nothing but zeros, and the last of them is kept
    have hne : digits.toList ≠ [] := fun hnil ↦ h.1 (String.toList_eq_nil_iff.1 hnil)
    have hzero := List.dropWhile_eq_nil_iff.1 hkept _ (List.getLast_mem hne)
    rw [decide_eq_true_eq] at hzero
    have hlast := List.dropLast_append_getLast hne
    rw [hzero] at hlast
    exact ⟨digits.toList.dropLast, hlast⟩

theorem head?_canonical (h : IsNumeral digits) (hzero : (canonical digits).toList.head? = some '0') :
    canonical digits = "0" := by
  rcases isCanonical_canonical h.kind? with hcanonical | ⟨-, -, hhead⟩
  · exact hcanonical
  · exact absurd hzero hhead

theorem canonical_eq_iff {digits' : String} (h : IsNumeral digits) (h' : IsNumeral digits') :
    canonical digits = canonical digits' ↔ value digits = value digits' := by
  constructor
  · intro heq
    calc
      value digits = value (canonical digits) := (value_canonical h).symm
      _ = value (canonical digits') := by rw [heq]
      _ = value digits' := value_canonical h'
  · intro heq
    apply String.toList_inj.1
    rw [toList_canonical h, toList_canonical h', heq]

end Literals

/-- The kept form of a numeral is a numeral, and the last part of the digits that were read.  It has no
leading zero unless it is zero, denotes the same number and is kept as it is.  Two numerals have the same
kept form exactly if they denote the same number. -/
theorem canonical_is_unique_form (digits digits' : String) (h : IsNumeral digits)
    (h' : IsNumeral digits') :
    IsNumeral (canonical digits) ∧ (canonical digits).toList <:+ digits.toList ∧
      ((canonical digits).toList.head? = some '0' → canonical digits = "0") ∧
      value (canonical digits) = value digits ∧ canonical (canonical digits) = canonical digits ∧
      (canonical digits = canonical digits' ↔ value digits = value digits') :=
  ⟨isNumeral_canonical h, canonical_suffix h, head?_canonical h, value_canonical h,
    (isCanonical_canonical h.kind?).canonical_eq, canonical_eq_iff h h'⟩

/-- Only the zeros in front go, also where the number is too large for a machine word, and of nothing but zeros
one is left. -/
theorem canonical_is_unique_form_zeros :
    let long := "00100000000000000000000"
    let short := "100000000000000000000"
    let zeros := "000"
    (IsNumeral long ∧ IsNumeral short ∧ IsNumeral zeros) ∧
      (IsNumeral (canonical long) ∧ (canonical long).toList <:+ long.toList ∧
        value (canonical long) = 100000000000000000000 ∧ canonical (canonical long) = canonical long ∧
        canonical long = canonical short) ∧
      (canonical zeros).toList <:+ zeros.toList ∧ canonical zeros = "0" ∧
        canonical zeros ≠ canonical short := by
  intro long short zeros
  have hlong : IsNumeral long := by decide
  have hshort : IsNumeral short := by decide
  have hzeros : IsNumeral zeros := by decide
  have hvalue : value long = 100000000000000000000 := by decide
  obtain ⟨hdigits, hsuffix, -, hkept, hagain, hiff⟩ := canonical_is_unique_form long short hlong hshort
  obtain ⟨-, hsuffix', hzero, -, -, hiff'⟩ := canonical_is_unique_form zeros short hzeros hshort
  refine ⟨⟨hlong, hshort, hzeros⟩, ⟨hdigits, hsuffix, hkept.trans hvalue, hagain, ?_⟩, hsuffix', ?_, ?_⟩
  · exact hiff.2 (by decide)
  · exact hzero (by decide)
  · intro heq
    exact absurd (hiff'.1 heq) (by decide)

end OneDef.Numeral
