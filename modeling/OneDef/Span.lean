/-!
# Byte spans

A span is a half-open byte range of a source text.  Offsets are recorded in 32 bits and saturate:
an offset past `Span.limit` is recorded as the limit.
-/

namespace OneDef

structure Span where
  start : Nat
  stop : Nat
  deriving DecidableEq

namespace Span

/-- The largest offset that is recorded exactly, which is the largest number of 32 bits. -/
def limit : Nat := 0xFFFFFFFF

/-- An offset as it is recorded. -/
def clamp (offset : Nat) : Nat := min offset limit

def between (start stop : Nat) : Span := ⟨clamp start, clamp stop⟩

def emptyAt (offset : Nat) : Span := between offset offset

/-- From the start of the first span to the end of the second. -/
def join (first last : Span) : Span := ⟨first.start, last.stop⟩

/-- The empty span at the end of a span. -/
def behind (span : Span) : Span := ⟨span.stop, span.stop⟩

def isEmpty (span : Span) : Bool := span.stop ≤ span.start

theorem clamp_le (offset : Nat) : clamp offset ≤ limit := Nat.min_le_right _ _

theorem clamp_of_le {offset : Nat} (h : offset ≤ limit) : clamp offset = offset :=
  Nat.min_eq_left h

theorem clamp_le_clamp {a b : Nat} (h : a ≤ b) : clamp a ≤ clamp b := by
  simp only [clamp]
  omega

theorem between_of_le {start stop : Nat} (hstart : start ≤ limit) (hstop : stop ≤ limit) :
    between start stop = ⟨start, stop⟩ := by
  rw [between, clamp_of_le hstart, clamp_of_le hstop]

end Span

end OneDef
