import OneDef.Span
import OneDef.Text.Size

/-!
# Lines and columns

A line map is the list of offsets at which the lines of a source start.  Only a line feed ends a
line.  Starts are recorded like all offsets, so they saturate.
-/

namespace OneDef

/-- A place in a source, counted from one; columns count bytes. -/
structure Position where
  line : Nat
  column : Nat
  deriving DecidableEq

structure LineMap where
  starts : List Nat

namespace LineMap

/-- The starts of the lines that begin behind a line feed of a text at an offset. -/
def startsBehind (offset : Nat) : List Char → List Nat
  | [] => []
  | c :: cs =>
    let next := offset + c.utf8Size
    if c = '\n' then Span.clamp next :: startsBehind next cs else startsBehind next cs

def ofSource (source : String) : LineMap := ⟨0 :: startsBehind 0 source.toList⟩

/-- The line of an offset is the last one that starts at or before it. -/
def position (map : LineMap) (offset : Nat) : Position :=
  let reached := map.starts.takeWhile (· ≤ offset)
  ⟨reached.length, offset - reached.getLastD 0 + 1⟩

end LineMap

end OneDef
