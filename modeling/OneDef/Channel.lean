import OneDef.Error

/-!
# Readers and writers

A reader is the list of what its calls give until the input ends.  A writer takes the bytes that are
offered to it in chunks; once it has taken a given number of them, it does what a list of steps
says, call by call, and then goes on in chunks.  Interrupted calls are repeated, so they cost a call
and change nothing else.
-/

namespace OneDef

/-- What one call of a reader gives.  A call that gives no bytes is the end of the input and no step. -/
inductive ReadStep where
  | data (bytes : List UInt8) (nonempty : bytes ≠ [] := by decide)
  | interrupted
  | fail (error : IoError)
  deriving DecidableEq

abbrev Reader := List ReadStep

namespace Reader

/-- All bytes up to the end of the input. -/
def bytes : Reader → Except IoError (List UInt8)
  | [] => .ok []
  | .data chunk _ :: steps => (bytes steps).map (chunk ++ ·)
  | .interrupted :: steps => bytes steps
  | .fail error :: _ => .error error

/-- Gives bytes at once, if there are any. -/
def ofBytes (bytes : List UInt8) : Reader := if h : bytes = [] then [] else [.data bytes h]

end Reader

/-- The text that bytes are in UTF-8. -/
def decodeText (bytes : List UInt8) : Except IoError String :=
  match String.fromUTF8? ⟨bytes.toArray⟩ with
  | some text => .ok text
  | none => .error .notUtf8

/-- The bytes of a text in UTF-8. -/
def encodeText (text : String) : List UInt8 := text.toUTF8.data.toList

/-- The whole input as a text.  Bytes are decoded only when all have come, so a failed call counts
more than bytes that are no text. -/
def Reader.text (reader : Reader) : Except IoError String := reader.bytes.bind decodeText

/-- What a writer does with the bytes that one call offers. -/
inductive WriteStep where
  /-- Takes the first bytes, up to a number of them. -/
  | take (most : Nat)
  | interrupted
  | fail (error : IoError)
  deriving DecidableEq

structure Writer where
  /-- The most bytes a call takes; without it, all that are offered. -/
  chunk : Option Nat
  /-- The number of bytes in front of the steps; without it, the steps do not come. -/
  limit : Option Nat
  steps : List WriteStep
  flush : Except IoError Unit

/-- What came of writing: the bytes taken, the calls made, and whether all bytes were taken. -/
structure Written where
  taken : List UInt8
  calls : Nat
  outcome : Except IoError Unit

namespace Written

def done : Written := ⟨[], 0, .ok ()⟩

def failed (error : IoError) : Written := ⟨[], 1, .error error⟩

/-- One call that took some bytes, and what came of the rest. -/
def after (bytes : List UInt8) (rest : Written) : Written :=
  ⟨bytes ++ rest.taken, rest.calls + 1, rest.outcome⟩

/-- Two writings, the second of which needs the first to succeed. -/
def andThen (first second : Written) : Written :=
  match first.outcome with
  | .ok _ => ⟨first.taken ++ second.taken, first.calls + second.calls, second.outcome⟩
  | .error _ => first

end Written

namespace Writer

/-- Takes everything at once and flushes. -/
def plain : Writer := ⟨none, none, [], .ok ()⟩

/-- Writes in calls that each take at most `size` bytes. -/
def writeChunks (size : Nat) (bytes : List UInt8) : Written :=
  if bytes = [] then .done
  else if size = 0 then .failed .writeZero
  else .after (bytes.take size) (writeChunks size (bytes.drop size))
termination_by bytes.length
decreasing_by
  have := List.length_pos_iff.2 ‹_›
  rw [List.length_drop]
  omega

def writeEvenly (chunk : Option Nat) (bytes : List UInt8) : Written :=
  writeChunks (chunk.getD bytes.length) bytes

/-- Offers the bytes that are left, call by call, until none is left or a call fails. -/
def writeSteps (chunk : Option Nat) : List WriteStep → List UInt8 → Written
  | [], bytes => writeEvenly chunk bytes
  | step :: steps, bytes =>
    if bytes = [] then .done
    else
      match step with
      | .take most =>
        if most = 0 then .failed .writeZero
        else .after (bytes.take most) (writeSteps chunk steps (bytes.drop most))
      | .interrupted => .after [] (writeSteps chunk steps bytes)
      | .fail error => .failed error

def write (writer : Writer) (bytes : List UInt8) : Written :=
  match writer.limit with
  | none => writeEvenly writer.chunk bytes
  | some limit =>
    (writeEvenly writer.chunk (bytes.take limit)).andThen
      (writeSteps writer.chunk writer.steps (bytes.drop limit))

end Writer

/-- What came of sending a text: the bytes taken, the calls made, and the result. -/
structure Sent (ρ : Type) where
  taken : List UInt8
  writes : Nat
  flushes : Nat
  result : ρ

/-- Writes a text and flushes if all of it was taken. -/
def Writer.send (writer : Writer) (text : String) : Sent (Except IoError Unit) :=
  let written := writer.write (encodeText text)
  match written.outcome with
  | .ok _ => ⟨written.taken, written.calls, 1, writer.flush⟩
  | .error error => ⟨written.taken, written.calls, 0, .error error⟩

end OneDef
