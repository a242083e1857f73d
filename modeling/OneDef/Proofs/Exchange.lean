import OneDef.Delivery
import Mathlib.Data.List.Basic

/-!
# What is delivered

A writer answers each offer of bytes with a reply, and the next offer is what it left.  The replies to a
text, from the first offer to the last, are an exchange.  The bytes taken in an exchange are a beginning of
the text, and they are all of it exactly if the exchange succeeds.

Every writer makes an exchange of every text, and a writer that follows a given list of replies makes that
very exchange.  So whatever is known of exchanges holds of all sequences of replies: short ones, interrupted
ones, and those that fail at any byte.

On the other side, a reader gives its bytes in chunks.  These need not end between two characters, since bytes
are decoded only when all of them have come.  So readers that give the same bytes cannot be told apart by what
is delivered, down to the number of calls that the writer sees.
-/

namespace OneDef

section Reading

def ReadStep.bytes : ReadStep → List UInt8
  | data bytes _ => bytes
  | interrupted => []
  | fail _ => []

def ReadStep.failure? : ReadStep → Option IoError
  | data _ _ => none
  | interrupted => none
  | fail error => some error

/-- The failure of the first call that fails. -/
def Reader.failure? (reader : Reader) : Option IoError := reader.findSome? ReadStep.failure?

/-- The bytes of all calls, one behind the other. -/
def Reader.data (reader : Reader) : List UInt8 := reader.flatMap ReadStep.bytes

variable {reader : Reader} {bytes : List UInt8} {text : String} {error : IoError}

theorem Reader.bytes_of_failure (h : reader.failure? = some error) : reader.bytes = .error error := by
  induction reader with
  | nil => cases h
  | cons step steps ih =>
    cases step with
    | data chunk _ =>
      rw [Reader.bytes, ih h]
      rfl
    | interrupted => exact ih h
    | fail other =>
      obtain rfl : other = error := Option.some.inj h
      rfl

theorem Reader.bytes_of_no_failure (h : reader.failure? = none) : reader.bytes = .ok reader.data := by
  induction reader with
  | nil => rfl
  | cons step steps ih =>
    cases step with
    | data chunk _ =>
      rw [Reader.bytes, ih h]
      rfl
    | interrupted => exact ih h
    | fail _ => cases h

theorem Reader.failure?_ofBytes (bytes : List UInt8) : (ofBytes bytes).failure? = none := by
  unfold ofBytes
  split <;> rfl

theorem Reader.data_ofBytes (bytes : List UInt8) : (ofBytes bytes).data = bytes := by
  unfold ofBytes
  split
  · next h => exact h.symm
  · exact List.append_nil bytes

/-- Bytes are a text exactly if they are its encoding. -/
theorem decodeText_eq_ok_iff : decodeText bytes = .ok text ↔ encodeText text = bytes := by
  have hbytes : encodeText text = bytes ↔ text.toByteArray = ⟨bytes.toArray⟩ := by
    unfold encodeText
    rw [ByteArray.ext_iff]
    exact @Array.toList_inj _ _ bytes.toArray
  rw [hbytes]
  by_cases hvalid : ByteArray.IsValidUTF8 ⟨bytes.toArray⟩
  · have hdecode : decodeText bytes = .ok (String.fromUTF8 _ hvalid) := by
      unfold decodeText String.fromUTF8?
      rw [dif_pos hvalid]
    rw [hdecode, Except.ok.injEq, ← String.toByteArray_inj]
    exact eq_comm
  · have hdecode : decodeText bytes = .error .notUtf8 := by
      unfold decodeText String.fromUTF8?
      rw [dif_neg hvalid]
    rw [hdecode]
    constructor
    · intro h
      cases h
    · intro htext
      exact absurd (htext ▸ text.isValidUTF8) hvalid

theorem decodeText_of_no_text (h : ¬∃ text, encodeText text = bytes) :
    decodeText bytes = .error .notUtf8 := by
  unfold decodeText
  split
  · next text htext =>
    refine absurd ⟨text, decodeText_eq_ok_iff.1 ?_⟩ h
    unfold decodeText
    rw [htext]
  · rfl

theorem Reader.text_of_failure (h : reader.failure? = some error) : reader.text = .error error := by
  rw [Reader.text, bytes_of_failure h]
  rfl

theorem Reader.text_of_no_text (h : reader.failure? = none)
    (hdata : ¬∃ text, encodeText text = reader.data) : reader.text = .error .notUtf8 := by
  rw [Reader.text, bytes_of_no_failure h]
  exact decodeText_of_no_text hdata

theorem Reader.text_of_data (h : reader.failure? = none) (hdata : encodeText text = reader.data) :
    reader.text = .ok text := by
  rw [Reader.text, bytes_of_no_failure h]
  exact decodeText_eq_ok_iff.2 hdata

end Reading

/-- The replies to offers of some bytes, each of which offers what the one before it left, with the bytes
that were taken and what came of it. -/
inductive Exchange : List UInt8 → List WriteStep → List UInt8 → Except IoError Unit → Prop where
  | done : Exchange [] [] [] (.ok ())
  | take {part rest taken : List UInt8} {replies : List WriteStep} {outcome : Except IoError Unit}
      (hpart : part ≠ []) (h : Exchange rest replies taken outcome) :
      Exchange (part ++ rest) (.take part.length :: replies) (part ++ taken) outcome
  | interrupted {bytes taken : List UInt8} {replies : List WriteStep} {outcome : Except IoError Unit}
      (hbytes : bytes ≠ []) (h : Exchange bytes replies taken outcome) :
      Exchange bytes (.interrupted :: replies) taken outcome
  | takeNothing {bytes : List UInt8} (hbytes : bytes ≠ []) :
      Exchange bytes [.take 0] [] (.error .writeZero)
  | fail {bytes : List UInt8} {error : IoError} (hbytes : bytes ≠ []) :
      Exchange bytes [.fail error] [] (.error error)

section Exchanges

variable {bytes front back taken more : List UInt8} {replies others : List WriteStep}
  {outcome : Except IoError Unit} {error : IoError}

theorem Exchange.taken_prefix (h : Exchange bytes replies taken outcome) : taken <+: bytes := by
  induction h with
  | done => exact List.prefix_rfl
  | take _ _ ih => exact (List.prefix_append_right_inj _).2 ih
  | interrupted _ _ ih => exact ih
  | takeNothing _ => exact List.nil_prefix
  | fail _ => exact List.nil_prefix

theorem Exchange.outcome_eq_ok_iff (h : Exchange bytes replies taken outcome) :
    outcome = .ok () ↔ taken = bytes := by
  induction h with
  | done => simp
  | take _ _ ih => rw [ih, List.append_cancel_left_eq]
  | interrupted _ _ ih => exact ih
  | takeNothing hbytes => simp [hbytes.symm]
  | fail hbytes => simp [hbytes.symm]

/-- After an exchange of all bytes, the next bytes are offered. -/
theorem Exchange.append (h : Exchange front replies taken (.ok ()))
    (hback : Exchange back others more outcome) :
    Exchange (front ++ back) (replies ++ others) (taken ++ more) outcome := by
  generalize hok : Except.ok () = success at h
  induction h with
  | done => exact hback
  | take hpart _ ih =>
    rw [List.append_assoc, List.append_assoc]
    exact .take hpart (ih hok)
  | interrupted hbytes _ ih => exact .interrupted (by simp [hbytes]) (ih hok)
  | takeNothing _ => cases hok
  | fail _ => cases hok

/-- After an exchange that failed, nothing more is offered. -/
theorem Exchange.append_of_error (h : Exchange front replies taken (.error error)) (back : List UInt8) :
    Exchange (front ++ back) replies taken (.error error) := by
  generalize herror : Except.error error = failure at h ⊢
  induction h with
  | done => cases herror
  | take hpart _ ih =>
    rw [List.append_assoc]
    exact .take hpart (ih herror)
  | interrupted hbytes _ ih => exact .interrupted (by simp [hbytes]) (ih herror)
  | takeNothing hbytes => exact .takeNothing (by simp [hbytes])
  | fail hbytes => exact .fail (by simp [hbytes])

theorem writeEvenly_nil (chunk : Option Nat) : Writer.writeEvenly chunk [] = .done := by
  rw [Writer.writeEvenly, Writer.writeChunks, if_pos rfl]

/-- A writer that has a list of replies to follow makes the exchange of these replies. -/
theorem Exchange.writeSteps_eq (h : Exchange bytes replies taken outcome) (chunk : Option Nat) :
    Writer.writeSteps chunk replies bytes = ⟨taken, replies.length, outcome⟩ := by
  induction h with
  | done => exact writeEvenly_nil chunk
  | @take part rest _ _ _ hpart _ ih =>
    have hlength : part.length ≠ 0 := by simpa using hpart
    have hbytes : part ++ rest ≠ [] := by simp [hpart]
    rw [Writer.writeSteps, if_neg hbytes]
    simp only [if_neg hlength, List.take_left, List.drop_left, ih]
    rfl
  | interrupted hbytes _ ih =>
    rw [Writer.writeSteps, if_neg hbytes, ih]
    rfl
  | takeNothing hbytes =>
    rw [Writer.writeSteps, if_neg hbytes]
    rfl
  | fail hbytes =>
    rw [Writer.writeSteps, if_neg hbytes]
    rfl

end Exchanges

section Writers

variable {bytes part rest front back : List UInt8} {written first second : Written}

/-- What came of writing is what comes of an exchange, with one reply for each call. -/
def Written.Exchanged (written : Written) (bytes : List UInt8) : Prop :=
  ∃ replies, Exchange bytes replies written.taken written.outcome ∧ replies.length = written.calls

theorem exchanged_done : Written.done.Exchanged [] := ⟨[], .done, rfl⟩

theorem exchanged_writeZero (h : bytes ≠ []) : (Written.failed .writeZero).Exchanged bytes :=
  ⟨_, .takeNothing h, rfl⟩

theorem exchanged_failed {error : IoError} (h : bytes ≠ []) : (Written.failed error).Exchanged bytes :=
  ⟨_, .fail h, rfl⟩

theorem Written.Exchanged.take (h : written.Exchanged rest) (hpart : part ≠ []) :
    (Written.after part written).Exchanged (part ++ rest) := by
  obtain ⟨replies, hexchange, hcalls⟩ := h
  exact ⟨_, hexchange.take hpart, congrArg (· + 1) hcalls⟩

theorem Written.Exchanged.interrupted (h : written.Exchanged bytes) (hbytes : bytes ≠ []) :
    (Written.after [] written).Exchanged bytes := by
  obtain ⟨replies, hexchange, hcalls⟩ := h
  exact ⟨_, hexchange.interrupted hbytes, congrArg (· + 1) hcalls⟩

theorem Written.Exchanged.andThen (h : first.Exchanged front) (h' : second.Exchanged back) :
    (first.andThen second).Exchanged (front ++ back) := by
  obtain ⟨taken, calls, outcome⟩ := first
  obtain ⟨replies, hexchange, hcalls⟩ := h
  cases outcome with
  | error error => exact ⟨replies, hexchange.append_of_error back, hcalls⟩
  | ok _ =>
    obtain ⟨others, hothers, hcalls'⟩ := h'
    refine ⟨replies ++ others, hexchange.append hothers, ?_⟩
    rw [List.length_append, hcalls, hcalls']
    rfl

/-- One call that takes bytes from the front, and the exchange of those that it leaves. -/
theorem Written.Exchanged.take_drop {most : Nat} (h : written.Exchanged (bytes.drop most))
    (hbytes : bytes ≠ []) (hmost : most ≠ 0) :
    (Written.after (bytes.take most) written).Exchanged bytes := by
  have hpart : bytes.take most ≠ [] := by simp [hbytes, hmost]
  have hall := h.take hpart
  rwa [List.take_append_drop] at hall

theorem exchanged_writeChunks (size : Nat) (bytes : List UInt8) :
    (Writer.writeChunks size bytes).Exchanged bytes := by
  fun_induction Writer.writeChunks size bytes with
  | case1 => exact exchanged_done
  | case2 bytes hbytes => exact exchanged_writeZero hbytes
  | case3 bytes hbytes hsize ih => exact ih.take_drop hbytes hsize

theorem exchanged_writeSteps (chunk : Option Nat) (steps : List WriteStep) (bytes : List UInt8) :
    (Writer.writeSteps chunk steps bytes).Exchanged bytes := by
  fun_induction Writer.writeSteps chunk steps bytes with
  | case1 bytes => exact exchanged_writeChunks _ bytes
  | case2 step steps => exact exchanged_done
  | case3 steps bytes hbytes => exact exchanged_writeZero hbytes
  | case4 steps bytes hbytes most hmost ih => exact ih.take_drop hbytes hmost
  | case5 steps bytes hbytes ih => exact ih.interrupted hbytes
  | case6 steps bytes hbytes error => exact exchanged_failed hbytes

/-- Whatever a writer does, it is an exchange of the bytes. -/
theorem exchanged_write (writer : Writer) (bytes : List UInt8) :
    (writer.write bytes).Exchanged bytes := by
  unfold Writer.write
  split
  · exact exchanged_writeChunks _ bytes
  · next limit _ =>
    have h := (exchanged_writeChunks (writer.chunk.getD (bytes.take limit).length) (bytes.take limit)).andThen
      (exchanged_writeSteps writer.chunk writer.steps (bytes.drop limit))
    rwa [List.take_append_drop] at h

/-- The writer that follows a list of replies from its first call on. -/
def Writer.scripted (replies : List WriteStep) (flush : Except IoError Unit) : Writer :=
  ⟨none, some 0, replies, flush⟩

theorem Exchange.write_scripted {replies : List WriteStep} {taken : List UInt8}
    {outcome : Except IoError Unit} (h : Exchange bytes replies taken outcome)
    (flush : Except IoError Unit) :
    (Writer.scripted replies flush).write bytes = ⟨taken, replies.length, outcome⟩ := by
  change (Writer.writeEvenly none []).andThen (Writer.writeSteps none replies bytes) = _
  rw [writeEvenly_nil, h.writeSteps_eq none]
  simp [Written.andThen, Written.done]

end Writers

/-- What comes of sending by an exchange: one call for each reply, and a flush behind it if all was taken. -/
def Sent.ofExchange (replies : List WriteStep) (taken : List UInt8) (outcome flush : Except IoError Unit) :
    Sent (Verdict CompileError Unit) :=
  ⟨taken, replies.length, if outcome.isOk then 1 else 0,
    .ofExcept ((outcome.bind fun _ ↦ flush).mapError .io)⟩

/-- A text is sent by an exchange.  So a beginning of it is taken, it is flushed once if that is all of it
and not otherwise, and success means that all was taken and flushed. -/
structure Sent.Exchanged (sent : Sent (Verdict CompileError Unit)) (bytes : List UInt8)
    (flush : Except IoError Unit) : Prop where
  exchange : ∃ replies taken outcome, Exchange bytes replies taken outcome ∧
    sent = .ofExchange replies taken outcome flush
  taken_prefix : sent.taken <+: bytes
  flushes_eq : sent.flushes = if sent.taken = bytes then 1 else 0
  result_eq_ok_iff : sent.result = .ok () ↔ sent.taken = bytes ∧ flush = .ok ()

section Sending

variable {reader : Reader} {writer : Writer} {source program : String} {bytes taken : List UInt8}
  {replies : List WriteStep} {outcome : Except IoError Unit}

theorem Exchange.exchanged (h : Exchange bytes replies taken outcome) (flush : Except IoError Unit) :
    (Sent.ofExchange replies taken outcome flush).Exchanged bytes flush := by
  have hall := h.outcome_eq_ok_iff
  constructor
  case exchange => exact ⟨replies, taken, outcome, h, rfl⟩
  case taken_prefix => exact h.taken_prefix
  case flushes_eq =>
    cases outcome with
    | ok _ => exact (if_pos (hall.1 rfl)).symm
    | error error => exact (if_neg fun htaken ↦ by simpa using hall.2 htaken).symm
  case result_eq_ok_iff =>
    change Verdict.ofExcept ((outcome.bind fun _ ↦ flush).mapError CompileError.io) = .ok () ↔
      taken = bytes ∧ flush = .ok ()
    rw [← hall]
    cases outcome <;> cases flush <;> simp [Except.bind, Except.mapError, Verdict.ofExcept]

theorem deliver_of_read_error {error : IoError} (writer : Writer) (h : reader.text = .error error) :
    deliver reader writer = ⟨[], 0, 0, .error (.io error)⟩ := by
  unfold deliver
  rw [h]

theorem deliver_of_compile_error {error : CompileError} (writer : Writer)
    (hread : reader.text = .ok source) (h : compile source = .error error) :
    deliver reader writer = ⟨[], 0, 0, .error error⟩ := by
  unfold deliver
  simp only [hread, h]

theorem deliver_of_compile_endless (writer : Writer) (hread : reader.text = .ok source)
    (h : compile source = .endless) : deliver reader writer = ⟨[], 0, 0, .endless⟩ := by
  unfold deliver
  simp only [hread, h]

theorem deliver_of_write (hread : reader.text = .ok source) (h : compile source = .ok program)
    (hwrite : writer.write (encodeText (program ++ "\n")) = ⟨taken, replies.length, outcome⟩) :
    deliver reader writer = .ofExchange replies taken outcome writer.flush := by
  unfold deliver Writer.send
  simp only [hread, h, hwrite]
  cases outcome <;> rfl

/-- Whatever the writer is, it is delivered to by an exchange. -/
theorem exchanged_deliver (writer : Writer) (hread : reader.text = .ok source)
    (h : compile source = .ok program) :
    (deliver reader writer).Exchanged (encodeText (program ++ "\n")) writer.flush := by
  obtain ⟨replies, hexchange, hcalls⟩ := exchanged_write writer (encodeText (program ++ "\n"))
  have hdeliver : deliver reader writer = .ofExchange replies _ _ writer.flush :=
    deliver_of_write hread h (by rw [hcalls])
  rw [hdeliver]
  exact hexchange.exchanged writer.flush

/-- What is delivered to a writer that follows given replies. -/
theorem deliver_scripted (flush : Except IoError Unit) (hread : reader.text = .ok source)
    (h : compile source = .ok program)
    (hexchange : Exchange (encodeText (program ++ "\n")) replies taken outcome) :
    deliver reader (.scripted replies flush) = .ofExchange replies taken outcome flush :=
  deliver_of_write hread h (hexchange.write_scripted flush)

end Sending

/-- Nothing is written if the reader fails, if its bytes are no text, or if the text is not compiled, be it
that compiling never ends.
Otherwise the writer takes a beginning of the program with its line feed, by one exchange.  It is flushed
once if it took everything, and that it took everything and was flushed is what success means.  Every
exchange is possible. -/
theorem deliver_by_exchange (reader : Reader) (writer : Writer) :
    (∀ error, reader.failure? = some error →
      deliver reader writer = ⟨[], 0, 0, .error (.io error)⟩) ∧
    (reader.failure? = none → (¬∃ source, encodeText source = reader.data) →
      deliver reader writer = ⟨[], 0, 0, .error (.io .notUtf8)⟩) ∧
    ∀ source, reader.failure? = none → encodeText source = reader.data →
      (∀ error, compile source = .error error → deliver reader writer = ⟨[], 0, 0, .error error⟩) ∧
      (compile source = .endless → deliver reader writer = ⟨[], 0, 0, .endless⟩) ∧
      ∀ program, compile source = .ok program →
        (deliver reader writer).Exchanged (encodeText (program ++ "\n")) writer.flush ∧
        ∀ replies taken outcome flush, Exchange (encodeText (program ++ "\n")) replies taken outcome →
          deliver reader (.scripted replies flush) = .ofExchange replies taken outcome flush := by
  refine ⟨fun error h ↦ ?_, fun h hdata ↦ ?_, fun source h hdata ↦ ⟨fun error hcompile ↦ ?_,
    fun hcompile ↦ ?_, fun program hcompile ↦ ⟨?_, fun replies taken outcome flush hexchange ↦ ?_⟩⟩⟩
  · exact deliver_of_read_error writer (Reader.text_of_failure h)
  · exact deliver_of_read_error writer (Reader.text_of_no_text h hdata)
  · exact deliver_of_compile_error writer (Reader.text_of_data h hdata) hcompile
  · exact deliver_of_compile_endless writer (Reader.text_of_data h hdata) hcompile
  · exact exchanged_deliver writer (Reader.text_of_data h hdata) hcompile
  · exact deliver_scripted flush (Reader.text_of_data h hdata) hcompile hexchange

/-- A reader that fails late, half a character, a lone name, and a program that goes out in two parts with an
interruption between them, or stops after three bytes. -/
theorem deliver_by_exchange_each :
    let source := "def f() 1 end"
    let program := Program.assemble "function f() \x7b return 1 \x7d;"
    let bytes := encodeText (program ++ "\n")
    let broken : Reader := Reader.ofBytes (encodeText source) ++ [.fail (.failed "gone")]
    let half : Reader := [.data [0x66], .interrupted, .data [0xC3]]
    let name : Reader := .ofBytes (encodeText "f")
    let good : Reader :=
      Reader.ofBytes (encodeText "def f(") ++ .interrupted :: Reader.ofBytes (encodeText ") 1 end")
    let replies : List WriteStep := [.take 3, .interrupted, .take 0]
    let writer : Writer := ⟨some 7, some 20, [.interrupted], .error (.failed "full")⟩
    (broken.failure? = some (.failed "gone") ∧
      deliver broken writer = ⟨[], 0, 0, .error (.io (.failed "gone"))⟩) ∧
    (half.failure? = none ∧ (¬∃ text, encodeText text = half.data) ∧
      deliver half writer = ⟨[], 0, 0, .error (.io .notUtf8)⟩) ∧
    (name.failure? = none ∧ encodeText "f" = name.data ∧
      compile "f" = .error (.parse (.unexpectedToken .defWord .identifier ⟨0, 1⟩)) ∧
      deliver name writer = ⟨[], 0, 0, .error (.parse (.unexpectedToken .defWord .identifier ⟨0, 1⟩))⟩) ∧
    good.failure? = none ∧ encodeText source = good.data ∧ compile source = .ok program ∧
      (deliver good writer).Exchanged bytes writer.flush ∧
      Exchange bytes replies (bytes.take 3) (.error .writeZero) ∧
      deliver good (.scripted replies (.ok ())) = ⟨bytes.take 3, 3, 0, .error (.io .writeZero)⟩ := by
  intro source program bytes broken half name good replies writer
  have hbroken : broken.failure? = some (.failed "gone") := by decide +kernel
  have hhalf : half.failure? = none := rfl
  have hhalfData : ¬∃ text, encodeText text = half.data := by
    rintro ⟨text, htext⟩
    have hdecode : decodeText half.data = .error .notUtf8 := by decide +kernel
    rw [decodeText_eq_ok_iff.2 htext] at hdecode
    cases hdecode
  have hname : name.failure? = none := Reader.failure?_ofBytes _
  have hnameData : encodeText "f" = name.data := (Reader.data_ofBytes _).symm
  have hnameError : compile "f" = .error (.parse (.unexpectedToken .defWord .identifier ⟨0, 1⟩)) := by
    decide +kernel
  have hgood : good.failure? = none := by decide +kernel
  have hgoodData : encodeText source = good.data := by decide +kernel
  have hprogram : compile source = .ok program := by decide +kernel
  have hexchange : Exchange bytes replies (bytes.take 3) (.error .writeZero) := by
    have hpart : bytes.take 3 ≠ [] := by decide +kernel
    have hrest : bytes.drop 3 ≠ [] := by decide +kernel
    have hlength : (bytes.take 3).length = 3 := by decide +kernel
    have h := ((Exchange.takeNothing hrest).interrupted hrest).take hpart
    rwa [List.take_append_drop, List.append_nil, hlength] at h
  have hgoodAll := (deliver_by_exchange good writer).2.2 source hgood hgoodData
  exact ⟨⟨hbroken, (deliver_by_exchange broken writer).1 _ hbroken⟩,
    ⟨hhalf, hhalfData, (deliver_by_exchange half writer).2.1 hhalf hhalfData⟩,
    ⟨hname, hnameData, hnameError,
      ((deliver_by_exchange name writer).2.2 _ hname hnameData).1 _ hnameError⟩,
    hgood, hgoodData, hprogram, (hgoodAll.2.2 _ hprogram).1, hexchange,
    (hgoodAll.2.2 _ hprogram).2 _ _ _ _ hexchange⟩

section Arrival

variable {reader before after : Reader} {error : IoError}

theorem Reader.failure?_append_fail (h : before.failure? = none) :
    Reader.failure? (before ++ .fail error :: after) = some error := by
  unfold Reader.failure? at h ⊢
  rw [List.findSome?_append, h]
  rfl

/-- A reader that fails at no call is read as if its bytes came at once. -/
theorem Reader.text_eq_at_once (h : reader.failure? = none) :
    reader.text = Reader.text (.ofBytes reader.data) := by
  rw [Reader.text, Reader.text, bytes_of_no_failure h, bytes_of_no_failure (failure?_ofBytes _), data_ofBytes]

/-- Only the text of a reader counts for what is delivered. -/
theorem deliver_eq_at_once (h : reader.failure? = none) (writer : Writer) :
    deliver reader writer = deliver (.ofBytes reader.data) writer := by
  unfold deliver
  rw [Reader.text_eq_at_once h]

end Arrival

/-- Two readers that fail at no call and give the same bytes are delivered in the same way: with the same
result, the same bytes taken in the same number of calls, and the same number of flushes.  A failure is
reported as it is, whatever came in front of it, and nothing is written. -/
theorem deliver_depends_on_bytes (writer : Writer) :
    (∀ reader reader' : Reader, reader.failure? = none → reader'.failure? = none →
      reader.data = reader'.data → deliver reader writer = deliver reader' writer) ∧
    ∀ (before after : Reader) (error : IoError), before.failure? = none →
      deliver (before ++ .fail error :: after) writer = ⟨[], 0, 0, .error (.io error)⟩ := by
  constructor
  · intro reader reader' h h' hdata
    calc
      deliver reader writer = deliver (.ofBytes reader.data) writer := deliver_eq_at_once h writer
      _ = deliver (.ofBytes reader'.data) writer := by rw [hdata]
      _ = deliver reader' writer := (deliver_eq_at_once h' writer).symm
  · intro before after error h
    exact deliver_of_read_error writer (Reader.text_of_failure (Reader.failure?_append_fail h))

/-- A character that is cut in two, a program that comes in parts, and failures behind a program and behind a
byte that is no text. -/
theorem deliver_depends_on_bytes_each :
    let writer : Writer := ⟨some 7, some 20, [.interrupted], .ok ()⟩
    let whole : Reader := .ofBytes (encodeText "é")
    let halves : Reader := [.data [0xC3], .interrupted, .data [0xA9]]
    let source : Reader := .ofBytes (encodeText "def f() 1 end")
    let parts : Reader := Reader.ofBytes (encodeText "de") ++ Reader.ofBytes (encodeText "f f() 1 e") ++
      .interrupted :: Reader.ofBytes (encodeText "nd") ++ [.interrupted]
    let gone : IoError := .failed "gone"
    (whole.failure? = none ∧ halves.failure? = none ∧ whole.data = halves.data ∧
      deliver whole writer = deliver halves writer) ∧
    (source.failure? = none ∧ parts.failure? = none ∧ source.data = parts.data ∧
      deliver source writer = deliver parts writer) ∧
    deliver (source ++ [.fail gone]) writer = ⟨[], 0, 0, .error (.io gone)⟩ ∧
    deliver ([.data [0xFF]] ++ .fail gone :: source) writer = ⟨[], 0, 0, .error (.io gone)⟩ := by
  intro writer whole halves source parts gone
  have hhalves : whole.data = halves.data := by decide +kernel
  have hparts : source.data = parts.data := by decide +kernel
  have hwhole : whole.failure? = none := Reader.failure?_ofBytes _
  have hsource : source.failure? = none := Reader.failure?_ofBytes _
  have hsplit : parts.failure? = none := by decide +kernel
  have h := deliver_depends_on_bytes writer
  exact ⟨⟨hwhole, rfl, hhalves, h.1 whole halves hwhole rfl hhalves⟩,
    ⟨hsource, hsplit, hparts, h.1 source parts hsource hsplit hparts⟩,
    h.2 source [] gone hsource, h.2 [.data [0xFF]] source gone rfl⟩

end OneDef
