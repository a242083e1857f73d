import OneDef.Command.Session
import OneDef.Proofs.Diagnostics
import OneDef.Proofs.Exchange
import OneDef.Proofs.Storage

/-!
# Runs of the command

A run looks at its source first and at its sink last.  If the source cannot be read, is no text, or is
rejected by the stage, the run is refused: there is one report, and nothing else has happened.  Whether
it is refused does not depend on the sink.  Nor does it whether the run never ends, which is up to the
stage.

Any other run has a text to hand over, and it ends well exactly if its sink takes all of it.
A program for standard output is delivered, and every other text is made first and then printed or
saved.  The bytes are the same on all of these ways.
-/

namespace OneDef

section Sending

variable {source program : String}

/-- Sending succeeds exactly if all was taken and flushed. -/
theorem send_result_eq_ok_iff (writer : Writer) (text : String) :
    (writer.send text).result = .ok () ↔
      (writer.send text).taken = encodeText text ∧ writer.flush = .ok () := by
  obtain ⟨replies, hexchange, -⟩ := exchanged_write writer (encodeText text)
  have hall := hexchange.outcome_eq_ok_iff
  unfold Writer.send
  cases houtcome : (writer.write (encodeText text)).outcome with
  | ok _ =>
    have htaken := hall.1 houtcome
    simp only [houtcome, htaken, true_and]
  | error error =>
    have htaken : (writer.write (encodeText text)).taken ≠ encodeText text := by
      intro htaken
      rw [hall.2 htaken] at houtcome
      cases houtcome
    simp only [houtcome, htaken, reduceCtorEq, false_and]

theorem text_encodeText (source : String) : Reader.text (.ofBytes (encodeText source)) = .ok source :=
  Reader.text_of_data (Reader.failure?_ofBytes _) (Reader.data_ofBytes _).symm

/-- Delivering a source that compiles is sending its program. -/
theorem deliver_encodeText (writer : Writer) (h : compile source = .ok program) :
    deliver (.ofBytes (encodeText source)) writer =
      ⟨(writer.send (program ++ "\n")).taken, (writer.send (program ++ "\n")).writes,
        (writer.send (program ++ "\n")).flushes,
        .ofExcept ((writer.send (program ++ "\n")).result.mapError .io)⟩ := by
  unfold deliver
  rw [text_encodeText]
  simp only [h]

end Sending

namespace Session

/-- The lines of the log that a run writes while it looks at its source. -/
def logLines (files : FileSystem) (verbosity : Verbosity) (options : Options) : String :=
  logText verbosity (respond options (files.read options.source)).events

/-- One report: a line with a message behind `error: `, and maybe a second one that points at a place. -/
inductive IsReport : String → Prop where
  | message {message : String} (h : message ≠ "") : IsReport ("error: " ++ message ++ "\n")
  | place {message : String} {line column : Nat} {span : Span} (h : message ≠ "") :
      IsReport (Text.twoLines ("error: " ++ message) (Diagnostic.pointer line column span))

/-- The run failed with one report, behind the lines of its log, and left everything else as it was. -/
structure Report.Failed (report : Report) (files : FileSystem) (verbosity : Verbosity)
    (options : Options) (text : String) : Prop where
  isReport : IsReport text
  exit_eq : report.exit = some 1
  stdout_eq : report.stdout = []
  stderr_eq : report.stderr = logLines files verbosity options ++ text
  files_eq : report.files = files

/-- Why a source has no text to hand over, and the report that says so. -/
inductive Refusal (files : FileSystem) (options : Options) : String → Prop where
  | unreadable {error : IoError} (h : files.read options.source = .error error) :
      Refusal files options ("error: cannot read " ++ options.source ++ ": " ++ error.message ++ "\n")
  | notText {bytes : List UInt8} (h : files.read options.source = .ok bytes)
      (hbytes : ¬∃ source, encodeText source = bytes) :
      Refusal files options
        ("error: cannot read " ++ options.source ++ ": " ++ "stream did not contain valid UTF-8" ++ "\n")
  | rejected {source : String} {error : CompileError}
      (h : files.read options.source = .ok (encodeText source))
      (hstage : options.stage.render source = .error error) :
      Refusal files options (Diagnostic.render source error)

/-- A source has a text to hand over. -/
structure Rendered (files : FileSystem) (options : Options) (source text : String) : Prop where
  read_eq : files.read options.source = .ok (encodeText source)
  render_eq : options.stage.render source = .ok text

/-- The stage never ends on its source. -/
def Endless (files : FileSystem) (options : Options) : Prop :=
  ∃ source, files.read options.source = .ok (encodeText source) ∧ options.stage.render source = .endless

/-- The sink of a run has taken a text in full. -/
inductive Accepted (files : FileSystem) (stdout : Writer) (options : Options) (report : Report)
    (text : String) : Prop where
  | printed (hsink : options.output = none) (hstdout : report.stdout = encodeText text)
      (hflush : stdout.flush = .ok ()) (hfiles : report.files = files)
  | saved {path : String} {place : Place} (hsink : options.output = some path)
      (htarget : files.target path = .ok place)
      (hfiles : files.Saved path place (encodeText text) report.files) (hstdout : report.stdout = [])

theorem Accepted.stdout_eq_of_output_none {files : FileSystem} {stdout : Writer} {options : Options}
    {report : Report} {text : String} (h : Accepted files stdout options report text)
    (houtput : options.output = none) : report.stdout = encodeText text := by
  cases h with
  | printed _ hstdout => exact hstdout
  | saved hsink =>
    rw [houtput] at hsink
    cases hsink

theorem isReport_cannotRead (path reason : String) :
    IsReport ("error: cannot read " ++ path ++ ": " ++ reason ++ "\n") := by
  have hmessage : "cannot read " ++ path ++ ": " ++ reason ≠ "" := by simp
  have htext : "error: cannot read " ++ path ++ ": " ++ reason ++ "\n" =
      "error: " ++ ("cannot read " ++ path ++ ": " ++ reason) ++ "\n" := by
    simp only [← String.append_assoc]
    rfl
  rw [htext]
  exact .message hmessage

theorem isReport_render (source : String) (error : CompileError) :
    IsReport (Diagnostic.render source error) := by
  cases hspan : error.span? with
  | none =>
    rw [Diagnostic.render, hspan, String.append_empty]
    exact .message error.message_ne_empty
  | some span =>
    rw [Diagnostic.render_of_span? source hspan]
    exact .place error.message_ne_empty

section Printing

variable (files : FileSystem) (stdout : Writer) (log text : String) (refused : IoError → String)

/-- What is left behind by handing a text to standard output. -/
def printed : Report :=
  match (stdout.send text).result with
  | .ok _ => ⟨⟨(stdout.send text).taken, log, files⟩, some 0⟩
  | .error error => ⟨⟨(stdout.send text).taken, log ++ refused error, files⟩, some 1⟩

theorem printed_stdout : (printed files stdout log text refused).stdout = (stdout.send text).taken := by
  unfold printed
  split <;> rfl

theorem printed_files : (printed files stdout log text refused).files = files := by
  unfold printed
  split <;> rfl

theorem printed_exit_eq_zero_iff :
    (printed files stdout log text refused).exit = some 0 ↔
      (stdout.send text).taken = encodeText text ∧ stdout.flush = .ok () := by
  rw [← send_result_eq_ok_iff]
  unfold printed
  split
  · next hresult => simp only [hresult]
  · next hresult => simp [hresult]

theorem printed_exit_ne_none : (printed files stdout log text refused).exit ≠ none := by
  unfold printed
  split <;> simp

end Printing

section Actions

variable {files : FileSystem} {stdout : Writer} {verbosity : Verbosity} {options : Options}
  {source program text path : String} {place : Place}

theorem action_of_text (h : files.read options.source = .ok (encodeText source)) :
    (respond options (files.read options.source)).action = emit options source := by
  have hdecode : (files.read options.source).bind decodeText = .ok source := by
    rw [h]
    exact decodeText_eq_ok_iff.2 rfl
  unfold respond
  rw [hdecode]

/-- Only a program for standard output is not made beforehand. -/
theorem emit_eq (h : ¬(options.stage = .js ∧ options.output = none)) :
    emit options source =
      match options.stage.render source with
      | .ok text => deposit options.output (text ++ "\n")
      | .error error => .stop (Diagnostic.render source error)
      | .endless => .endless := by
  unfold emit
  split
  · next hstage houtput => exact absurd ⟨hstage, houtput⟩ h
  · rfl

theorem emit_deliver (hstage : options.stage = .js) (houtput : options.output = none) :
    emit options source = .deliver source := by
  unfold emit
  rw [hstage, houtput]

/-- A program goes on from what its first step gives and leaves. -/
theorem report_bind {α : Type} {first : StateM Ledger α} {next : α → StateM Ledger (Option Nat)}
    {ledger after : Ledger} {value : α} (h : first ledger = (value, after)) :
    report ledger (first >>= next) = report after (next value) := by
  have hnext : (first >>= next) ledger = next (first ledger).1 (first ledger).2 := rfl
  rw [report, report, hnext, h]

/-- A run acts when the lines of its log are written. -/
theorem runRequest_of_action {action : Action}
    (h : (respond options (files.read options.source)).action = action) :
    runRequest files stdout verbosity (.run options) =
      report ⟨[], logLines files verbosity options, files⟩ ((simulated stdout).act verbosity action) := by
  have hlog : "" ++ logLines files verbosity options = logLines files verbosity options :=
    String.empty_append
  rw [← h, ← hlog]
  rfl

theorem runRequest_of_stop {report : String}
    (h : (respond options (files.read options.source)).action = .stop report) :
    runRequest files stdout verbosity (.run options) =
      ⟨⟨[], logLines files verbosity options ++ report, files⟩, some 1⟩ :=
  runRequest_of_action h

theorem runRequest_of_endless (h : (respond options (files.read options.source)).action = .endless) :
    runRequest files stdout verbosity (.run options) =
      ⟨⟨[], logLines files verbosity options, files⟩, none⟩ :=
  runRequest_of_action h

theorem runRequest_of_print
    (h : (respond options (files.read options.source)).action = .print text) :
    runRequest files stdout verbosity (.run options) =
      printed files stdout (logLines files verbosity options) text cannotPrint := by
  have hprint : (simulated stdout).print text ⟨[], logLines files verbosity options, files⟩ =
      ((stdout.send text).result, ⟨(stdout.send text).taken, logLines files verbosity options, files⟩) := rfl
  rw [runRequest_of_action h, Surroundings.act, report_bind hprint, printed]
  cases (stdout.send text).result <;> rfl

/-- A delivery is acted on once it is known what came of it. -/
theorem runRequest_of_deliver {sent : Sent (Verdict CompileError Unit)}
    (h : (respond options (files.read options.source)).action = .deliver source)
    (hsent : deliver (.ofBytes (encodeText source)) stdout = sent) :
    runRequest files stdout verbosity (.run options) =
      match sent.result with
      | .ok _ => ⟨⟨sent.taken, logLines files verbosity options, files⟩, some 0⟩
      | .error error =>
        ⟨⟨sent.taken, logLines files verbosity options ++ Diagnostic.render source error, files⟩, some 1⟩
      | .endless => ⟨⟨sent.taken, logLines files verbosity options, files⟩, none⟩ := by
  have hdeliver : (simulated stdout).deliver source ⟨[], logLines files verbosity options, files⟩ =
      (sent.result, ⟨sent.taken, logLines files verbosity options, files⟩) := by
    rw [← hsent]
    rfl
  rw [runRequest_of_action h, Surroundings.act, report_bind hdeliver]
  cases sent.result <;> rfl

theorem runRequest_of_deliver_program
    (h : (respond options (files.read options.source)).action = .deliver source)
    (hprogram : compile source = .ok program) :
    runRequest files stdout verbosity (.run options) =
      printed files stdout (logLines files verbosity options) (program ++ "\n")
        fun error ↦ Diagnostic.render source (.io error) := by
  rw [runRequest_of_deliver h (deliver_encodeText stdout hprogram), printed]
  cases (stdout.send (program ++ "\n")).result <;> rfl

theorem runRequest_of_save
    (h : (respond options (files.read options.source)).action = .save path text)
    (htarget : files.target path = .ok place) :
    runRequest files stdout verbosity (.run options) =
      ⟨⟨[], logLines files verbosity options ++ logText verbosity [saved path text],
        files.put place (encodeText text)⟩, some 0⟩ := by
  have hsave : (simulated stdout).save path text ⟨[], logLines files verbosity options, files⟩ =
      (.ok (), ⟨[], logLines files verbosity options, files.put place (encodeText text)⟩) := by
    simp only [simulated, FileSystem.write_of_target htarget]
  rw [runRequest_of_action h]
  exact report_bind hsave

theorem runRequest_of_save_error {error : IoError}
    (h : (respond options (files.read options.source)).action = .save path text)
    (htarget : files.target path = .error error) :
    runRequest files stdout verbosity (.run options) =
      ⟨⟨[], logLines files verbosity options ++ cannotSave path error, files⟩, some 1⟩ := by
  have hwrite : files.write path (encodeText text) = .error error := by
    rw [FileSystem.write, htarget]
    rfl
  have hsave : (simulated stdout).save path text ⟨[], logLines files verbosity options, files⟩ =
      (.error error, ⟨[], logLines files verbosity options, files⟩) := by
    simp only [simulated, hwrite]
  rw [runRequest_of_action h]
  exact report_bind hsave

end Actions

section Outcomes

variable {files : FileSystem} {stdout : Writer} {verbosity : Verbosity} {options other : Options}
  {source text path : String} {place : Place}

/-- Every run is refused, never ends or has a text to hand over. -/
theorem refusal_or_endless_or_rendered (files : FileSystem) (options : Options) :
    (∃ text, Refusal files options text) ∨ Endless files options ∨
      ∃ source text, Rendered files options source text := by
  cases hread : files.read options.source with
  | error error => exact .inl ⟨_, .unreadable hread⟩
  | ok bytes =>
    by_cases hbytes : ∃ source, encodeText source = bytes
    · obtain ⟨source, rfl⟩ := hbytes
      cases hrender : options.stage.render source with
      | error error => exact .inl ⟨_, .rejected hread hrender⟩
      | endless => exact .inr (.inl ⟨source, hread, hrender⟩)
      | ok text => exact .inr (.inr ⟨source, text, hread, hrender⟩)
    · exact .inl ⟨_, .notText hread hbytes⟩

theorem Refusal.runRequest_eq (h : Refusal files options text) :
    runRequest files stdout verbosity (.run options) =
      ⟨⟨[], logLines files verbosity options ++ text, files⟩, some 1⟩ := by
  cases h with
  | unreadable hread =>
    apply runRequest_of_stop
    rw [hread]
    rfl
  | notText hread hbytes =>
    apply runRequest_of_stop
    have hdecode : (files.read options.source).bind decodeText = .error .notUtf8 := by
      rw [hread]
      exact decodeText_of_no_text hbytes
    unfold respond
    rw [hdecode]
    rfl
  | rejected hread hrender =>
    -- A program for standard output is compiled a second time, by the delivery, and rejected there.
    by_cases hsink : options.stage = .js ∧ options.output = none
    · obtain ⟨hstage, houtput⟩ := hsink
      rw [hstage] at hrender
      have haction := (action_of_text hread).trans (emit_deliver hstage houtput)
      exact runRequest_of_deliver haction
        (deliver_of_compile_error stdout (text_encodeText _) hrender)
    · apply runRequest_of_stop
      rw [action_of_text hread, emit_eq hsink, hrender]

theorem Refusal.isReport (h : Refusal files options text) : IsReport text := by
  cases h with
  | @unreadable error _ => exact isReport_cannotRead options.source error.message
  | notText => exact isReport_cannotRead options.source "stream did not contain valid UTF-8"
  | @rejected source error _ _ => exact isReport_render source error

theorem Refusal.failed (h : Refusal files options text) (stdout : Writer) (verbosity : Verbosity) :
    (runRequest files stdout verbosity (.run options)).Failed files verbosity options text := by
  rw [h.runRequest_eq]
  exact ⟨h.isReport, rfl, rfl, rfl, rfl⟩

theorem Endless.runRequest_eq (h : Endless files options) :
    runRequest files stdout verbosity (.run options) =
      ⟨⟨[], logLines files verbosity options, files⟩, none⟩ := by
  obtain ⟨source, hread, hrender⟩ := h
  by_cases hsink : options.stage = .js ∧ options.output = none
  · obtain ⟨hstage, houtput⟩ := hsink
    rw [hstage] at hrender
    have haction := (action_of_text hread).trans (emit_deliver hstage houtput)
    exact runRequest_of_deliver haction
      (deliver_of_compile_endless stdout (text_encodeText source) hrender)
  · apply runRequest_of_endless
    rw [action_of_text hread, emit_eq hsink, hrender]

/-- Whether a run is refused does not depend on its sink. -/
theorem Refusal.of_same_source (h : Refusal files options text) (hsource : other.source = options.source)
    (hstage : other.stage = options.stage) : Refusal files other text := by
  cases h with
  | unreadable hread =>
    rw [← hsource] at hread ⊢
    exact .unreadable hread
  | notText hread hbytes =>
    rw [← hsource] at hread ⊢
    exact .notText hread hbytes
  | rejected hread hrender =>
    rw [← hsource] at hread
    rw [← hstage] at hrender
    exact .rejected hread hrender

theorem Rendered.exists_printed (h : Rendered files options source text) (stdout : Writer)
    (verbosity : Verbosity) (houtput : options.output = none) :
    ∃ refused, runRequest files stdout verbosity (.run options) =
      printed files stdout (logLines files verbosity options) (text ++ "\n") refused := by
  have haction := action_of_text h.read_eq
  have hrender := h.render_eq
  by_cases hstage : options.stage = .js
  · rw [emit_deliver hstage houtput] at haction
    rw [hstage] at hrender
    exact ⟨_, runRequest_of_deliver_program haction hrender⟩
  · rw [emit_eq (fun hsink ↦ hstage hsink.1), hrender, houtput] at haction
    exact ⟨_, runRequest_of_print haction⟩

theorem Rendered.action_eq_save (h : Rendered files options source text)
    (houtput : options.output = some path) :
    (respond options (files.read options.source)).action = .save path (text ++ "\n") := by
  have hsink : ¬(options.stage = .js ∧ options.output = none) := by
    rw [houtput]
    rintro ⟨-, hnone⟩
    cases hnone
  rw [action_of_text h.read_eq, emit_eq hsink, h.render_eq, houtput]
  rfl

/-- A text for a file that can be written gets there, and it changes nothing else. -/
theorem Rendered.saved (h : Rendered files options source text) (stdout : Writer) (verbosity : Verbosity)
    (houtput : options.output = some path) (htarget : files.target path = .ok place) :
    let report := runRequest files stdout verbosity (.run options)
    report.exit = some 0 ∧ report.stdout = [] ∧
      files.Saved path place (encodeText (text ++ "\n")) report.files := by
  rw [runRequest_of_save (h.action_eq_save houtput) htarget]
  exact ⟨rfl, rfl, FileSystem.saved_put htarget _⟩

/-- A run with a text to hand over ends well exactly if its sink takes it. -/
theorem Rendered.exit_eq_zero_iff (h : Rendered files options source text) (stdout : Writer)
    (verbosity : Verbosity) :
    (runRequest files stdout verbosity (.run options)).exit = some 0 ↔
      Accepted files stdout options (runRequest files stdout verbosity (.run options)) (text ++ "\n") := by
  cases houtput : options.output with
  | none =>
    obtain ⟨refused, hrun⟩ := h.exists_printed stdout verbosity houtput
    rw [hrun, printed_exit_eq_zero_iff]
    constructor
    · rintro ⟨htaken, hflush⟩
      exact .printed houtput ((printed_stdout ..).trans htaken) hflush (printed_files ..)
    · rintro (⟨-, hstdout, hflush, -⟩ | ⟨hsink, -, -, -⟩)
      · exact ⟨(printed_stdout ..).symm.trans hstdout, hflush⟩
      · rw [houtput] at hsink
        cases hsink
  | some path =>
    cases htarget : files.target path with
    | ok place =>
      obtain ⟨hexit, hstdout, hsaved⟩ := h.saved stdout verbosity houtput htarget
      exact ⟨fun _ ↦ .saved houtput htarget hsaved hstdout, fun _ ↦ hexit⟩
    | error error =>
      rw [runRequest_of_save_error (h.action_eq_save houtput) htarget]
      constructor
      · intro hexit
        cases hexit
      · rintro (⟨hsink, -, -, -⟩ | ⟨hsink, hplace, -, -⟩)
        · rw [houtput] at hsink
          cases hsink
        · obtain rfl := Option.some.inj (houtput.symm.trans hsink)
          rw [htarget] at hplace
          cases hplace

/-- A run that ends well had a text to hand over, and its sink took it. -/
theorem exists_accepted_of_exit_eq_zero
    (h : (runRequest files stdout verbosity (.run options)).exit = some 0) :
    ∃ source text, Rendered files options source text ∧
      Accepted files stdout options (runRequest files stdout verbosity (.run options)) (text ++ "\n") := by
  rcases refusal_or_endless_or_rendered files options with
    ⟨text, hrefusal⟩ | hendless | ⟨source, text, hrendered⟩
  · rw [hrefusal.runRequest_eq] at h
    cases h
  · rw [hendless.runRequest_eq] at h
    cases h
  · exact ⟨source, text, hrendered, (hrendered.exit_eq_zero_iff stdout verbosity).1 h⟩

theorem Rendered.exit_ne_none (h : Rendered files options source text) (stdout : Writer)
    (verbosity : Verbosity) : (runRequest files stdout verbosity (.run options)).exit ≠ none := by
  cases houtput : options.output with
  | none =>
    obtain ⟨refused, hrun⟩ := h.exists_printed stdout verbosity houtput
    rw [hrun]
    exact printed_exit_ne_none files stdout _ _ refused
  | some path =>
    cases htarget : files.target path with
    | ok place =>
      rw [(h.saved stdout verbosity houtput htarget).1]
      nofun
    | error error =>
      rw [runRequest_of_save_error (h.action_eq_save houtput) htarget]
      nofun

/-- A run never ends if its stage does not, and for no other reason. -/
theorem exit_eq_none_iff :
    (runRequest files stdout verbosity (.run options)).exit = none ↔ Endless files options := by
  constructor
  · intro hexit
    rcases refusal_or_endless_or_rendered files options with
      ⟨text, hrefusal⟩ | hendless | ⟨source, text, hrendered⟩
    · rw [hrefusal.runRequest_eq] at hexit
      cases hexit
    · exact hendless
    · exact absurd hexit (hrendered.exit_ne_none stdout verbosity)
  · intro hendless
    rw [hendless.runRequest_eq]

/-- With a file that can be written, a run is refused, never ends or ends well. -/
theorem exit_eq_one_iff_refusal (houtput : options.output = some path)
    (htarget : files.target path = .ok place) :
    (runRequest files stdout verbosity (.run options)).exit = some 1 ↔
      ∃ text, Refusal files options text := by
  constructor
  · intro hexit
    rcases refusal_or_endless_or_rendered files options with
      hrefusal | hendless | ⟨source, text, hrendered⟩
    · exact hrefusal
    · rw [hendless.runRequest_eq] at hexit
      cases hexit
    · obtain ⟨hzero, -, -⟩ := hrendered.saved stdout verbosity houtput htarget
      rw [hzero] at hexit
      cases hexit
  · rintro ⟨text, hrefusal⟩
    exact (hrefusal.failed stdout verbosity).exit_eq

theorem run_of_ofArguments {words : List String} (h : Request.ofArguments words = .ok (.run options)) :
    run files stdout verbosity words = runRequest files stdout verbosity (.run options) := by
  unfold run runRequest Surroundings.run
  rw [h]

end Outcomes

/-- A run whose source cannot be read, is no text or is rejected by the stage sends nothing to standard
output, leaves every file as it was, and fails with one report; and a run ends well exactly if the text of
its stage, ended by a line feed, was taken in full by the sink.  A run that never ends changes nothing either,
and it is the stage that never ends. -/
theorem failed_run_changes_nothing (files : FileSystem) (stdout : Writer) (verbosity : Verbosity)
    (options : Options) :
    let report := runRequest files stdout verbosity (.run options)
    (∀ text, Refusal files options text → report.Failed files verbosity options text) ∧
      (report.exit = some 0 ↔ ∃ source text, Rendered files options source text ∧
        Accepted files stdout options report (text ++ "\n")) ∧
      (report.exit = none ↔ Endless files options) ∧
      (Endless files options → report.stdout = [] ∧ report.files = files) := by
  refine ⟨fun text h ↦ h.failed stdout verbosity, ⟨exists_accepted_of_exit_eq_zero, ?_⟩, exit_eq_none_iff, ?_⟩
  · rintro ⟨source, text, h, haccepted⟩
    exact (h.exit_eq_zero_iff stdout verbosity).2 haccepted
  · intro h
    rw [h.runRequest_eq]
    exact ⟨rfl, rfl⟩

/-- Two runs whose output is their own source, one of them rejected, and two whose source is no text or does
not exist. -/
theorem failed_run_changes_nothing_own_output :
    let cut := "def f()"
    let whole := "def f() 007 end"
    let files : FileSystem := ⟨[(["w"], .directory), (["w", "cut"], .file (encodeText cut)),
      (["w", "whole"], .file (encodeText whole)), (["w", "raw"], .file [0xC3])], ["w"]⟩
    let error := CompileError.parse (.unexpectedEnd (some .integer) ⟨7, 7⟩)
    let noText := "error: cannot read raw: stream did not contain valid UTF-8\n"
    let noFile := "error: cannot read none: No such file or directory (os error 2)\n"
    let report := fun options ↦ runRequest files .plain .standard (.run options)
    let ofCut : Options := ⟨"cut", some "./cut", .ast⟩
    let ofRaw : Options := ⟨"raw", none, .js⟩
    let ofNone : Options := ⟨"none", some "whole", .tokens⟩
    let ofWhole : Options := ⟨"whole", some "whole", .src⟩
    (Refusal files ofCut (Diagnostic.render cut error) ∧
      (report ofCut).Failed files .standard ofCut (Diagnostic.render cut error)) ∧
    (Refusal files ofRaw noText ∧ (report ofRaw).Failed files .standard ofRaw noText) ∧
    (Refusal files ofNone noFile ∧ (report ofNone).Failed files .standard ofNone noFile) ∧
    (report ofWhole).exit = some 0 ∧ ∃ source text, Rendered files ofWhole source text ∧
      Accepted files .plain ofWhole (report ofWhole) (text ++ "\n") := by
  intro cut whole files error noText noFile report ofCut ofRaw ofNone ofWhole
  have hcut : Refusal files ofCut (Diagnostic.render cut error) := by
    have hread : files.read "cut" = .ok (encodeText cut) := by decide +kernel
    have hrender : Stage.ast.render cut = .error error := by decide +kernel
    exact .rejected hread hrender
  have hraw : Refusal files ofRaw noText := by
    have hread : files.read "raw" = .ok [0xC3] := by decide +kernel
    have hdecode : decodeText [0xC3] = .error .notUtf8 := by decide +kernel
    have hbytes : ¬∃ source, encodeText source = [0xC3] := by
      rintro ⟨text, htext⟩
      rw [decodeText_eq_ok_iff.2 htext] at hdecode
      cases hdecode
    have htext : "error: cannot read " ++ "raw" ++ ": " ++ "stream did not contain valid UTF-8" ++ "\n" =
        noText := by decide +kernel
    exact htext ▸ .notText hread hbytes
  have hnone : Refusal files ofNone noFile := by
    have hread : files.read "none" = .error .notFound := by decide +kernel
    have htext : "error: cannot read " ++ "none" ++ ": " ++ IoError.notFound.message ++ "\n" = noFile := by
      decide +kernel
    exact htext ▸ .unreadable hread
  have hwhole : (report ofWhole).exit = some 0 := by decide +kernel
  exact ⟨⟨hcut, (failed_run_changes_nothing files .plain .standard ofCut).1 _ hcut⟩,
    ⟨hraw, (failed_run_changes_nothing files .plain .standard ofRaw).1 _ hraw⟩,
    ⟨hnone, (failed_run_changes_nothing files .plain .standard ofNone).1 _ hnone⟩,
    hwhole, (failed_run_changes_nothing files .plain .standard ofWhole).2.1.1 hwhole⟩

/-- Two command lines that differ only in the path of an output hand over the same bytes: what one run sends
to standard output, the other leaves in the file, which may be the source itself.  They are refused for the
same sources, with the same report, and never end on the same sources. -/
theorem sinks_take_same_bytes (files : FileSystem) (stdout stdout' : Writer) (verbosity : Verbosity)
    (words words' : List String) (options : Options) (path : String) (place : Place)
    (hwords : Request.ofArguments words = .ok (.run options)) (houtput : options.output = none)
    (hwords' : Request.ofArguments words' = .ok (.run { options with output := some path }))
    (htarget : files.target path = .ok place) :
    let printing := run files stdout verbosity words
    let saving := run files stdout' verbosity words'
    (printing.exit = some 0 → saving.exit = some 0 ∧ saving.stdout = [] ∧
      files.Saved path place printing.stdout saving.files) ∧
    (∀ text, Refusal files options text ∨ Refusal files { options with output := some path } text →
      printing.Failed files verbosity options text ∧
        saving.Failed files verbosity { options with output := some path } text) ∧
    (saving.exit = some 1 ↔ ∃ text, Refusal files options text) ∧
    (saving.exit = none ↔ printing.exit = none) := by
  rw [run_of_ofArguments hwords, run_of_ofArguments hwords']
  refine ⟨fun hexit ↦ ?_, fun text h ↦ ?_, ?_, ?_⟩
  · obtain ⟨source, text, h, haccepted⟩ := exists_accepted_of_exit_eq_zero hexit
    have hstdout := haccepted.stdout_eq_of_output_none houtput
    have h' : Rendered files { options with output := some path } source text := ⟨h.read_eq, h.render_eq⟩
    rw [hstdout]
    exact h'.saved stdout' verbosity rfl htarget
  · have hprinting : Refusal files options text := h.elim id fun h ↦ h.of_same_source rfl rfl
    have hsaving : Refusal files { options with output := some path } text := hprinting.of_same_source rfl rfl
    exact ⟨hprinting.failed stdout verbosity, hsaving.failed stdout' verbosity⟩
  · rw [exit_eq_one_iff_refusal rfl htarget]
    exact exists_congr fun text ↦ ⟨fun h ↦ h.of_same_source rfl rfl, fun h ↦ h.of_same_source rfl rfl⟩
  · rw [exit_eq_none_iff, exit_eq_none_iff]
    exact Iff.rfl

/-- The output replaces the source: a definition gives way to its normal layout, and a text that is none
stays. -/
theorem sinks_take_same_bytes_own_output :
    let whole := "def f() 007 end"
    let files : FileSystem := ⟨[(["w"], .directory), (["w", "cut"], .file (encodeText "def f()")),
      (["w", "whole"], .file (encodeText whole))], ["w"]⟩
    let error := CompileError.parse (.unexpectedEnd (some .integer) ⟨7, 7⟩)
    let printing := run files .plain .standard ["whole", "--emit", "src"]
    let saving := run files .plain .standard ["-owhole", "--emit=src", "whole"]
    let ofCut : Options := ⟨"cut", none, .js⟩
    (printing.exit = some 0 ∧ printing.stdout = encodeText "def f()\n  7\nend\n" ∧ saving.exit = some 0 ∧
      saving.stdout = [] ∧ files.Saved "whole" ["w", "whole"] printing.stdout saving.files) ∧
    Refusal files ofCut (Diagnostic.render "def f()" error) ∧
      (run files .plain .standard ["cut"]).Failed files .standard ofCut (Diagnostic.render "def f()" error) ∧
      (run files .plain .standard ["cut", "--output", "cut"]).Failed files .standard
        { ofCut with output := some "cut" } (Diagnostic.render "def f()" error) := by
  intro whole files error printing saving ofCut
  have hexit : printing.exit = some 0 := by decide +kernel
  have hstdout : printing.stdout = encodeText "def f()\n  7\nend\n" := by decide +kernel
  have hcut : Refusal files ofCut (Diagnostic.render "def f()" error) := by
    have hread : files.read "cut" = .ok (encodeText "def f()") := by decide +kernel
    have hrender : Stage.js.render "def f()" = .error error := by decide +kernel
    exact .rejected hread hrender
  have hwhole := sinks_take_same_bytes files .plain .plain .standard ["whole", "--emit", "src"]
    ["-owhole", "--emit=src", "whole"] ⟨"whole", none, .src⟩ "whole" ["w", "whole"] (by decide +kernel) rfl
    (by decide +kernel) (by decide +kernel)
  have hrejected := sinks_take_same_bytes files .plain .plain .standard ["cut"] ["cut", "--output", "cut"]
    ofCut "cut" ["w", "cut"] (by decide +kernel) rfl (by decide +kernel) (by decide +kernel)
  exact ⟨⟨hexit, hstdout, hwhole.1 hexit⟩, hcut, hrejected.2.1 _ (.inl hcut)⟩

end Session

end OneDef
