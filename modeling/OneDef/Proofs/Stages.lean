import OneDef.Proofs.Programs
import OneDef.Proofs.Sessions

/-!
# Rejected sources

Each stage puts its own steps together, but all of them read the source in the same way, and nothing
behind the reading can fail: a tree that was read is well-formed, and a well-formed tree has a JavaScript
definition.  Hence a source is rejected by every stage or by none, always with the error of reading it.
The stage that prints the tokens is the exception: it reads no tree, so only the errors of the scanner
are left to it.

In a run of the command these errors become one and the same report, wherever the output was to go.
-/

namespace OneDef

variable {source : String} {error : CompileError}

theorem parseSource_ne_generate (source : String) (error : GenerateError) :
    parseSource source ≠ .error (.generate error) := by
  intro h
  rcases parseSource_eq_error_iff.1 h with ⟨lexError, -, herror⟩ | ⟨ts, parseError, -, -, herror⟩
  · cases herror
  · cases herror

theorem parseSource_eq_lexError_iff {lexError : LexError} :
    parseSource source = .error (.lex lexError) ↔ lex source = .error lexError := by
  rw [parseSource_eq_error_iff]
  constructor
  · rintro (⟨other, h, herror⟩ | ⟨ts, parseError, -, -, herror⟩)
    · rw [h, CompileError.lex.inj herror]
    · cases herror
  · intro h
    exact .inl ⟨lexError, h, rfl⟩

namespace Stage

theorem render_ast_eq_error_iff :
    ast.render source = .error error ↔ parseSource source = .error error :=
  Verdict.map_eq_error_iff

theorem render_tokens_eq_error_iff :
    tokens.render source = .error error ↔
      parseSource source = .error error ∧ ∃ lexError, error = .lex lexError := by
  rw [render, Verdict.map_eq_error_iff, Verdict.mapError_eq_error_iff]
  constructor
  · rintro ⟨lexError, h, rfl⟩
    exact ⟨parseSource_eq_lexError_iff.2 h, lexError, rfl⟩
  · rintro ⟨h, lexError, rfl⟩
    exact ⟨lexError, parseSource_eq_lexError_iff.1 h, rfl⟩

/-- The errors of a stage are those of reading the source, of which the scanner's are left for tokens. -/
theorem render_eq_error_iff (stage : Stage) :
    stage.render source = .error error ↔
      parseSource source = .error error ∧ (stage = .tokens → ∃ lexError, error = .lex lexError) := by
  cases stage with
  | js => exact compile_eq_error_iff.trans ⟨fun h ↦ ⟨h, nofun⟩, fun h ↦ h.1⟩
  | src => exact normalize_eq_error_iff.trans ⟨fun h ↦ ⟨h, nofun⟩, fun h ↦ h.1⟩
  | ast => exact render_ast_eq_error_iff.trans ⟨fun h ↦ ⟨h, nofun⟩, fun h ↦ h.1⟩
  | tokens => exact render_tokens_eq_error_iff.trans (and_congr_right fun _ ↦ ⟨fun h _ ↦ h, fun h ↦ h rfl⟩)

/-- Only the scanner may never end, and every stage waits for it. -/
theorem render_eq_endless_iff (stage : Stage) :
    stage.render source = .endless ↔ lex source = .endless := by
  cases stage with
  | js => exact compile_eq_endless_iff.trans parseSource_eq_endless_iff
  | src => exact Verdict.map_eq_endless_iff.trans parseSource_eq_endless_iff
  | ast => exact Verdict.map_eq_endless_iff.trans parseSource_eq_endless_iff
  | tokens => exact Verdict.map_eq_endless_iff.trans Verdict.mapError_eq_endless_iff

end Stage

/-- Compiling, printing the normal layout and printing the tree reject the same sources with the same errors,
and printing the tokens rejects those that the scanner rejects; no error is one of the generator.  If the
scanner never ends, no stage does.  The runs of the command on a rejected source therefore fail with the same
report. -/
theorem stages_reject_same_sources (source : String) :
    (∀ error, compile source = .error error ↔ normalize source = .error error) ∧
    (∀ error, compile source = .error error ↔ Stage.ast.render source = .error error) ∧
    (∀ error, Stage.tokens.render source = .error error ↔
      compile source = .error error ∧ ∃ lexError, error = .lex lexError) ∧
    (∀ error, compile source ≠ .error (.generate error)) ∧
    (∀ stage : Stage, stage.render source = .endless ↔ lex source = .endless) ∧
    ∀ files stdout verbosity options error, files.read options.source = .ok (encodeText source) →
      compile source = .error error → (options.stage = .tokens → ∃ lexError, error = .lex lexError) →
      (Session.runRequest files stdout verbosity (.run options)).Failed files verbosity options
        (Diagnostic.render source error) := by
  refine ⟨fun error ↦ ?_, fun error ↦ ?_, fun error ↦ ?_, fun error ↦ ?_, Stage.render_eq_endless_iff, ?_⟩
  · rw [compile_eq_error_iff, normalize_eq_error_iff]
  · rw [compile_eq_error_iff, Stage.render_ast_eq_error_iff]
  · rw [compile_eq_error_iff, Stage.render_tokens_eq_error_iff]
  · intro h
    exact parseSource_ne_generate source error (compile_eq_error_iff.1 h)
  · intro files stdout verbosity options error hread hcompile htokens
    have hrender : options.stage.render source = .error error :=
      (Stage.render_eq_error_iff _).2 ⟨compile_eq_error_iff.1 hcompile, htokens⟩
    exact (Session.Refusal.rejected hread hrender).failed stdout verbosity

/-- A letter that no token has stops every stage, and a definition that breaks off all but the tokens. -/
theorem stages_reject_same_sources_each :
    let accent := "def é"
    let cut := "def f()"
    let files : FileSystem :=
      ⟨[(["accent"], .file (encodeText accent)), (["cut"], .file (encodeText cut))], []⟩
    let unmatched := CompileError.lex (.noMatch "é" ⟨4, 6⟩)
    let ended := CompileError.parse (.unexpectedEnd (some .integer) ⟨7, 7⟩)
    let fails := fun options text ↦
      (Session.runRequest files .plain .standard (.run options)).Failed files .standard options text
    (compile accent = .error unmatched ∧ normalize accent = .error unmatched ∧
      Stage.ast.render accent = .error unmatched ∧ Stage.tokens.render accent = .error unmatched ∧
      fails ⟨"accent", none, .js⟩ (Diagnostic.render accent unmatched) ∧
      fails ⟨"accent", some "accent", .tokens⟩ (Diagnostic.render accent unmatched)) ∧
    compile cut = .error ended ∧ normalize cut = .error ended ∧ Stage.ast.render cut = .error ended ∧
      Stage.tokens.render cut ≠ .error ended ∧ fails ⟨"cut", none, .src⟩ (Diagnostic.render cut ended) ∧
      fails ⟨"cut", some "new", .ast⟩ (Diagnostic.render cut ended) := by
  intro accent cut files unmatched ended fails
  have hunmatched : compile accent = .error unmatched := by decide +kernel
  have hended : compile cut = .error ended := by decide +kernel
  have hreadAccent : files.read "accent" = .ok (encodeText accent) := by decide +kernel
  have hreadCut : files.read "cut" = .ok (encodeText cut) := by decide +kernel
  obtain ⟨hsrc, hast, htokens, -, -, hruns⟩ := stages_reject_same_sources accent
  obtain ⟨hsrc', hast', htokens', -, -, hruns'⟩ := stages_reject_same_sources cut
  refine ⟨⟨hunmatched, (hsrc _).1 hunmatched, (hast _).1 hunmatched, (htokens _).2 ⟨hunmatched, _, rfl⟩,
      hruns _ _ _ _ _ hreadAccent hunmatched nofun,
      hruns _ _ _ _ _ hreadAccent hunmatched fun _ ↦ ⟨_, rfl⟩⟩,
    hended, (hsrc' _).1 hended, (hast' _).1 hended, ?_, hruns' _ _ _ _ _ hreadCut hended nofun,
    hruns' _ _ _ _ _ hreadCut hended nofun⟩
  intro h
  obtain ⟨-, lexError, herror⟩ := (htokens' _).1 h
  simp [ended] at herror

end OneDef
