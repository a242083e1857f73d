import OneDef.Diagnostic
import OneDef.Proofs.Positions
import OneDef.Proofs.Programs

/-!
# Diagnostics are two lines

A diagnostic quotes the source, and the source may hold any characters.  The diagnostic is still two lines,
each of them without control characters: quoting writes every control character by other characters, and all
else that a message is made of is fixed or a number.  The second line says where the error lies, by the line
and the column that counting gives.

Only errors of reading and writing may hold other texts, and they do not come from compiling.
-/

namespace OneDef

namespace Text

/-- A control character of ASCII. -/
def isControl (c : Char) : Bool := c.toNat < 0x20 || c.toNat = 0x7F

/-- A text without control characters, which does not break the line that it stands in. -/
def ControlFree (text : String) : Prop := text.toList.all fun c ↦ !isControl c

instance (text : String) : Decidable (ControlFree text) := inferInstanceAs (Decidable (_ = true))

section Quoting

variable {c d : Char} {text first second : String}

theorem controlFree_iff : ControlFree text ↔ ∀ c ∈ text.toList, isControl c = false := by
  unfold ControlFree
  simp only [List.all_eq_true, Bool.not_eq_true']

theorem controlFree_append :
    ControlFree (first ++ second) ↔ ControlFree first ∧ ControlFree second := by
  unfold ControlFree
  rw [String.toList_append, List.all_append, Bool.and_eq_true]

theorem isControl_digitChar (n : Nat) : isControl n.digitChar = false := by
  rcases Nat.lt_or_ge n 16 with hsmall | hlarge
  · exact (by decide : ∀ n < 16, isControl n.digitChar = false) n hsmall
  · rw [Nat.digitChar_eq_star.2 hlarge]
    rfl

theorem isControl_of_mem_toDigits {base n : Nat} (hbase : 1 < base) (h : c ∈ Nat.toDigits base n) :
    isControl c = false := by
  induction n using Nat.strongRecOn with
  | ind n ih =>
    rw [Nat.toDigits_eq_if hbase] at h
    split at h
    · rw [List.mem_singleton.1 h]
      exact isControl_digitChar n
    · next hlarge =>
      rw [List.mem_append, List.mem_singleton] at h
      rcases h with h | rfl
      · exact ih (n / base) (Nat.div_lt_self (by omega) hbase) h
      · exact isControl_digitChar _

theorem controlFree_toString (n : Nat) : ControlFree (toString n) := by
  apply controlFree_iff.2
  intro c hc
  rw [Nat.toString_eq_repr, Nat.toList_repr] at hc
  exact isControl_of_mem_toDigits (by decide) hc

/-- Control characters are among those that are not shown as themselves. -/
theorem isControl_of_not_isUnprintable (h : ¬isUnprintable c) : isControl c = false := by
  unfold isUnprintable at h
  split at h
  · exact Bool.not_eq_true _ ▸ h
  · next hlarge =>
    simp only [isControl, Bool.or_eq_false_iff, decide_eq_false_iff_not]
    omega

theorem isControl_of_mem_escapeChar (h : d ∈ escapeChar c) : isControl d = false := by
  have hfixed {cs : List Char} (hcs : cs.all fun c ↦ !isControl c) (h : d ∈ cs) : isControl d = false := by
    simpa using List.all_eq_true.1 hcs d h
  unfold escapeChar at h
  split_ifs at h with _ _ _ _ _ _ hunprintable
  -- the short forms are fixed texts
  any_goals exact hfixed rfl h
  · rw [List.mem_append, List.mem_append] at h
    rcases h with (h | h) | h
    · exact hfixed rfl h
    · exact isControl_of_mem_toDigits (by decide) h
    · exact hfixed rfl h
  · rw [List.mem_singleton.1 h]
    exact isControl_of_not_isUnprintable hunprintable

theorem controlFree_quote (text : String) : ControlFree (quote text) := by
  apply controlFree_iff.2
  intro d hd
  rw [quote, String.toList_ofList, List.mem_append, List.mem_append, List.mem_singleton, List.mem_flatMap] at hd
  rcases hd with (rfl | ⟨c, -, hd⟩) | rfl
  · rfl
  · exact isControl_of_mem_escapeChar hd
  · rfl

end Quoting

section Lines

variable {first second : String}

theorem lineFeed_notMem (h : ControlFree first) : '\n' ∉ first.toList := by
  intro hmem
  have hcontrol := controlFree_iff.1 h '\n' hmem
  exact absurd hcontrol (by decide)

/-- Two lines, each with a line feed behind it. -/
def twoLines (first second : String) : String := first ++ "\n" ++ (second ++ "\n")

theorem toList_twoLines : (twoLines first second).toList =
    first.toList ++ '\n' :: (second.toList ++ ['\n']) := by
  simp [twoLines]

theorem lines_twoLines (hfirst : ControlFree first) (hsecond : ControlFree second) :
    lines (twoLines first second) = [first, second, ""] := by
  have hlines : ∀ line ∈ [first, second, ""], '\n' ∉ line.toList := by
    simp only [List.forall_mem_cons]
    exact ⟨lineFeed_notMem hfirst, lineFeed_notMem hsecond, by simp, by simp⟩
  have htext : twoLines first second = (String.singleton '\n').intercalate [first, second, ""] := by
    rw [String.intercalate_cons_cons, String.intercalate_cons_cons, String.intercalate_singleton, twoLines,
      String.append_empty]
    simp only [String.append_assoc]
    rfl
  rw [lines, htext]
  exact String.toList_split_intercalate hlines

theorem count_twoLines (hfirst : ControlFree first) (hsecond : ControlFree second) :
    (twoLines first second).toList.count '\n' = 2 := by
  rw [toList_twoLines, List.count_append, List.count_cons_self, List.count_append,
    List.count_eq_zero.2 (lineFeed_notMem hfirst), List.count_eq_zero.2 (lineFeed_notMem hsecond)]
  rfl

theorem getLast?_twoLines : (twoLines first second).toList.getLast? = some '\n' := by
  rw [toList_twoLines, ← List.cons_append, ← List.append_assoc, List.getLast?_concat]

theorem eq_lineFeed_of_mem_twoLines {c : Char} (hfirst : ControlFree first) (hsecond : ControlFree second)
    (h : c ∈ (twoLines first second).toList) (hcontrol : isControl c) : c = '\n' := by
  rw [toList_twoLines, List.mem_append, List.mem_cons, List.mem_append, List.mem_singleton] at h
  rcases h with h | rfl | h | rfl
  · simp [controlFree_iff.1 hfirst c h] at hcontrol
  · rfl
  · simp [controlFree_iff.1 hsecond c h] at hcontrol
  · rfl

end Lines

end Text

section Messages

open Text

theorem Kind.controlFree_name (kind : Kind) : ControlFree kind.name := by
  cases kind <;> decide

theorem Shape.controlFree_name (shape : Shape) : ControlFree shape.name := by
  cases shape <;> decide

theorem LexError.controlFree_message (error : LexError) : ControlFree error.message := by
  cases error with
  | noMatch remainder span => exact controlFree_append.2 ⟨by decide, controlFree_quote remainder⟩

theorem ParseError.controlFree_message (error : ParseError) : ControlFree error.message := by
  cases error with
  | unexpectedToken expected found span =>
    unfold message
    rw [controlFree_append, controlFree_append, controlFree_append]
    exact ⟨⟨⟨by decide, expected.controlFree_name⟩, by decide⟩, found.controlFree_name⟩
  | unexpectedEnd expected span =>
    cases expected with
    | none => exact (by decide : ControlFree "unexpected end of input")
    | some expected => exact controlFree_append.2 ⟨by decide, expected.controlFree_name⟩
  | trailingToken found span =>
    unfold message
    rw [controlFree_append, controlFree_append]
    exact ⟨⟨by decide, found.controlFree_name⟩, by decide⟩

theorem GenerateError.controlFree_message (error : GenerateError) : ControlFree error.message := by
  cases error with
  | unexpectedNode shape span => exact controlFree_append.2 ⟨by decide, shape.controlFree_name⟩

/-- The message of an error that lies in the source is one line, whatever the source is. -/
theorem CompileError.controlFree_message {error : CompileError} {span : Span} (h : error.span? = some span) :
    ControlFree error.message := by
  cases error with
  | lex error => exact error.controlFree_message
  | parse error => exact error.controlFree_message
  | generate error => exact error.controlFree_message
  | io error => cases h

theorem LexError.message_ne_empty (error : LexError) : error.message ≠ "" := by
  unfold message
  simp

theorem ParseError.message_ne_empty (error : ParseError) : error.message ≠ "" := by
  unfold message
  split <;> simp

theorem GenerateError.message_ne_empty (error : GenerateError) : error.message ≠ "" := by
  unfold message
  simp

theorem CompileError.message_ne_empty (error : CompileError) : error.message ≠ "" := by
  cases error with
  | lex error => exact error.message_ne_empty
  | parse error => exact error.message_ne_empty
  | generate error => exact error.message_ne_empty
  | io error =>
    unfold message
    simp

end Messages

namespace Diagnostic

open Text

/-- The line that points at a span of a source: its line and its column, and the span itself. -/
def pointer (line column : Nat) (span : Span) : String :=
  "  --> <input>:" ++ toString line ++ ":" ++ toString column ++ " [" ++ toString span.start ++ ".." ++
    toString span.stop ++ "]"

theorem controlFree_pointer (line column : Nat) (span : Span) : ControlFree (pointer line column span) := by
  have hnumber := controlFree_toString
  unfold pointer
  simp only [controlFree_append]
  exact ⟨⟨⟨⟨⟨⟨⟨⟨by decide, hnumber line⟩, by decide⟩, hnumber column⟩, by decide⟩, hnumber span.start⟩,
    by decide⟩, hnumber span.stop⟩, by decide⟩

theorem location_eq_pointer (source : String) (span : Span) :
    location source span = pointer ((LineMap.ofSource source).position span.start).line
      ((LineMap.ofSource source).position span.start).column span ++ "\n" := by
  unfold location pointer
  simp only [String.append_assoc]
  rfl

theorem render_of_span? {error : CompileError} {span : Span} (source : String)
    (h : error.span? = some span) :
    render source error = twoLines ("error: " ++ error.message)
      (pointer ((LineMap.ofSource source).position span.start).line
        ((LineMap.ofSource source).position span.start).column span) := by
  unfold render twoLines
  rw [h, ← location_eq_pointer]

/-- A diagnostic of an error that lies in a source. -/
theorem render_eq_twoLines {source : String} {error : CompileError} {span : Span}
    (hlimit : source.utf8ByteSize ≤ Span.limit) (h : error.span? = some span) :
    render source error = twoLines ("error: " ++ error.message)
      (pointer (1 + (feedsBefore (bytes source) span.start).length)
        (1 + (span.start - lineStart source span.start)) span) := by
  have hposition : (LineMap.ofSource source).position span.start =
      ⟨1 + (feedsBefore (bytes source) span.start).length,
        1 + (span.start - lineStart source span.start)⟩ := by
    rw [LineMap.position, LineMap.reached_eq hlimit, lineStart_eq, List.length_cons, List.length_map,
      List.getLastD_cons, Nat.add_comm, Nat.add_comm 1 (span.start - _)]
  rw [render_of_span? source h, hposition]

theorem exists_span_of_compile {source : String} {error : CompileError} (h : compile source = .error error) :
    ∃ span, error.span? = some span := by
  rcases parseSource_eq_error_iff.1 (compile_eq_error_iff.1 h) with ⟨lexError, -, rfl⟩ | ⟨_, parseError, -, -, rfl⟩
  · exact ⟨lexError.span, rfl⟩
  · exact ⟨parseError.span, rfl⟩

/-- The diagnostic of a source that is not compiled has two line feeds, of which one is its last character, and
no other control character, whatever characters the source holds.  Its first line is the message, and the
second one points at the span of the error, with the line and the column of its start by counting. -/
theorem render_is_two_lines (source : String) (error : CompileError)
    (hlimit : source.utf8ByteSize ≤ Span.limit) (h : compile source = .error error) :
    ∃ span, error.span? = some span ∧ lineStart source span.start ≤ span.start ∧
      lines (render source error) = ["error: " ++ error.message,
        "  --> <input>:" ++ toString (1 + (feedsBefore (bytes source) span.start).length) ++ ":" ++
          toString (1 + (span.start - lineStart source span.start)) ++ " [" ++ toString span.start ++ ".." ++
          toString span.stop ++ "]", ""] ∧
      (render source error).toList.count '\n' = 2 ∧ (render source error).toList.getLast? = some '\n' ∧
      ∀ c ∈ (render source error).toList, isControl c → c = '\n' := by
  obtain ⟨span, hspan⟩ := exists_span_of_compile h
  have hfirst : ControlFree ("error: " ++ error.message) :=
    controlFree_append.2 ⟨by decide, CompileError.controlFree_message hspan⟩
  have hsecond := controlFree_pointer (1 + (feedsBefore (bytes source) span.start).length)
    (1 + (span.start - lineStart source span.start)) span
  rw [render_eq_twoLines hlimit hspan]
  exact ⟨span, hspan, lineStart_le source span.start, lines_twoLines hfirst hsecond,
    count_twoLines hfirst hsecond, getLast?_twoLines, fun c ↦ eq_lineFeed_of_mem_twoLines hfirst hsecond⟩

/-- A remainder that clears a terminal and goes on in another line, and a comma in the second line where a name
should stand. -/
theorem render_is_two_lines_each :
    let hostile := "def f\n\x1b[2J\n\"é"
    let unmatched := CompileError.lex (.noMatch "\x1b[2J\n\"é" ⟨6, 7⟩)
    let comma := "def\n ,"
    let refused := CompileError.parse (.unexpectedToken .identifier .comma ⟨5, 6⟩)
    (compile hostile = .error unmatched ∧
      lines (render hostile unmatched) = ["error: couldn't match token on \"\\u\x7b1b\x7d[2J\\n\\\"é\"",
        "  --> <input>:2:1 [6..7]", ""] ∧
      (render hostile unmatched).toList.count '\n' = 2 ∧
      (render hostile unmatched).toList.getLast? = some '\n' ∧
      ∀ c ∈ (render hostile unmatched).toList, isControl c → c = '\n') ∧
    compile comma = .error refused ∧
      lines (render comma refused) = ["error: expected token identifier but got comma",
        "  --> <input>:2:2 [5..6]", ""] := by
  intro hostile unmatched comma refused
  have hhostile : compile hostile = .error unmatched := by decide +kernel
  have hcomma : compile comma = .error refused := by decide +kernel
  obtain ⟨_, ⟨⟩, -, hlines, hcount, hlast, hothers⟩ :=
    render_is_two_lines hostile unmatched (by decide) hhostile
  obtain ⟨_, ⟨⟩, -, hlines', -⟩ := render_is_two_lines comma refused (by decide) hcomma
  exact ⟨⟨hhostile, hlines.trans (by decide +kernel), hcount, hlast, hothers⟩, hcomma,
    hlines'.trans (by decide +kernel)⟩

end Diagnostic

end OneDef
