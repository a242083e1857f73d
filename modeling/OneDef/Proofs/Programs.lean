import OneDef.Proofs.Generated
import OneDef.Program

/-!
# Sources, their programs and their normal layout

Compiling a source and laying it out anew both go through its tree, which is always well formed.  So both
results are made, and each of them tells as much as the other: the tree up to spans.

None of this depends on the size of the source.  Only a text that is read again has to be within the
largest offset, and what was printed may be longer than the source that it came from.
-/

namespace OneDef

open Pieces Grammar

section Sources

variable {source source' text line program gap : String} {tree tree' : Tree}

theorem parseSource_eq_ok_iff :
    parseSource source = .ok tree ↔ ∃ ts, lex source = .ok ts ∧ Tree.parse ts = .ok tree := by
  unfold parseSource
  cases lex source with
  | error _ | endless => simp [bind, Verdict.bind, Verdict.mapError]
  | ok ts =>
    change Verdict.ofExcept ((Tree.parse ts).mapError CompileError.parse) = _ ↔ _
    cases hparse : Tree.parse ts <;> simp [Except.mapError, Verdict.ofExcept, hparse]

theorem parseSource_eq_error_iff {error : CompileError} :
    parseSource source = .error error ↔ (∃ lexError, lex source = .error lexError ∧ error = .lex lexError) ∨
      ∃ ts parseError, lex source = .ok ts ∧ Tree.parse ts = .error parseError ∧
        error = .parse parseError := by
  unfold parseSource
  cases lex source with
  | error lexError => simp [bind, Verdict.bind, Verdict.mapError, eq_comm]
  | endless => simp [bind, Verdict.bind, Verdict.mapError]
  | ok ts =>
    change Verdict.ofExcept ((Tree.parse ts).mapError CompileError.parse) = _ ↔ _
    cases hparse : Tree.parse ts <;> simp [Except.mapError, Verdict.ofExcept, hparse, eq_comm]

theorem parseSource_eq_endless_iff : parseSource source = .endless ↔ lex source = .endless := by
  unfold parseSource
  cases lex source with
  | error _ | endless => simp [bind, Verdict.bind, Verdict.mapError]
  | ok ts =>
    change Verdict.ofExcept ((Tree.parse ts).mapError CompileError.parse) = _ ↔ _
    cases Tree.parse ts <;> simp [Except.mapError, Verdict.ofExcept]

/-- The tokens of a source that is read begin with a definition of the tree. -/
theorem exists_definition_of_parseSource (h : parseSource source = .ok tree) :
    AllGood source.toList ∧
      ∃ front, front <+: tokensAt 0 (pieces source.toList) ∧ Definition front tree := by
  obtain ⟨ts, hlex, hparse⟩ := parseSource_eq_ok_iff.1 h
  obtain ⟨hgood, rfl⟩ := eq_tokensAt_of_lex hlex
  exact ⟨hgood, exists_definition_of_parse hparse⟩

theorem wellFormed_of_parseSource (h : parseSource source = .ok tree) : tree.WellFormed := by
  obtain ⟨-, front, hfront, hdefinition⟩ := exists_definition_of_parseSource h
  exact hdefinition.wellFormed fun token htoken ↦ scanned_of_mem_tokensAt (hfront.subset htoken)

/-- A text that spells a definition is read as it, with any blanks behind it. -/
theorem exists_parseSource_append (hlimit : text.utf8ByteSize ≤ Span.limit)
    (hgap : gap.toList.all Lexeme.isBlank)
    (h : Spells text.toList (Denotes Definition Tree.eraseSpans tree)) :
    ∃ read, parseSource (text ++ gap) = .ok read ∧ read.eraseSpans = tree := by
  obtain ⟨hgood, htokens⟩ := h
  obtain ⟨read, hread, herase⟩ := htokens 0
  have hlex := lex_append_blanks hlimit hgood hgap
  exact ⟨read, parseSource_eq_ok_iff.2 ⟨_, hlex, hread.parse_of_prefix List.prefix_rfl⟩, herase⟩

theorem exists_parseSource_of_spells (hlimit : text.utf8ByteSize ≤ Span.limit)
    (h : Spells text.toList (Denotes Definition Tree.eraseSpans tree)) :
    ∃ read, parseSource text = .ok read ∧ read.eraseSpans = tree := by
  have hgap : "".toList.all Lexeme.isBlank := rfl
  have hread := exists_parseSource_append hlimit hgap h
  rwa [String.append_empty] at hread

theorem normalize_of_parseSource (h : parseSource source = .ok tree) :
    normalize source = .ok tree.toSource := by
  rw [normalize, h]
  rfl

theorem exists_parseSource_of_normalize (h : normalize source = .ok text) :
    ∃ tree, parseSource source = .ok tree ∧ tree.toSource = text :=
  Verdict.map_eq_ok_iff.1 h

theorem compile_of_parseSource (h : parseSource source = .ok tree)
    (hline : tree.toJavaScript = .ok line) : compile source = .ok (Program.assemble line) := by
  unfold compile generate
  rw [h]
  change (Verdict.ofExcept (tree.toJavaScript.mapError CompileError.generate)).map Program.assemble = _
  rw [hline]
  rfl

/-- Every tree that is read can be compiled. -/
theorem exists_toJavaScript_of_parseSource (h : parseSource source = .ok tree) :
    ∃ line, tree.toJavaScript = .ok line := by
  obtain ⟨head, value, hgenerated⟩ := Tree.exists_generated (wellFormed_of_parseSource h)
  exact ⟨_, hgenerated.toJavaScript_eq⟩

/-- Up to its value, a compilation is what comes of reading the source. -/
theorem map_compile_eq_map_parseSource :
    (compile source).map (fun _ ↦ ()) = (parseSource source).map fun _ ↦ () := by
  cases hparse : parseSource source with
  | ok tree =>
    obtain ⟨line, hline⟩ := exists_toJavaScript_of_parseSource hparse
    rw [compile_of_parseSource hparse hline]
    rfl
  | error _ | endless =>
    unfold compile generate
    rw [hparse]
    rfl

theorem exists_parseSource_of_compile (h : compile source = .ok program) :
    ∃ tree, parseSource source = .ok tree := by
  have hmap := @map_compile_eq_map_parseSource source
  rw [h] at hmap
  obtain ⟨tree, htree, -⟩ := Verdict.map_eq_ok_iff.1 hmap.symm
  exact ⟨tree, htree⟩

/-- Compiling fails only where reading does. -/
theorem compile_eq_error_iff {error : CompileError} :
    compile source = .error error ↔ parseSource source = .error error := by
  rw [← Verdict.map_eq_error_iff, map_compile_eq_map_parseSource, Verdict.map_eq_error_iff]

theorem compile_eq_endless_iff : compile source = .endless ↔ parseSource source = .endless := by
  rw [← Verdict.map_eq_endless_iff, map_compile_eq_map_parseSource, Verdict.map_eq_endless_iff]

theorem normalize_eq_error_iff {error : CompileError} :
    normalize source = .error error ↔ parseSource source = .error error :=
  Verdict.map_eq_error_iff

theorem assemble_inj {line line' : String} :
    Program.assemble line = Program.assemble line' ↔ line = line' := by
  unfold Program.assemble
  simp

theorem normalize_eq_iff (h : parseSource source = .ok tree) (h' : parseSource source' = .ok tree') :
    normalize source = normalize source' ↔ tree.eraseSpans = tree'.eraseSpans := by
  rw [normalize_of_parseSource h, normalize_of_parseSource h', Verdict.ok.injEq]
  exact Tree.toSource_eq_iff (wellFormed_of_parseSource h) (wellFormed_of_parseSource h')

theorem compile_eq_iff (h : parseSource source = .ok tree) (h' : parseSource source' = .ok tree') :
    compile source = compile source' ↔ tree.eraseSpans = tree'.eraseSpans := by
  obtain ⟨line, hline⟩ := exists_toJavaScript_of_parseSource h
  obtain ⟨line', hline'⟩ := exists_toJavaScript_of_parseSource h'
  have hiff := Tree.toJavaScript_eq_iff (wellFormed_of_parseSource h) (wellFormed_of_parseSource h')
  rw [compile_of_parseSource h hline, compile_of_parseSource h' hline', ← hiff, hline, hline',
    Verdict.ok.injEq, Except.ok.injEq, assemble_inj]

end Sources

/-- Laying out is done once and for all: a text in normal layout stays as it is, with or without a final
line feed, and it compiles to the program of the source. -/
theorem normalize_idempotent (source text : String) (h : normalize source = .ok text)
    (hlimit : text.utf8ByteSize ≤ Span.limit) :
    normalize text = .ok text ∧ normalize (text ++ "\n") = .ok text ∧
      compile text = compile source ∧ ∃ program, compile source = .ok program := by
  obtain ⟨tree, htree, rfl⟩ := exists_parseSource_of_normalize h
  have hspells := spells_toSource (wellFormed_of_parseSource htree)
  have hfeed : "\n".toList.all Lexeme.isBlank := rfl
  obtain ⟨read, hread, herase⟩ := exists_parseSource_of_spells hlimit hspells
  obtain ⟨read', hread', herase'⟩ := exists_parseSource_append hlimit hfeed hspells
  obtain ⟨line, hline⟩ := exists_toJavaScript_of_parseSource htree
  refine ⟨?_, ?_, ?_, _, compile_of_parseSource htree hline⟩
  · calc
      normalize tree.toSource = normalize source := (normalize_eq_iff hread htree).2 herase
      _ = .ok tree.toSource := h
  · calc
      normalize (tree.toSource ++ "\n") = normalize source := (normalize_eq_iff hread' htree).2 herase'
      _ = .ok tree.toSource := h
  · exact (compile_eq_iff hread htree).2 herase

/-- Leading zeros and whatever stands behind the definition are gone after the first time. -/
theorem normalize_idempotent_leading_zeros :
    let source := " def f(x)\tadd(x,007) end 5"
    let text := "def f(x)\n  add(x, 7)\nend"
    normalize source = .ok text ∧ text.utf8ByteSize ≤ Span.limit ∧ normalize text = .ok text ∧
      normalize (text ++ "\n") = .ok text ∧ compile text = compile source ∧
        ∃ program, compile source = .ok program := by
  intro source text
  have h : normalize source = .ok text := by decide +kernel
  have hlimit : text.utf8ByteSize ≤ Span.limit := by decide
  exact ⟨h, hlimit, normalize_idempotent source text h hlimit⟩

/-- Two sources compile to the same program exactly if they have the same normal layout, which is to say
that their trees differ in nothing but spans. -/
theorem compile_eq_iff_normalize_eq {program program' : String} (source source' : String)
    (h : compile source = .ok program) (h' : compile source' = .ok program') :
    ∃ tree tree', parseSource source = .ok tree ∧ parseSource source' = .ok tree' ∧
      (compile source = compile source' ↔ normalize source = normalize source') ∧
      (compile source = compile source' ↔ tree.eraseSpans = tree'.eraseSpans) ∧
      (normalize source = normalize source' ↔ tree.eraseSpans = tree'.eraseSpans) := by
  obtain ⟨tree, htree⟩ := exists_parseSource_of_compile h
  obtain ⟨tree', htree'⟩ := exists_parseSource_of_compile h'
  have hcompile := compile_eq_iff htree htree'
  have hnormalize := normalize_eq_iff htree htree'
  exact ⟨tree, tree', htree, htree', hcompile.trans hnormalize.symm, hcompile, hnormalize⟩

/-- `def f(x)x end` in two layouts. -/
theorem compile_eq_iff_normalize_eq_layouts :
    let source := "def f(x)x end"
    let source' := "\n def f( x )\n x end"
    let program := Program.assemble "function f(x) \x7b return x \x7d;"
    compile source = .ok program ∧ compile source' = .ok program ∧
      ∃ tree tree', parseSource source = .ok tree ∧ parseSource source' = .ok tree' ∧
        (compile source = compile source' ↔ normalize source = normalize source') ∧
        (compile source = compile source' ↔ tree.eraseSpans = tree'.eraseSpans) ∧
        (normalize source = normalize source' ↔ tree.eraseSpans = tree'.eraseSpans) := by
  intro source source' program
  have h : compile source = .ok program := by decide +kernel
  have h' : compile source' = .ok program := by decide +kernel
  exact ⟨h, h', compile_eq_iff_normalize_eq source source' h h'⟩

section Lines

variable {source program line : String} {tree : Tree}

/-- The lines of a text, which are separated by line feeds. -/
def Text.lines (text : String) : List String := (text.split '\n').toList.map String.Slice.copy

theorem lines_assemble (h : '\n' ∉ line.toList) :
    Text.lines (Program.assemble line) = [Program.addition, line, Program.trial] := by
  have hlines : ∀ text ∈ [Program.addition, line, Program.trial], '\n' ∉ text.toList := by
    simp only [List.forall_mem_cons]
    exact ⟨by decide, h, by decide, by simp⟩
  have htext : Program.assemble line =
      (String.singleton '\n').intercalate [Program.addition, line, Program.trial] := by
    rw [String.intercalate_cons_cons, String.intercalate_cons_cons, String.intercalate_singleton,
      Program.assemble]
    simp only [String.append_assoc]
    rfl
  rw [Text.lines, htext]
  exact String.toList_split_intercalate hlines

/-- A function of plain parts is one line. -/
theorem lineFeed_notMem_functionText {head value : String} (hhead : Tree.Plain head)
    (hvalue : Tree.Plain value) : '\n' ∉ (Tree.functionText head value).toList := by
  unfold Tree.functionText
  simp only [String.toList_append, List.mem_append, not_or]
  exact ⟨⟨⟨⟨by decide, fun hc ↦ (hhead _ hc).2.2 rfl⟩, by decide⟩, fun hc ↦ (hvalue _ hc).2.2 rfl⟩,
    by decide⟩

/-- A program is three lines, of which the second one is the function of the tree. -/
theorem exists_lines_of_compile (h : compile source = .ok program)
    (htree : parseSource source = .ok tree) :
    ∃ line, tree.toJavaScript = .ok line ∧
      Text.lines program = [Program.addition, line, Program.trial] := by
  obtain ⟨head, value, hgenerated⟩ := Tree.exists_generated (wellFormed_of_parseSource htree)
  rw [compile_of_parseSource htree hgenerated.toJavaScript_eq, Verdict.ok.injEq] at h
  refine ⟨_, hgenerated.toJavaScript_eq, ?_⟩
  rw [← h]
  exact lines_assemble (lineFeed_notMem_functionText hgenerated.plain_head hgenerated.plain_value)

end Lines

/-- The function of a well-formed definition is one line with one head and one value, and these are read
back as the definition.  So the second of the three lines of a program determines the tree of its source. -/
theorem toJavaScript_read_back :
    (∀ tree : Tree, tree.WellFormed → ∃ head value,
      tree.toJavaScript = .ok (Tree.functionText head value) ∧
      '\n' ∉ (Tree.functionText head value).toList ∧ Tree.Plain head ∧ Tree.Plain value ∧
      (∀ head' value', Tree.functionText head value = Tree.functionText head' value' →
        head = head' ∧ value = value') ∧
      ((Tree.definitionText head value).utf8ByteSize ≤ Span.limit →
        ∃ read, parseSource (Tree.definitionText head value) = .ok read ∧
          read.eraseSpans = tree.eraseSpans)) ∧
    ∀ source program, compile source = .ok program →
      ∃ tree line, parseSource source = .ok tree ∧ tree.toJavaScript = .ok line ∧
        Text.lines program = [Program.addition, line, Program.trial] ∧
        ∀ source' program' tree', compile source' = .ok program' → parseSource source' = .ok tree' →
          (Text.lines program')[1]? = some line → tree'.eraseSpans = tree.eraseSpans := by
  constructor
  · intro tree htree
    obtain ⟨head, value, hgenerated⟩ := Tree.exists_generated htree
    obtain ⟨hfunction, hhead, hvalue, hspells⟩ := hgenerated
    refine ⟨head, value, hfunction, lineFeed_notMem_functionText hhead hvalue, hhead, hvalue,
      fun _ _ ↦ (Tree.functionText_inj hhead hvalue).1, fun hlimit ↦ ?_⟩
    exact exists_parseSource_of_spells hlimit hspells
  · intro source program h
    obtain ⟨tree, htree⟩ := exists_parseSource_of_compile h
    obtain ⟨line, hline, hlines⟩ := exists_lines_of_compile h htree
    refine ⟨tree, line, htree, hline, hlines, fun source' program' tree' h' htree' hsecond ↦ ?_⟩
    obtain ⟨line', hline', hlines'⟩ := exists_lines_of_compile h' htree'
    rw [hlines'] at hsecond
    obtain rfl : line' = line := Option.some.inj hsecond
    apply (Tree.toJavaScript_eq_iff (wellFormed_of_parseSource htree')
      (wellFormed_of_parseSource htree)).1
    rw [hline, hline']

/-- A nested call, and the source of a definition whose body is a variable. -/
theorem toJavaScript_read_back_nested_call :
    let name (text : String) : Ident := ⟨text, ⟨7, 3⟩⟩
    let tree := Tree.define (name "f") [name "x", name "y"] (.call (name "add")
      [.var (name "x"), .call (name "g") [] ⟨2, 0⟩, .int "70" ⟨1, 1⟩] ⟨0, 0⟩) ⟨5, 5⟩
    let head := "f(x,y)"
    let value := "add(x,g(),70)"
    let source := "def f(x)x end"
    let line := "function f(x) \x7b return x \x7d;"
    (tree.WellFormed ∧ tree.toJavaScript = .ok (Tree.functionText head value) ∧
      '\n' ∉ (Tree.functionText head value).toList ∧ Tree.Plain head ∧ Tree.Plain value ∧
      (∀ head' value', Tree.functionText head value = Tree.functionText head' value' →
        head = head' ∧ value = value') ∧
      (Tree.definitionText head value).utf8ByteSize ≤ Span.limit ∧
      ∃ read, parseSource (Tree.definitionText head value) = .ok read ∧
        read.eraseSpans = tree.eraseSpans) ∧
    compile source = .ok (Program.assemble line) ∧ ∃ tree,
      parseSource source = .ok tree ∧ tree.toJavaScript = .ok line ∧
        Text.lines (Program.assemble line) = [Program.addition, line, Program.trial] ∧
        ∀ source' program' tree', compile source' = .ok program' → parseSource source' = .ok tree' →
          (Text.lines program')[1]? = some line → tree'.eraseSpans = tree.eraseSpans := by
  intro name tree head value source line
  have hwell : tree.WellFormed := by
    simp [tree, name, Tree.WellFormed, Tree.WellFormedBody, Tree.WellFormedBodies, Ident.WellFormed,
      Numeral.IsCanonical]
  have hfunction : tree.toJavaScript = .ok (Tree.functionText head value) := by decide +kernel
  have hcompile : compile source = .ok (Program.assemble line) := by decide +kernel
  constructor
  · obtain ⟨_, _, hresult, hfeed, hhead, hvalue, hunique, hread⟩ := toJavaScript_read_back.1 tree hwell
    obtain ⟨rfl, rfl⟩ := hunique head value (Except.ok.inj (hresult.symm.trans hfunction))
    have hlimit : (Tree.definitionText head value).utf8ByteSize ≤ Span.limit := by decide +kernel
    exact ⟨hwell, hresult, hfeed, hhead, hvalue, hunique, hlimit, hread hlimit⟩
  · obtain ⟨tree, _, htree, hline, hlines, hunique⟩ := toJavaScript_read_back.2 source _ hcompile
    have hthree := hlines.symm.trans (lines_assemble (show '\n' ∉ line.toList by decide))
    obtain ⟨rfl, -⟩ := List.cons.inj (List.cons.inj hthree).2
    exact ⟨hcompile, tree, htree, hline, hlines, hunique⟩

end OneDef
