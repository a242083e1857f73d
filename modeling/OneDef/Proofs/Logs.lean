import OneDef.Log
import OneDef.Proofs.ErrorPlaces
import OneDef.Proofs.Views

/-!
# The log accounts for every token

The log of a source is made of four parts: the tokens read, their number, what was parsed, and the size of
what was generated.  A part is left out, with all that would follow, where its step fails.

Tokens are traced while they are read, so a failed scan leaves traces: they are those of the text in front of
the failure.  The warning about what stands behind a definition counts the tokens that the grammar does not
give to the definition.
-/

namespace OneDef

open Grammar Pieces

section Steps

variable {source : String} {ts front rest : List Token} {tree : Tree}

theorem Log.lex_of_ok (h : OneDef.lex source = .ok ts) :
    Log.lex source = ts.map Log.token ++ [Log.lexed ts] := by
  obtain ⟨hending, rfl⟩ := Scan.result_eq_ok_iff.1 h
  rw [Log.lex, Log.scanning, hending]

/-- A scan that fails has traced the tokens of the text in front of the failure. -/
theorem Log.exists_lex_of_error {error : LexError} (hlimit : source.utf8ByteSize ≤ Span.limit)
    (h : OneDef.lex source = .error error) :
    ∃ before ts, Text.slice? source ⟨0, error.span.start⟩ = some before ∧ OneDef.lex before = .ok ts ∧
      Log.lex source = ts.map Log.token := by
  have hending := Scan.result_eq_error_iff.1 h
  obtain ⟨before, c, rest, hsource, -, rfl, hlex⟩ := exists_front_of_lex hlimit h
  refine ⟨before, (scan source).tokens, ?_, hlex, ?_⟩
  · rw [hsource]
    exact Text.slice?_append_left _ _
  · rw [Log.lex, Log.scanning, hending, List.append_nil]

theorem Log.reading_of_error {error : ParseError} (h : Tree.parse ts = .error error) :
    Log.reading ts = [] := by
  unfold Tree.parse at h
  unfold Log.reading
  cases hfront : Tree.parseFront ts with
  | error other => rfl
  | ok found =>
    rw [hfront] at h
    cases h

theorem Log.reading_of_definition (h : Definition front tree) :
    Log.reading (front ++ rest) = Log.ignored rest ++ Log.parsed tree := by
  have hfront : Tree.parseFront (front ++ rest) = .ok (tree, rest) := by
    rw [Tree.parseFront, h.definition_append rest]
    rfl
  rw [Log.reading, hfront]

/-- The warning is about the first of the tokens that are left, and counts all of them. -/
theorem Log.ignored_eq (rest : List Token) :
    Log.ignored rest = rest.head?.toList.map fun first ↦
      ⟨.warn, "compiler::parser::expr", "ignoring tokens after `end`",
        [("count", toString rest.length), ("start", toString first.span.start)]⟩ := by
  cases rest <;> rfl

theorem Log.parse_of_lexError {error : LexError} (h : OneDef.lex source = .error error) :
    Log.parse source = Log.lex source := by
  rw [Log.parse, h, List.append_nil]

theorem Log.parse_of_ok (h : OneDef.lex source = .ok ts) :
    Log.parse source = ts.map Log.token ++ [Log.lexed ts] ++ Log.reading ts := by
  rw [Log.parse, Log.lex_of_ok h, h]

theorem Log.compile_of_error {error : CompileError} (h : parseSource source = .error error) :
    Log.compile source = Log.parse source := by
  have hgenerate : generate source = .error error := by
    rw [generate, h]
    rfl
  rw [Log.compile, hgenerate, List.append_nil]

theorem utf8ByteSize_assemble (definition : String) :
    (Program.assemble definition).utf8ByteSize =
      definition.utf8ByteSize + Program.addition.utf8ByteSize + Program.trial.utf8ByteSize + 2 := by
  have hfeed : "\n".utf8ByteSize = 1 := rfl
  unfold Program.assemble
  simp only [String.utf8ByteSize_append, hfeed]
  omega

/-- What is generated can be measured in the program: the rest of it is always the same. -/
theorem Log.exists_compile_of_ok (h : parseSource source = .ok tree) :
    ∃ program len, OneDef.compile source = .ok program ∧
      program.utf8ByteSize = len + Program.addition.utf8ByteSize + Program.trial.utf8ByteSize + 2 ∧
      Log.compile source = Log.parse source ++
        [⟨.debug, "compiler::driver", "generated definition", [("len", toString len)]⟩] := by
  obtain ⟨line, hline⟩ := exists_toJavaScript_of_parseSource h
  have hgenerate : generate source = .ok line := by
    rw [generate, h]
    change Verdict.ofExcept (tree.toJavaScript.mapError _) = _
    rw [hline]
    rfl
  refine ⟨Program.assemble line, line.utf8ByteSize, compile_of_parseSource h hline,
    utf8ByteSize_assemble line, ?_⟩
  rw [Log.compile, hgenerate]
  rfl

/-- A definition that is read is what the grammar takes from the front of the tokens. -/
theorem Log.exists_parse_of_ok (hlex : OneDef.lex source = .ok ts) (hparse : Tree.parse ts = .ok tree) :
    ∃ front rest, ts = front ++ rest ∧ Definition front tree ∧
      Log.parse source = ts.map Log.token ++ [Log.lexed ts] ++ Log.ignored rest ++ Log.parsed tree := by
  obtain ⟨front, ⟨rest, rfl⟩, hdefinition⟩ := exists_definition_of_parse hparse
  refine ⟨front, rest, rfl, hdefinition, ?_⟩
  rw [Log.parse_of_ok hlex, Log.reading_of_definition hdefinition]
  simp only [List.append_assoc]

end Steps

/-- Every token that is read is traced, in order, and each step that ends well is reported behind it.  A scan
always ends, and one that fails has traced the text in front of the failure.  Tokens behind the definition are
warned about. -/
theorem compile_log_accounts_for_tokens (source : String) (hlimit : source.utf8ByteSize ≤ Span.limit) :
    let traces (ts : List Token) : List Event := ts.map fun token ↦ ⟨.trace, "compiler::lexer", "token",
      [("kind", token.kind.name), ("text", token.text), ("start", toString token.span.start)]⟩
    let counted (ts : List Token) : Event := ⟨.debug, "compiler::lexer", "tokenized source",
      [("count", toString (traces ts).length)]⟩
    lex source ≠ .endless ∧
    (∀ error, lex source = .error error → ∃ before ts,
      Text.slice? source ⟨0, error.span.start⟩ = some before ∧ lex before = .ok ts ∧
      (ts.Pairwise fun first second ↦ first.span.start < second.span.start) ∧
      Log.parse source = traces ts ∧ Log.compile source = Log.parse source) ∧
    ∀ ts, lex source = .ok ts →
      (ts.Pairwise fun first second ↦ first.span.start < second.span.start) ∧
      (∀ error, Tree.parse ts = .error error →
        Log.parse source = traces ts ++ [counted ts] ∧ Log.compile source = Log.parse source) ∧
      ∀ tree, Tree.parse ts = .ok tree → ∃ name params body span front rest program len,
        tree = .define name params body span ∧ ts = front ++ rest ∧ Definition front tree ∧
        Log.parse source = traces ts ++ [counted ts] ++
          (rest.head?.toList.map fun first ↦ ⟨.warn, "compiler::parser::expr", "ignoring tokens after `end`",
            [("count", toString (ts.length - front.length)), ("start", toString first.span.start)]⟩) ++
          [⟨.debug, "compiler::parser::expr", "parsed definition",
            [("name", name.text), ("params", toString params.length)]⟩] ∧
        compile source = .ok program ∧
        program.utf8ByteSize = len + Program.addition.utf8ByteSize + Program.trial.utf8ByteSize + 2 ∧
        Log.compile source = Log.parse source ++
          [⟨.debug, "compiler::driver", "generated definition", [("len", toString len)]⟩] := by
  intro traces counted
  have hcounted : ∀ ts, Log.lexed ts = counted ts := by
    intro ts
    simp only [counted, traces, List.length_map]
    rfl
  refine ⟨lex_ne_endless hlimit, fun error hlex ↦ ?_, fun ts hlex ↦ ⟨pairwise_start_of_lex hlex, fun error hparse ↦ ?_,
    fun tree hparse ↦ ?_⟩⟩
  · obtain ⟨before, ts, hbefore, hts, hlog⟩ := Log.exists_lex_of_error hlimit hlex
    refine ⟨before, ts, hbefore, hts, pairwise_start_of_lex hts, ?_, ?_⟩
    · calc
        Log.parse source = Log.lex source := Log.parse_of_lexError hlex
        _ = traces ts := hlog
    · exact Log.compile_of_error (parseSource_eq_error_iff.2 (.inl ⟨error, hlex, rfl⟩))
  · constructor
    · rw [Log.parse_of_ok hlex, Log.reading_of_error hparse, hcounted, List.append_nil]
      rfl
    · exact Log.compile_of_error (parseSource_eq_error_iff.2 (.inr ⟨ts, error, hlex, hparse, rfl⟩))
  · obtain ⟨front, rest, hts, hdefinition, hlog⟩ := Log.exists_parse_of_ok hlex hparse
    obtain ⟨program, len, hprogram, hsize, hcompile⟩ :=
      Log.exists_compile_of_ok (parseSource_eq_ok_iff.2 ⟨ts, hlex, hparse⟩)
    have hrest : rest.length = ts.length - front.length := by
      rw [hts, List.length_append, Nat.add_sub_cancel_left]
    rw [Log.ignored_eq, hcounted, hrest] at hlog
    -- what the log says of the definition can be read off the one rule for definitions
    cases hdefinition with
    | define hfirst hname hopening hparams hclosing hbody hlast =>
      exact ⟨_, _, _, _, _, rest, program, len, rfl, hts,
        .define hfirst hname hopening hparams hclosing hbody hlast, hlog, hprogram, hsize, hcompile⟩

/-- A letter that is no token, a definition that breaks off, and a definition with two tokens behind it. -/
theorem compile_log_accounts_for_tokens_each :
    let word : Event :=
      ⟨.trace, "compiler::lexer", "token", [("kind", "def"), ("text", "def"), ("start", "0")]⟩
    let counted (count : String) : Event :=
      ⟨.debug, "compiler::lexer", "tokenized source", [("count", count)]⟩
    let source := "def f(a) 07 end 5 end"
    let front : List Token := [⟨.defWord, "def", ⟨0, 3⟩⟩, ⟨.identifier, "f", ⟨4, 5⟩⟩, ⟨.openParen, "(", ⟨5, 6⟩⟩,
      ⟨.identifier, "a", ⟨6, 7⟩⟩, ⟨.closeParen, ")", ⟨7, 8⟩⟩, ⟨.integer, "07", ⟨9, 11⟩⟩,
      ⟨.endWord, "end", ⟨12, 15⟩⟩]
    let rest : List Token := [⟨.integer, "5", ⟨16, 17⟩⟩, ⟨.endWord, "end", ⟨18, 21⟩⟩]
    (lex "def é" = .error (.noMatch "é" ⟨4, 6⟩) ∧ Log.compile "def é" = [word]) ∧
    (lex "def" = .ok [⟨.defWord, "def", ⟨0, 3⟩⟩] ∧ Log.compile "def" = [word, counted "1"]) ∧
    lex source = .ok (front ++ rest) ∧
      Log.parse source = (front ++ rest).map Log.token ++ [counted "9",
        ⟨.warn, "compiler::parser::expr", "ignoring tokens after `end`", [("count", "2"), ("start", "16")]⟩,
        ⟨.debug, "compiler::parser::expr", "parsed definition", [("name", "f"), ("params", "1")]⟩] ∧
      Log.compile source = Log.parse source ++
        [⟨.debug, "compiler::driver", "generated definition", [("len", "27")]⟩] := by
  intro word counted source front rest
  have haccent : lex "def é" = .error (.noMatch "é" ⟨4, 6⟩) := by decide +kernel
  have hword : lex "def" = .ok [⟨.defWord, "def", ⟨0, 3⟩⟩] := by decide +kernel
  have hlex : lex source = .ok (front ++ rest) := by decide +kernel
  refine ⟨⟨haccent, ?_⟩, ⟨hword, ?_⟩, hlex, ?_⟩
  · obtain ⟨before, ts, hbefore, hts, -, hparse, hcompile⟩ :=
      (compile_log_accounts_for_tokens "def é" (by decide)).2.1 _ haccent
    have hfront : Text.slice? "def é" ⟨0, 4⟩ = some "def " := by decide +kernel
    obtain rfl : "def " = before := Option.some.inj (hfront.symm.trans hbefore)
    have hread : lex "def " = .ok [⟨.defWord, "def", ⟨0, 3⟩⟩] := by decide +kernel
    obtain rfl := Verdict.ok.inj (hread.symm.trans hts)
    exact hcompile.trans hparse
  · have hended : Tree.parse [⟨.defWord, "def", ⟨0, 3⟩⟩] =
        .error (.unexpectedEnd (some .identifier) ⟨3, 3⟩) := by decide +kernel
    obtain ⟨hparse, hcompile⟩ :=
      ((compile_log_accounts_for_tokens "def" (by decide)).2.2 _ hword).2.1 _ hended
    exact hcompile.trans hparse
  · have hfront : Definition front
        (.define ⟨"f", ⟨4, 5⟩⟩ [⟨"a", ⟨6, 7⟩⟩] (.int "7" ⟨9, 11⟩) ⟨0, 15⟩) :=
      .define rfl rfl rfl (.cons (.name rfl) .nil) rfl (.integer rfl) rfl
    have hprogram : compile source = .ok (Program.assemble "function f(a) \x7b return 7 \x7d;") := by
      decide +kernel
    obtain ⟨name, params, body, span, front', rest', program, len, htree, hts, hfront', hparse, hprogram',
        hsize, hcompile⟩ :=
      ((compile_log_accounts_for_tokens source (by decide)).2.2 _ hlex).2.2 _
        (hfront.parse_of_prefix (List.prefix_append front rest))
    obtain ⟨rfl, rfl, rfl, rfl⟩ := Tree.define.inj htree
    obtain ⟨rfl, -⟩ := hfront.unique_of_prefix hfront' (List.prefix_append front rest) ⟨rest', hts.symm⟩
    obtain rfl := List.append_cancel_left hts
    obtain rfl := Verdict.ok.inj (hprogram.symm.trans hprogram')
    have hline : "function f(a) \x7b return 7 \x7d;".utf8ByteSize = 27 := by decide
    obtain rfl : len = 27 := by
      rw [utf8ByteSize_assemble, hline] at hsize
      omega
    refine ⟨hparse.trans ?_, hcompile⟩
    decide +kernel

end OneDef
