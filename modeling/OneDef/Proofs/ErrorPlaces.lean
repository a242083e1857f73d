import OneDef.Proofs.Concatenation

/-!
# Where errors lie

A source that is not compiled fails at one place, and the error says which.  A text that is no token is named
from its first character on, and everything in front of it can be scanned.  A token that is refused is one of
the tokens of the source.  An end that came too early lies behind the last token, so that nothing but blanks
can follow.

All of these places are spans between characters.  No other error comes from compiling: a tree that was read
can always be generated, and nothing trails behind a definition.
-/

namespace OneDef

open Grammar Pieces

section Spans

variable {source text before rest : String} {span : Span}

/-- A span that starts and ends between characters of a source. -/
structure Span.Within (span : Span) (source : String) : Prop where
  start_le_stop : span.start ≤ span.stop
  stop_le_size : span.stop ≤ source.utf8ByteSize
  start_isValid : String.Pos.Raw.IsValid source ⟨span.start⟩
  stop_isValid : String.Pos.Raw.IsValid source ⟨span.stop⟩

theorem Span.within_of_slice? (h : Text.slice? source span = some text) : span.Within source := by
  obtain ⟨before, after, rfl, hstart, hstop⟩ := Text.slice?_eq_some_iff.1 h
  obtain ⟨start, stop⟩ := span
  obtain rfl : start = before.utf8ByteSize := hstart
  obtain rfl : stop = (before ++ text).utf8ByteSize := hstop
  constructor
  · simp
  · simp
  · exact String.Pos.Raw.isValid_iff_exists_append.2 ⟨before, text ++ after, String.append_assoc, rfl⟩
  · exact String.Pos.Raw.isValid_iff_exists_append.2 ⟨before ++ text, after, rfl, rfl⟩

theorem Text.slice?_append_left (before rest : String) :
    slice? (before ++ rest) ⟨0, before.utf8ByteSize⟩ = some before := by
  refine slice?_eq_some_iff.2 ⟨"", rest, ?_, rfl, ?_⟩
  · rw [String.empty_append]
  · rw [String.empty_append]

theorem Text.slice?_append_right (before rest : String) :
    slice? (before ++ rest) ⟨before.utf8ByteSize, (before ++ rest).utf8ByteSize⟩ = some rest := by
  refine slice?_eq_some_iff.2 ⟨before, "", ?_, rfl, rfl⟩
  rw [String.append_empty]

/-- The first character of the text at a span is at the start of the span. -/
theorem Text.slice?_head {c : Char} {start stop : Nat}
    (h : slice? source ⟨start, stop⟩ = some text) (hfirst : text.toList.head? = some c) :
    slice? source ⟨start, start + c.utf8Size⟩ = some (String.singleton c) := by
  obtain ⟨tail, htail⟩ := List.head?_eq_some_iff.1 hfirst
  have htext : text = String.singleton c ++ String.ofList tail := by
    rw [← String.toList_inj, htail]
    simp
  obtain ⟨before, after, hsource, hstart, -⟩ := slice?_eq_some_iff.1 h
  refine slice?_eq_some_iff.2 ⟨before, String.ofList tail ++ after, ?_, hstart, ?_⟩
  · rw [hsource, htext]
    simp only [String.append_assoc]
  · rw [String.utf8ByteSize_append, String.utf8ByteSize_singleton]
    exact congrArg (· + c.utf8Size) hstart

end Spans

namespace Pieces

variable {source : String}

theorem blanks_of_tokensAt_eq_nil {offset : Nat} {ps : List (List Char)}
    (hpiece : ∀ piece ∈ ps, IsPiece piece) (hgood : ∀ piece ∈ ps, Good piece)
    (h : tokensAt offset ps = []) : ps.flatten.all Lexeme.isBlank := by
  induction ps generalizing offset with
  | nil => rfl
  | cons piece ps ih =>
    rw [List.forall_mem_cons] at hpiece hgood
    rw [tokensAt, List.append_eq_nil_iff] at h
    have hothers := ih hpiece.2 hgood.2 h.2
    obtain ⟨c, hc, rfl⟩ | ⟨kind, hkind⟩ := hpiece.1.good_iff.1 hgood.1
    · rw [List.flatten_cons, List.singleton_append, List.all_cons, hc, hothers]
      rfl
    · rw [tokenAt, hkind] at h
      cases h.1

/-- Pieces are cut behind the last token, or in front of all of them if there is no token. -/
theorem exists_split_at_end (ps : List (List Char)) :
    ∃ qs rs, ps = qs ++ rs ∧ tokensAt (Text.size qs.flatten) rs = [] ∧
      endOffset (tokensAt 0 ps) = Text.size qs.flatten := by
  cases hlast : (tokensAt 0 ps).getLast? with
  | none =>
    refine ⟨[], ps, rfl, List.getLast?_eq_none_iff.1 hlast, ?_⟩
    rw [endOffset, hlast]
    rfl
  | some last =>
    obtain ⟨qs, rs, hps, hqs, hstop⟩ := exists_split_behind (List.append_nil _).symm hlast
    rw [Nat.zero_add] at hstop
    refine ⟨qs, rs, hps, ?_, ?_⟩
    · rwa [hps, tokensAt_append, Nat.zero_add, List.self_eq_append_right] at hqs
    · rw [endOffset, hlast, ← hstop]
      rfl

/-- Only blanks stand behind the last token. -/
theorem exists_blanks_behind (hgood : AllGood source.toList) :
    ∃ before rest, source = before ++ rest ∧ rest.toList.all Lexeme.isBlank ∧
      endOffset (tokensAt 0 (pieces source.toList)) = before.utf8ByteSize := by
  have hcut := isCut_pieces source.toList
  obtain ⟨qs, rs, hpieces, hrs, hend⟩ := exists_split_at_end (pieces source.toList)
  rw [hpieces] at hcut
  refine ⟨String.ofList qs.flatten, String.ofList rs.flatten, ?_, ?_, ?_⟩
  · rw [← String.toList_inj, ← hcut.flatten_eq]
    simp
  · rw [String.toList_ofList]
    exact blanks_of_tokensAt_eq_nil (fun piece hpiece ↦ hcut.isPiece piece (by simp [hpiece]))
      (fun piece hpiece ↦ hgood piece (by simp [hpieces, hpiece])) hrs
  · rw [hend, Text.size_ofList]

end Pieces

/-- What parsing reports is a token that it refused, or the end behind the last one. -/
theorem Grammar.parse_error_cases {ts : List Token} {error : ParseError}
    (h : Tree.parse ts = .error error) :
    (∃ expected, ∃ token ∈ ts, error = .unexpectedToken expected token.kind token.span) ∨
      ∃ expected, error = .unexpectedEnd expected ⟨endOffset ts, endOffset ts⟩ := by
  cases reads_definition.outcome ts with
  | ok front hts _ hread =>
    rw [hts, parse_of_ok (hread _ rfl)] at h
    cases h
  | @ended kind _ hread _ =>
    rw [parse_of_ended hread, endSpan_eq] at h
    exact .inr ⟨some kind, (Except.error.inj h).symm⟩
  | @refused front rest found kind hts _ _ hread =>
    rw [hts, parse_of_refused (hread rest)] at h
    exact .inl ⟨kind, found, by simp [hts], (Except.error.inj h).symm⟩

/-- Where an error of a source lies. -/
inductive ErrorAt (source : String) : CompileError → Prop where
  /-- The remainder starts with the character at the span, and everything in front of it is scanned. -/
  | noMatch {before remainder : String} {span : Span} {c : Char} {ts : List Token}
      (hremainder : Text.slice? source ⟨span.start, source.utf8ByteSize⟩ = some remainder)
      (hfirst : remainder.toList.head? = some c) (hsize : span.stop = span.start + c.utf8Size)
      (hblank : ¬Lexeme.isBlank c) (hbefore : Text.slice? source ⟨0, span.start⟩ = some before)
      (hlex : lex before = .ok ts) : ErrorAt source (.lex (.noMatch remainder span))
  /-- The span is that of a token of the kind that was found. -/
  | unexpectedToken {expected found : Kind} {span : Span} {ts : List Token} {token : Token}
      (hlex : lex source = .ok ts) (htoken : token ∈ ts) (hkind : token.kind = found)
      (hspan : token.span = span) (hslice : Text.slice? source span = some token.text) :
      ErrorAt source (.parse (.unexpectedToken expected found span))
  /-- The span is empty and lies behind all tokens, with only blanks behind it. -/
  | unexpectedEnd {expected : Option Kind} {span : Span} {ts : List Token} {rest : String}
      (hlex : lex source = .ok ts) (hspan : span = ⟨endOffset ts, endOffset ts⟩)
      (hrest : Text.slice? source ⟨span.start, source.utf8ByteSize⟩ = some rest)
      (hblanks : rest.toList.all Lexeme.isBlank) :
      ErrorAt source (.parse (.unexpectedEnd expected span))

section Places

variable {source : String}

/-- A scan that fails has read the text in front of the remainder as if it stood alone. -/
theorem exists_front_of_lex {error : LexError} (hlimit : source.utf8ByteSize ≤ Span.limit)
    (h : lex source = .error error) :
    ∃ before c rest, source = before ++ String.ofList (c :: rest) ∧ ¬Lexeme.isBlank c ∧
      error = .noMatch (String.ofList (c :: rest))
        ⟨before.utf8ByteSize, before.utf8ByteSize + c.utf8Size⟩ ∧
      lex before = .ok (scan source).tokens := by
  obtain ⟨front, c, others, rest, hsource, hstops, rfl⟩ := exists_stops_of_lex hlimit h
  rw [← Text.size_toList, hsource] at hlimit
  have hbefore : (String.ofList front).utf8ByteSize ≤ Span.limit := by
    rw [Text.size_append] at hlimit
    rw [Text.size_ofList]
    omega
  have htokens : (scan source).tokens = tokensAt 0 (pieces front) := by
    rw [scan, hsource, hstops.ofText (by omega)]
  refine ⟨String.ofList front, c, others ++ rest, ?_, hstops.not_isBlank, ?_, ?_⟩
  · rw [← String.toList_inj, String.toList_append, String.toList_ofList, String.toList_ofList, hsource]
    rfl
  · rw [Text.size_ofList]
    rfl
  · rw [htokens, lex_of_allGood hbefore (by rw [String.toList_ofList]; exact hstops.allGood),
      String.toList_ofList]

theorem errorAt_of_lex {error : LexError} (hlimit : source.utf8ByteSize ≤ Span.limit)
    (h : lex source = .error error) : ErrorAt source (.lex error) := by
  obtain ⟨before, c, rest, hsource, hblank, rfl, hlex⟩ := exists_front_of_lex hlimit h
  apply ErrorAt.noMatch
  case hremainder => rw [hsource]; exact Text.slice?_append_right _ _
  case hfirst => rw [String.toList_ofList]; rfl
  case hsize => rfl
  case hblank => exact hblank
  case hbefore => rw [hsource]; exact Text.slice?_append_left _ _
  case hlex => exact hlex

theorem errorAt_of_parse {ts : List Token} {error : ParseError} (hlex : lex source = .ok ts)
    (h : Tree.parse ts = .error error) : ErrorAt source (.parse error) := by
  obtain ⟨hgood, hts⟩ := eq_tokensAt_of_lex hlex
  obtain ⟨expected, token, htoken, rfl⟩ | ⟨expected, rfl⟩ := parse_error_cases h
  · have hslice := slice?_of_mem_tokensAt (hts ▸ htoken)
    exact .unexpectedToken hlex htoken rfl rfl hslice
  · obtain ⟨before, rest, hsource, hblanks, hend⟩ := exists_blanks_behind hgood
    have hslice := Text.slice?_append_right before rest
    rw [← hend, ← hts, ← hsource] at hslice
    exact .unexpectedEnd hlex rfl hslice hblanks

/-- The place of an error is a span of the source. -/
theorem ErrorAt.exists_within {error : CompileError} (h : ErrorAt source error) :
    ∃ span, error.span? = some span ∧ span.Within source := by
  cases h with
  | @noMatch _ _ span _ _ hremainder hfirst hsize _ _ _ =>
    have hslice := Text.slice?_head hremainder hfirst
    rw [← hsize] at hslice
    exact ⟨span, rfl, Span.within_of_slice? hslice⟩
  | @unexpectedToken _ _ span _ _ _ _ _ _ hslice => exact ⟨span, rfl, Span.within_of_slice? hslice⟩
  | @unexpectedEnd _ _ ts _ _ hspan hrest _ =>
    subst hspan
    obtain ⟨hle, -, hvalid, -⟩ := Span.within_of_slice? hrest
    exact ⟨_, rfl, Nat.le_refl _, hle, hvalid, hvalid⟩

end Places

/-- A source that is not compiled is not scanned or not parsed, and the error lies at a span of the source: at
the character where no token starts, at the token that was refused, or behind the last token. -/
theorem compile_error_at_place (source : String) (error : CompileError)
    (hlimit : source.utf8ByteSize ≤ Span.limit) (h : compile source = .error error) :
    ErrorAt source error ∧ ∃ span, error.span? = some span ∧ span.Within source := by
  have hplace : ErrorAt source error := by
    obtain ⟨lexError, hlex, rfl⟩ | ⟨ts, parseError, hlex, hparse, rfl⟩ :=
      parseSource_eq_error_iff.1 (compile_eq_error_iff.1 h)
    · exact errorAt_of_lex hlimit hlex
    · exact errorAt_of_parse hlex hparse
  exact ⟨hplace, hplace.exists_within⟩

/-- A character of two bytes behind a name, a comma for a name, and an end of the input in front of blanks. -/
theorem compile_error_at_place_each :
    let accent := " def fé"
    let comma := "def ,"
    let ended := "def f(\n"
    (compile accent = .error (.lex (.noMatch "é" ⟨6, 8⟩)) ∧
      ErrorAt accent (.lex (.noMatch "é" ⟨6, 8⟩)) ∧ (⟨6, 8⟩ : Span).Within accent) ∧
    (compile comma = .error (.parse (.unexpectedToken .identifier .comma ⟨4, 5⟩)) ∧
      ErrorAt comma (.parse (.unexpectedToken .identifier .comma ⟨4, 5⟩)) ∧
      (⟨4, 5⟩ : Span).Within comma) ∧
    compile ended = .error (.parse (.unexpectedEnd (some .identifier) ⟨6, 6⟩)) ∧
      ErrorAt ended (.parse (.unexpectedEnd (some .identifier) ⟨6, 6⟩)) ∧
      (⟨6, 6⟩ : Span).Within ended := by
  intro accent comma ended
  have haccent : compile accent = .error (.lex (.noMatch "é" ⟨6, 8⟩)) := by decide +kernel
  have hcomma : compile comma = .error (.parse (.unexpectedToken .identifier .comma ⟨4, 5⟩)) := by
    decide +kernel
  have hended : compile ended = .error (.parse (.unexpectedEnd (some .identifier) ⟨6, 6⟩)) := by
    decide +kernel
  obtain ⟨hfirst, _, ⟨⟩, hwithin⟩ := compile_error_at_place accent _ (by decide) haccent
  obtain ⟨hsecond, _, ⟨⟩, hwithin'⟩ := compile_error_at_place comma _ (by decide) hcomma
  obtain ⟨hthird, _, ⟨⟩, hwithin''⟩ := compile_error_at_place ended _ (by decide) hended
  exact ⟨⟨haccent, hfirst, hwithin⟩, ⟨hcomma, hsecond, hwithin'⟩, hended, hthird, hwithin''⟩

end OneDef
