import OneDef.Proofs.Relocation

/-!
# Layout

A source that is scanned is its tokens with a gap in front of each of them and one more behind the last.
The gaps are blank, and none is empty between two words.  Any other gaps of this kind give a source with the
same tokens at other places.

From the tokens on nothing depends on places, so whatever is made of the two sources is the same up to
spans.  Forgetting all spans is reading all tokens at one place, which is how the second half is proved.
-/

namespace OneDef

/-- What a token is, wherever it stands. -/
def Token.unplaced (token : Token) : Kind × String := (token.kind, token.text)

namespace ParseError

def eraseSpan : ParseError → ParseError
  | unexpectedToken expected found _ => .unexpectedToken expected found (Span.emptyAt 0)
  | unexpectedEnd expected _ => .unexpectedEnd expected (Span.emptyAt 0)
  | trailingToken found _ => .trailingToken found (Span.emptyAt 0)

theorem mapOffsets_zero (error : ParseError) : error.mapOffsets (fun _ ↦ 0) = error.eraseSpan := by
  cases error <;> rfl

end ParseError

namespace Tree

/-- A tree or an error, up to spans. -/
def eraseResult (result : Except ParseError Tree) : Except ParseError Tree :=
  (result.map eraseSpans).mapError ParseError.eraseSpan

mutual

theorem mapOffsets_zero : ∀ tree : Tree, tree.mapOffsets (fun _ ↦ 0) = tree.eraseSpans
  | .define name params body span => by
    rw [mapOffsets, eraseSpans, mapOffsets_zero body]
    rfl
  | .call name args span => by
    rw [mapOffsets, eraseSpans, mapAllOffsets_zero args]
    rfl
  | .var name => by
    rw [mapOffsets, eraseSpans]
    rfl
  | .int value span => by
    rw [mapOffsets, eraseSpans]
    rfl

theorem mapAllOffsets_zero : ∀ trees : List Tree, mapAllOffsets (fun _ ↦ 0) trees = eraseAllSpans trees
  | [] => rfl
  | tree :: trees => by
    rw [mapAllOffsets, eraseAllSpans, mapOffsets_zero tree, mapAllOffsets_zero trees]

end

theorem eraseResult_eq (result : Except ParseError Tree) : eraseResult result =
    (result.map (mapOffsets fun _ ↦ 0)).mapError (ParseError.mapOffsets fun _ ↦ 0) := by
  cases result with
  | error error => exact congrArg Except.error error.mapOffsets_zero.symm
  | ok tree => exact congrArg Except.ok tree.mapOffsets_zero.symm

section Results

variable {ts ts' : List Token}

theorem map_mapOffsets_zero (h : ts.map Token.unplaced = ts'.map Token.unplaced) :
    ts.map (Token.mapOffsets fun _ ↦ 0) = ts'.map (Token.mapOffsets fun _ ↦ 0) := by
  have hplaced (us : List Token) : us.map (Token.mapOffsets fun _ ↦ 0) =
      (us.map Token.unplaced).map fun token ↦ ⟨token.1, token.2, ⟨0, 0⟩⟩ := by
    rw [List.map_map]
    rfl
  rw [hplaced, hplaced, h]

/-- A reader to which places do not matter gives the same result up to spans. -/
theorem eraseResult_of_tokens {read : List Token → Except ParseError Tree}
    (hread : ∀ us, read (us.map (Token.mapOffsets fun _ ↦ 0)) =
      ((read us).map (mapOffsets fun _ ↦ 0)).mapError (ParseError.mapOffsets fun _ ↦ 0))
    (h : ts.map Token.unplaced = ts'.map Token.unplaced) :
    eraseResult (read ts) = eraseResult (read ts') := by
  calc
    eraseResult (read ts) = read (ts.map (Token.mapOffsets fun _ ↦ 0)) := by
      rw [eraseResult_eq, hread]
    _ = read (ts'.map (Token.mapOffsets fun _ ↦ 0)) := by rw [map_mapOffsets_zero h]
    _ = eraseResult (read ts') := by rw [eraseResult_eq, hread]

end Results

end Tree

section Results

variable {source source' : String} {ts ts' : List Token}

/-- The same text, or parse errors that differ in nothing but their spans. -/
inductive SameResult : Verdict CompileError String → Verdict CompileError String → Prop where
  | ok (text : String) : SameResult (.ok text) (.ok text)
  | error {error error' : ParseError} (h : error.eraseSpan = error'.eraseSpan) :
      SameResult (.error (.parse error)) (.error (.parse error'))

theorem parseSource_cases (hlex : lex source = .ok ts) (hlex' : lex source' = .ok ts')
    (h : Tree.eraseResult (Tree.parse ts) = Tree.eraseResult (Tree.parse ts')) :
    (∃ tree tree', parseSource source = .ok tree ∧ parseSource source' = .ok tree' ∧
      tree.eraseSpans = tree'.eraseSpans) ∨
    ∃ error error', parseSource source = .error (.parse error) ∧
      parseSource source' = .error (.parse error') ∧ error.eraseSpan = error'.eraseSpan := by
  cases hparse : Tree.parse ts with
  | ok tree =>
    cases hparse' : Tree.parse ts' with
    | ok tree' =>
      rw [hparse, hparse'] at h
      exact .inl ⟨tree, tree', parseSource_eq_ok_iff.2 ⟨ts, hlex, hparse⟩,
        parseSource_eq_ok_iff.2 ⟨ts', hlex', hparse'⟩, Except.ok.inj h⟩
    | error error' =>
      rw [hparse, hparse'] at h
      cases h
  | error error =>
    cases hparse' : Tree.parse ts' with
    | ok tree' =>
      rw [hparse, hparse'] at h
      cases h
    | error error' =>
      rw [hparse, hparse'] at h
      exact .inr ⟨error, error', parseSource_eq_error_iff.2 (.inr ⟨ts, error, hlex, hparse, rfl⟩),
        parseSource_eq_error_iff.2 (.inr ⟨ts', error', hlex', hparse', rfl⟩), Except.error.inj h⟩

theorem sameResult_compile (hlex : lex source = .ok ts) (hlex' : lex source' = .ok ts')
    (h : Tree.eraseResult (Tree.parse ts) = Tree.eraseResult (Tree.parse ts')) :
    SameResult (compile source) (compile source') := by
  rcases parseSource_cases hlex hlex' h with
    ⟨tree, tree', htree, htree', herase⟩ | ⟨error, error', herror, herror', herase⟩
  · obtain ⟨line, hline⟩ := exists_toJavaScript_of_parseSource htree
    rw [← (compile_eq_iff htree htree').2 herase, compile_of_parseSource htree hline]
    exact .ok _
  · rw [compile_eq_error_iff.2 herror, compile_eq_error_iff.2 herror']
    exact .error herase

theorem sameResult_normalize (hlex : lex source = .ok ts) (hlex' : lex source' = .ok ts')
    (h : Tree.eraseResult (Tree.parse ts) = Tree.eraseResult (Tree.parse ts')) :
    SameResult (normalize source) (normalize source') := by
  rcases parseSource_cases hlex hlex' h with
    ⟨tree, tree', htree, htree', herase⟩ | ⟨error, error', herror, herror', herase⟩
  · rw [← (normalize_eq_iff htree htree').2 herase, normalize_of_parseSource htree]
    exact .ok _
  · rw [normalize_eq_error_iff.2 herror, normalize_eq_error_iff.2 herror']
    exact .error herase

end Results

namespace Pieces

open Lexeme

/-- Tokens behind their gaps, and a gap behind the last of them. -/
def layOut : List (String × Token) → String → String
  | [], last => last
  | (gap, token) :: placed, last => gap ++ (token.text ++ layOut placed last)

/-- Gaps are blank, and between two words there is one. -/
structure Gaps (placed : List (String × Token)) (last : String) : Prop where
  blank : ∀ entry ∈ placed, entry.1.toList.all isBlank
  blank_last : last.toList.all isBlank
  between_words : placed.IsChain fun first second ↦
    first.2.kind.isWord → second.2.kind.isWord → second.1 ≠ ""

section Layouts

variable {gap last : String} {token : Token} {placed : List (String × Token)} {cs : List Char}

theorem toList_layOut_cons : (layOut ((gap, token) :: placed) last).toList =
    gap.toList ++ (token.text.toList ++ (layOut placed last).toList) := by
  rw [layOut, String.toList_append, String.toList_append]

theorem Gaps.tail {entry : String × Token} (h : Gaps (entry :: placed) last) : Gaps placed last where
  blank := fun next hnext ↦ h.blank next (List.mem_cons_of_mem entry hnext)
  blank_last := h.blank_last
  between_words := h.between_words.tail

theorem Fits.endsWord_append {kind : Kind} {text rest : List Char} (h : Fits kind text) :
    endsWord (text ++ rest) = !kind.isWord := by
  cases hkind : kind.isWord with
  | true =>
    obtain ⟨c, others, rfl⟩ := List.exists_cons_of_ne_nil h.isPiece.ne_nil
    simp [endsWord, h.isWordChar hkind c List.mem_cons_self]
  | false =>
    cases kind with
    | defWord | endWord | identifier | integer => cases hkind
    | openParen | closeParen | comma =>
      obtain rfl := h
      rfl

/-- A token is kept apart from the next one by its gap, or because one of the two is no word. -/
theorem separated_layOut_iff {space : String} {next : Token} (htoken : token.Scanned)
    (hnext : next.Scanned) (hblank : space.toList.all isBlank) :
    Separated token.text.toList (layOut ((space, next) :: placed) last).toList ↔
      (token.kind.isWord → next.kind.isWord → space ≠ "") := by
  have hfits := fits_of_kind? htoken
  have hfits' := fits_of_kind? hnext
  rw [toList_layOut_cons]
  cases hspace : space.toList with
  | cons c rest =>
    rw [hspace, List.all_cons, Bool.and_eq_true] at hblank
    have hne : space ≠ "" := by
      rintro rfl
      cases hspace
    exact ⟨fun _ _ _ ↦ hne, fun _ ↦ separated_cons (isWordChar_of_isBlank hblank.1)⟩
  | nil =>
    have hempty : space = "" := String.toList_eq_nil_iff.1 hspace
    rw [List.nil_append]
    constructor
    · intro hsep hfirst hword
      have hends := endsWord_of_separated hfits.isPiece.ne_nil (hfits.isWordChar hfirst) hsep
      rw [hfits'.endsWord_append, hword] at hends
      cases hends
    · intro hwords
      apply hfits.separated
      rw [hfits'.endsWord_append]
      by_contra hboth
      simp only [Bool.or_eq_true, Bool.not_eq_true', not_or, Bool.not_eq_false] at hboth
      exact hwords hboth.1 hboth.2 hempty

theorem Gaps.separated (h : Gaps ((gap, token) :: placed) last)
    (hscanned : ∀ entry ∈ (gap, token) :: placed, entry.2.Scanned) :
    Separated token.text.toList (layOut placed last).toList := by
  cases placed with
  | nil => exact separated_of_blanks h.blank_last
  | cons entry placed =>
    simp only [List.forall_mem_cons] at hscanned
    exact (separated_layOut_iff hscanned.1 hscanned.2.1 (h.blank entry (by simp))).2
      (List.isChain_cons_cons.1 h.between_words).1

/-- However they are laid out, the tokens of a layout are those that were laid out. -/
theorem Gaps.spells (h : Gaps placed last) (hscanned : ∀ entry ∈ placed, entry.2.Scanned) :
    Spells (layOut placed last).toList fun ts ↦
      ts.map Token.unplaced = placed.map fun entry ↦ entry.2.unplaced := by
  induction placed with
  | nil =>
    apply (spells_blanks h.blank_last).imp
    rintro _ rfl
    rfl
  | cons entry placed ih =>
    obtain ⟨gap, token⟩ := entry
    have hgap := h.blank (gap, token) (by simp)
    have htoken : Spells token.text.toList (Word token.kind token.text) :=
      spells_toList (hscanned (gap, token) (by simp))
    have hplaced := ih h.tail fun next hnext ↦ hscanned next (List.mem_cons_of_mem _ hnext)
    rw [toList_layOut_cons]
    apply ((spells_blanks hgap).append (htoken.append hplaced (h.separated hscanned))
      (separated_blanks hgap)).imp
    rintro _ ⟨_, _, rfl, rfl, _, us, rfl, ⟨found, rfl, hkind, htext⟩, hus⟩
    have hfound : found.unplaced = token.unplaced := by
      unfold Token.unplaced
      rw [hkind, htext]
    calc
      ([] ++ ([found] ++ us)).map Token.unplaced = found.unplaced :: us.map Token.unplaced := rfl
      _ = token.unplaced :: placed.map fun entry ↦ entry.2.unplaced := by rw [hfound, hus]

/-- One more blank in front. -/
theorem Gaps.exists_blank {c : Char} (h : Gaps placed last) (hc : isBlank c) :
    ∃ placed' last', (layOut placed' last').toList = c :: (layOut placed last).toList ∧
      placed'.map Prod.snd = placed.map Prod.snd ∧ Gaps placed' last' := by
  have hblank (space : String) (hspace : space.toList.all isBlank) :
      (String.singleton c ++ space).toList.all isBlank := by
    rw [String.toList_append, String.toList_singleton, List.singleton_append, List.all_cons, hc, hspace]
    rfl
  cases placed with
  | nil =>
    refine ⟨[], String.singleton c ++ last, by simp [layOut], rfl, by simp, ?_, .nil⟩
    exact hblank last h.blank_last
  | cons entry placed =>
    obtain ⟨gap, token⟩ := entry
    obtain ⟨hgap, hplaced⟩ := List.forall_mem_cons.1 h.blank
    refine ⟨(String.singleton c ++ gap, token) :: placed, last, by simp [layOut], rfl, ?_,
      h.blank_last, List.isChain_cons.2 (List.isChain_cons.1 h.between_words)⟩
    exact List.forall_mem_cons.2 ⟨hblank gap hgap, hplaced⟩

/-- One more token in front, with no gap before it. -/
theorem Gaps.cons (h : Gaps placed last) (htoken : token.Scanned)
    (hscanned : ∀ entry ∈ placed, entry.2.Scanned)
    (hsep : Separated token.text.toList (layOut placed last).toList) :
    Gaps (("", token) :: placed) last where
  blank := List.forall_mem_cons.2 ⟨rfl, h.blank⟩
  blank_last := h.blank_last
  between_words := by
    cases placed with
    | nil => exact .singleton _
    | cons entry placed =>
      have hwords := (separated_layOut_iff htoken (hscanned entry List.mem_cons_self)
        (h.blank entry List.mem_cons_self)).1 hsep
      exact List.isChain_cons_cons.2 ⟨hwords, h.between_words⟩

theorem scanned_of_placed {offset : Nat} {ps : List (List Char)}
    (h : placed.map Prod.snd = tokensAt offset ps) : ∀ entry ∈ placed, entry.2.Scanned := by
  intro entry hentry
  apply scanned_of_mem_tokensAt
  rw [← h]
  exact List.mem_map_of_mem hentry

/-- A good text is a layout of its tokens. -/
theorem exists_layOut (offset : Nat) (hgood : AllGood cs) :
    ∃ placed last, (layOut placed last).toList = cs ∧
      placed.map Prod.snd = tokensAt offset (pieces cs) ∧ Gaps placed last := by
  induction cs using pieces_induction generalizing offset with
  | nil => exact ⟨[], "", rfl, rfl, by simp, rfl, .nil⟩
  | append piece rest hpiece hrest ih =>
    rw [AllGood, hpiece.pieces_append hrest, List.forall_mem_cons] at hgood
    obtain ⟨placed, last, hcs, htokens, hgaps⟩ := ih (offset + Text.size piece) hgood.2
    rw [hpiece.pieces_append hrest, tokensAt, ← htokens]
    -- a blank widens the first gap, and any other piece is a token with an empty gap so far
    obtain ⟨c, hc, rfl⟩ | ⟨kind, hkind⟩ := hpiece.good_iff.1 hgood.1
    · rw [tokenAt_of_isBlank hc, ← hcs]
      exact hgaps.exists_blank hc
    · let token : Token := ⟨kind, String.ofList piece, ⟨offset, offset + Text.size piece⟩⟩
      have htext : token.text.toList = piece := String.toList_ofList
      have hscanned : token.Scanned := by rwa [Token.Scanned, htext]
      rw [← hcs, ← htext] at hrest
      refine ⟨("", token) :: placed, last, ?_, ?_,
        hgaps.cons hscanned (scanned_of_placed htokens) hrest⟩
      · rw [toList_layOut_cons, htext, hcs]
        rfl
      · rw [tokenAt, hkind]
        rfl

end Layouts

end Pieces

section Sources

open Pieces

/-- Two sources whose tokens, and all that is made of them, differ in nothing but places. -/
structure SameUpToLayout (source : String) (ts : List Token) (source' : String) (ts' : List Token) :
    Prop where
  tokens : ts.map Token.unplaced = ts'.map Token.unplaced
  compiled : SameResult (compile source) (compile source')
  normalized : SameResult (normalize source) (normalize source')
  parsed : Tree.eraseResult (Tree.parse ts) = Tree.eraseResult (Tree.parse ts')
  parsedExpression :
    Tree.eraseResult (Tree.parseExpression ts) = Tree.eraseResult (Tree.parseExpression ts')

theorem sameUpToLayout_of_tokens {source source' : String} {ts ts' : List Token}
    (hlex : lex source = .ok ts) (hlex' : lex source' = .ok ts')
    (h : ts.map Token.unplaced = ts'.map Token.unplaced) : SameUpToLayout source ts source' ts' := by
  have hparse := Tree.eraseResult_of_tokens (Tree.parse_map rfl) h
  have hexpression := Tree.eraseResult_of_tokens (Tree.parseExpression_map rfl) h
  exact ⟨h, sameResult_compile hlex hlex' hparse, sameResult_normalize hlex hlex' hparse, hparse,
    hexpression⟩

/-- A source that is scanned is a layout of its tokens.  Every other layout of them is scanned as well, and
only spans tell the two apart in what is made of them. -/
theorem layout_changes_only_spans (source : String) (ts : List Token) (h : lex source = .ok ts) :
    (∃ placed last, layOut placed last = source ∧ placed.map Prod.snd = ts ∧ Gaps placed last) ∧
    ∀ placed last, placed.map Prod.snd = ts → Gaps placed last →
      (layOut placed last).utf8ByteSize ≤ Span.limit →
      ∃ ts', lex (layOut placed last) = .ok ts' ∧
        SameUpToLayout source ts (layOut placed last) ts' := by
  obtain ⟨hgood, hts⟩ := eq_tokensAt_of_lex h
  constructor
  · obtain ⟨placed, last, hsource, htokens, hgaps⟩ := exists_layOut 0 hgood
    exact ⟨placed, last, String.toList_inj.1 hsource, htokens.trans hts.symm, hgaps⟩
  · intro placed last hplaced hgaps hlimit
    have hspells := hgaps.spells (scanned_of_placed (hplaced.trans hts))
    have hlex := lex_of_allGood hlimit hspells.1
    refine ⟨_, hlex, sameUpToLayout_of_tokens h hlex ?_⟩
    rw [hspells.2 0, ← hplaced, List.map_map]
    rfl

/-- `def f( x )` and a body, with as few blanks as there can be, and an expression with too much in it. -/
theorem layout_changes_only_spans_few_blanks :
    let source := "def f( x )\n x end"
    let ts : List Token := [⟨.defWord, "def", ⟨0, 3⟩⟩, ⟨.identifier, "f", ⟨4, 5⟩⟩,
      ⟨.openParen, "(", ⟨5, 6⟩⟩, ⟨.identifier, "x", ⟨7, 8⟩⟩, ⟨.closeParen, ")", ⟨9, 10⟩⟩,
      ⟨.identifier, "x", ⟨12, 13⟩⟩, ⟨.endWord, "end", ⟨14, 17⟩⟩]
    let placed := ["", "\x00", "", "", "", "", "\n"].zip ts
    let source' := "def\x00f(x)x\nend\t"
    let broken := "f 07"
    let us : List Token := [⟨.identifier, "f", ⟨0, 1⟩⟩, ⟨.integer, "07", ⟨2, 4⟩⟩]
    let moved := ["  ", "\r\n"].zip us
    let broken' := "  f\r\n07"
    (lex source = .ok ts ∧
      (∃ placed last, layOut placed last = source ∧ placed.map Prod.snd = ts ∧ Gaps placed last) ∧
      placed.map Prod.snd = ts ∧ Gaps placed "\t" ∧ layOut placed "\t" = source' ∧
      ∃ ts', lex source' = .ok ts' ∧ SameUpToLayout source ts source' ts') ∧
    lex broken = .ok us ∧ moved.map Prod.snd = us ∧ Gaps moved "" ∧ layOut moved "" = broken' ∧
      ∃ us', lex broken' = .ok us' ∧ SameUpToLayout broken us broken' us' := by
  intro source ts placed source' broken us moved broken'
  have h : lex source = .ok ts := by decide +kernel
  have hgaps : Gaps placed "\t" := ⟨by decide, by decide, by decide⟩
  have hlayOut : layOut placed "\t" = source' := by decide
  obtain ⟨hown, hothers⟩ := layout_changes_only_spans source ts h
  have hsame := hothers placed "\t" rfl hgaps (by decide)
  have hbroken : lex broken = .ok us := by decide +kernel
  have hmoved : Gaps moved "" := ⟨by decide, by decide, by decide⟩
  have hlayOut' : layOut moved "" = broken' := by decide
  have hsame' := (layout_changes_only_spans broken us hbroken).2 moved "" rfl hmoved (by decide)
  rw [hlayOut] at hsame
  rw [hlayOut'] at hsame'
  exact ⟨⟨h, hown, rfl, hgaps, hlayOut, hsame⟩, hbroken, rfl, hmoved, hlayOut', hsame'⟩

end Sources

end OneDef
