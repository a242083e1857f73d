import OneDef.Proofs.Slices

/-!
# The rounds of a scan

A scan goes round by round.  Each round passes over blanks, reads a token, and goes on where the span of that
token says that it ends.  As long as this is an exact offset, the next round starts right behind the token, so
there are no more rounds than bytes.

Offsets are recorded up to a limit, though, and a round that reads a token past it goes back to the limit.
What stands there is read once more, and again, without end.  So a scan comes to an end exactly if no token
that it reaches ends past the limit, and this is the one case in which scanning by rounds differs from reading
the text once from left to right.
-/

namespace OneDef.Scan

open Lexeme Pieces

/-- The text from a position on, if that lies between two characters. -/
def textFrom? (source : String) (position : Nat) : Option String :=
  Text.slice? source ⟨position, source.utf8ByteSize⟩

/-- The token that starts at a position. -/
def token? (source : String) (position : Nat) : Option Token := do
  let text ← textFrom? source position
  let lexeme ← first? text.toList
  return lexeme.token position

/-- The size of the blanks that start at a position. -/
def blanksFrom? (source : String) (position : Nat) : Option Nat := do
  let text ← textFrom? source position
  return Text.size (text.toList.takeWhile isBlank)

/-- The token that a round from a position reads, which stands behind the blanks there. -/
def round? (source : String) (position : Nat) : Option Token := do
  let blanks ← blanksFrom? source position
  token? source (position + blanks)

/-- Rounds that read some tokens one after the other, and the position of the next round. -/
inductive Rounds (source : String) : Nat → List Token → Nat → Prop where
  | nil {position : Nat} : Rounds source position [] position
  | cons {position last : Nat} {token : Token} {tokens : List Token}
      (h : round? source position = some token) (hrounds : Rounds source token.span.stop tokens last) :
      Rounds source position (token :: tokens) last

/-- The round from a position is the last one, since it finds the end or a text that is no token. -/
structure Halts (source : String) (position : Nat) : Prop where
  between : (textFrom? source position).isSome
  no_round : round? source position = none

section Positions

variable {source text : String} {position : Nat} {front gap rest : List Char}

theorem textFrom?_eq_some_iff : textFrom? source position = some text ↔
    ∃ before, source = before ++ text ∧ before.utf8ByteSize = position := by
  unfold textFrom?
  rw [Text.slice?_eq_some_iff]
  constructor
  · rintro ⟨before, after, hsource, hstart, hstop⟩
    change source.utf8ByteSize = _ at hstop
    have hafter : after.utf8ByteSize = 0 := by
      rw [hsource, String.utf8ByteSize_append] at hstop
      omega
    obtain rfl := String.utf8ByteSize_eq_zero_iff.1 hafter
    exact ⟨before, by rw [hsource, String.append_empty], hstart.symm⟩
  · rintro ⟨before, rfl, rfl⟩
    exact ⟨before, "", by rw [String.append_empty], rfl, rfl⟩

theorem textFrom?_of_toList (h : source.toList = front ++ rest) :
    textFrom? source (Text.size front) = some (String.ofList rest) := by
  refine textFrom?_eq_some_iff.2 ⟨String.ofList front, ?_, Text.size_ofList front⟩
  rw [← String.toList_inj, h, String.toList_append, String.toList_ofList, String.toList_ofList]

theorem token?_of_toList (h : source.toList = front ++ rest) :
    token? source (Text.size front) = (first? rest).map (·.token (Text.size front)) := by
  unfold token?
  rw [textFrom?_of_toList h]
  change (first? (String.ofList rest).toList).bind _ = _
  rw [String.toList_ofList]
  cases first? rest <;> rfl

/-- No blank comes first. -/
def StartsNonblank (cs : List Char) : Prop := ∀ c ∈ cs.head?, isBlank c = false

theorem takeWhile_gap (hgap : gap.all isBlank) (hrest : StartsNonblank rest) :
    (gap ++ rest).takeWhile isBlank = gap := by
  have htake : rest.takeWhile isBlank = [] := by
    cases rest with
    | nil => rfl
    | cons c rest => simp [hrest c rfl]
  rw [List.takeWhile_append_of_pos (List.all_eq_true.1 hgap), htake, List.append_nil]

/-- Whatever stands behind the blanks decides the round. -/
theorem round?_of_toList (h : source.toList = front ++ (gap ++ rest)) (hgap : gap.all isBlank)
    (hrest : StartsNonblank rest) :
    round? source (Text.size front) =
      (first? rest).map (·.token (Text.size front + Text.size gap)) := by
  have hblanks : blanksFrom? source (Text.size front) = some (Text.size gap) := by
    unfold blanksFrom?
    rw [textFrom?_of_toList h]
    change some (Text.size ((String.ofList (gap ++ rest)).toList.takeWhile isBlank)) = _
    rw [String.toList_ofList, takeWhile_gap hgap hrest]
  rw [← List.append_assoc] at h
  have htoken := token?_of_toList h
  rw [Text.size_append] at htoken
  unfold round?
  rw [hblanks]
  exact htoken

end Positions

section Lexemes

variable {cs gap rest : List Char} {lexeme : Lexeme}

theorem piece_of_first? (h : first? cs = some lexeme) :
    Separated lexeme.text lexeme.rest ∧ kind? lexeme.text = some lexeme.kind := by
  obtain rfl | ⟨piece, rest, rfl, hpiece, hrest⟩ := exists_piece cs
  · cases h
  · rw [first?_piece hpiece hrest] at h
    obtain ⟨kind, hkind, rfl⟩ := Option.map_eq_some_iff.1 h
    exact ⟨hrest, hkind⟩

theorem startsNonblank_of_first? (h : first? cs = some lexeme) : StartsNonblank cs := by
  intro c hc
  obtain ⟨rest, rfl⟩ := List.head?_eq_some_iff.1 hc
  by_contra hblank
  have hblank : isBlank c := by simpa using hblank
  have hword := isWordChar_of_isBlank hblank
  rw [← List.singleton_append, first?_piece (.other hword) (separated_singleton hword),
    kind?_of_isBlank hblank] at h
  cases h

theorem exists_gap (cs : List Char) :
    ∃ gap rest, cs = gap ++ rest ∧ gap.all isBlank ∧ StartsNonblank rest := by
  refine ⟨cs.takeWhile isBlank, cs.dropWhile isBlank, List.takeWhile_append_dropWhile.symm,
    List.all_takeWhile, fun c hc ↦ ?_⟩
  have hnot := List.head?_dropWhile_not isBlank cs
  rwa [hc] at hnot

/-- Induction along the rounds of a text: blanks, and a token with the text behind it or none. -/
@[elab_as_elim]
theorem rounds_induction {motive : List Char → Prop}
    (last : ∀ gap rest, gap.all isBlank → StartsNonblank rest → first? rest = none → motive (gap ++ rest))
    (token : ∀ gap lexeme, gap.all isBlank → first? (lexeme.text ++ lexeme.rest) = some lexeme →
      motive lexeme.rest → motive (gap ++ (lexeme.text ++ lexeme.rest))) (cs : List Char) : motive cs := by
  obtain ⟨gap, rest, hcs, hgap, hrest⟩ := exists_gap cs
  cases hfirst : first? rest with
  | none => exact hcs ▸ last gap rest hgap hrest hfirst
  | some lexeme =>
    obtain ⟨-, happ⟩ := first?_append hfirst
    rw [← happ] at hcs hfirst
    exact hcs ▸ token gap lexeme hgap hfirst (rounds_induction last token lexeme.rest)
termination_by cs.length
decreasing_by
  have hlt := length_rest_lt hfirst
  rw [hcs, List.length_append]
  omega

theorem ofText_gap (offset : Nat) (hgap : gap.all isBlank) :
    ofText offset (gap ++ rest) = ofText (offset + Text.size gap) rest := by
  induction gap generalizing offset with
  | nil => rfl
  | cons c gap ih =>
    rw [List.all_cons, Bool.and_eq_true] at hgap
    rw [List.cons_append, ofText_blank offset hgap.1, ih _ hgap.2, Text.size_cons, Nat.add_assoc]

end Lexemes

section Scans

variable {source : String} {offset : Nat} {front gap rest cs : List Char} {lexeme : Lexeme}

theorem ofText_last (offset : Nat) (hgap : gap.all isBlank) (hrest : StartsNonblank rest)
    (hfirst : first? rest = none) :
    (ofText offset (gap ++ rest)).tokens = [] ∧
      (ofText offset (gap ++ rest)).ending ≠ .endless := by
  rw [ofText_gap offset hgap]
  cases rest with
  | nil => simp
  | cons c rest =>
    have hc : ¬isBlank c := by simp [hrest c rfl]
    simp [ofText_noMatch _ hc hfirst]

theorem ofText_within (hgap : gap.all isBlank) (h : first? cs = some lexeme)
    (hlimit : offset + Text.size gap + Text.size lexeme.text ≤ Span.limit) :
    ofText offset (gap ++ cs) =
      let scan := ofText (offset + Text.size gap + Text.size lexeme.text) lexeme.rest
      ⟨lexeme.token (offset + Text.size gap) :: scan.tokens, scan.ending⟩ := by
  have hcs := startsNonblank_of_first? h
  rw [ofText_gap offset hgap]
  cases cs with
  | nil => cases h
  | cons c cs => exact ofText_token (by simp [hcs c rfl]) h hlimit

theorem ofText_past (hgap : gap.all isBlank) (h : first? cs = some lexeme)
    (hlimit : Span.limit < offset + Text.size gap + Text.size lexeme.text) :
    ofText offset (gap ++ cs) = ⟨[lexeme.token (offset + Text.size gap)], .endless⟩ := by
  have hcs := startsNonblank_of_first? h
  rw [ofText_gap offset hgap]
  cases cs with
  | nil => cases h
  | cons c cs => exact ofText_endless (by simp [hcs c rfl]) h hlimit

theorem length_tokens_le (offset : Nat) (cs : List Char) :
    (ofText offset cs).tokens.length ≤ cs.length := by
  induction cs using rounds_induction generalizing offset with
  | last gap rest hgap hrest hfirst => simp [(ofText_last offset hgap hrest hfirst).1]
  | token gap lexeme hgap hfirst ih =>
    have hlt := length_rest_lt hfirst
    rw [List.length_append]
    rcases Nat.lt_or_ge Span.limit (offset + Text.size gap + Text.size lexeme.text) with hlimit | hlimit
    · rw [ofText_past hgap hfirst hlimit, List.length_singleton]
      omega
    · have hle := ih (offset + Text.size gap + Text.size lexeme.text)
      rw [ofText_within hgap hfirst hlimit, List.length_cons]
      omega

theorem stop_within (hlimit : offset + Text.size lexeme.text ≤ Span.limit) :
    (lexeme.token offset).span.stop = offset + Text.size lexeme.text := Span.clamp_of_le hlimit

theorem stop_past (hlimit : Span.limit ≤ offset + Text.size lexeme.text) :
    (lexeme.token offset).span.stop = Span.limit := Nat.min_eq_right hlimit

theorem round?_of_first? (hsource : source.toList = front ++ (gap ++ cs)) (hgap : gap.all isBlank)
    (h : first? cs = some lexeme) :
    round? source (Text.size front) = some (lexeme.token (Text.size front + Text.size gap)) := by
  rw [round?_of_toList hsource hgap (startsNonblank_of_first? h), h, Option.map_some]

theorem size_behind (front gap text : List Char) :
    Text.size front + Text.size gap + Text.size text = Text.size (front ++ (gap ++ text)) := by
  rw [Text.size_append, Text.size_append, Nat.add_assoc]

/-- The text that is left when a token has been read. -/
theorem toList_behind (hsource : source.toList = front ++ (gap ++ (lexeme.text ++ rest))) :
    source.toList = (front ++ (gap ++ lexeme.text)) ++ rest := by
  rw [hsource]
  simp only [List.append_assoc]

/-- A round within the limit goes on behind its token. -/
theorem Rounds.cons_within {tokens : List Token} {last : Nat}
    (hsource : source.toList = front ++ (gap ++ cs)) (hgap : gap.all isBlank)
    (h : first? cs = some lexeme)
    (hlimit : Text.size front + Text.size gap + Text.size lexeme.text ≤ Span.limit)
    (hrounds : Rounds source (Text.size (front ++ (gap ++ lexeme.text))) tokens last) :
    Rounds source (Text.size front) (lexeme.token (Text.size front + Text.size gap) :: tokens) last := by
  refine .cons (round?_of_first? hsource hgap h) ?_
  rwa [stop_within hlimit, size_behind]

/-- A scan that ends is what its rounds read until they halt. -/
theorem exists_rounds_halts (hsource : source.toList = front ++ cs)
    (h : (ofText (Text.size front) cs).ending ≠ .endless) :
    ∃ last, Rounds source (Text.size front) (ofText (Text.size front) cs).tokens last ∧
      Halts source last := by
  induction cs using rounds_induction generalizing front with
  | last gap rest hgap hrest hfirst =>
    have hround := round?_of_toList hsource hgap hrest
    rw [hfirst, Option.map_none] at hround
    rw [(ofText_last _ hgap hrest hfirst).1]
    exact ⟨_, .nil, by rw [textFrom?_of_toList hsource]; rfl, hround⟩
  | token gap lexeme hgap hfirst ih =>
    rcases Nat.lt_or_ge Span.limit (Text.size front + Text.size gap + Text.size lexeme.text) with
      hlimit | hlimit
    · rw [ofText_past hgap hfirst hlimit] at h
      exact absurd rfl h
    · rw [ofText_within hgap hfirst hlimit, size_behind] at h ⊢
      obtain ⟨last, hrounds, hhalts⟩ := ih (toList_behind hsource) h
      exact ⟨last, .cons_within hsource hgap hfirst hlimit hrounds, hhalts⟩

end Scans

section Narrow

variable {c : Char} {kind : Kind} {cs xs ys text : List Char} {size : Nat}

-- Blanks and tokens are made of characters of one byte, so every position inside them lies between two
-- characters.

theorem utf8Size_of_isBlank (h : isBlank c) : c.utf8Size = 1 := by
  obtain rfl | rfl | rfl | rfl | rfl | rfl | rfl := isBlank_iff.1 h <;> rfl

theorem utf8Size_of_isAlpha (h : c.isAlpha) : c.utf8Size = 1 := by
  have hcases : (decide (c.val ≥ 65 ∧ c.val ≤ 90) || (c.val ≥ 97 && c.val ≤ 122)) = true := h
  simp only [Bool.or_eq_true, Bool.and_eq_true, decide_eq_true_eq] at hcases
  rw [Char.utf8Size_eq_one_iff]
  rcases hcases with ⟨-, hle⟩ | ⟨-, hle⟩
  · exact UInt32.le_trans hle (by decide)
  · exact UInt32.le_trans hle (by decide)

theorem utf8Size_of_isDigit (h : c.isDigit) : c.utf8Size = 1 := by
  have hboth : (c.val ≥ 48 && c.val ≤ 57) = true := h
  simp only [Bool.and_eq_true, decide_eq_true_eq] at hboth
  exact Char.utf8Size_eq_one_iff.2 (UInt32.le_trans hboth.2 (by decide))

theorem utf8Size_of_fits (h : Fits kind text) : ∀ c ∈ text, c.utf8Size = 1 := by
  have hliteral (hall : text.all (·.utf8Size == 1)) : ∀ c ∈ text, c.utf8Size = 1 := by
    simpa using hall
  cases kind with
  | defWord | endWord | openParen | closeParen | comma =>
    obtain rfl := h
    exact hliteral rfl
  | identifier => exact fun c hc ↦ utf8Size_of_isAlpha (List.all_eq_true.1 h.2 c hc)
  | integer => exact fun c hc ↦ utf8Size_of_isDigit (List.all_eq_true.1 h.2 c hc)

theorem exists_split (h : ∀ c ∈ cs, c.utf8Size = 1) (hsize : size ≤ Text.size cs) :
    ∃ xs ys, cs = xs ++ ys ∧ Text.size xs = size := by
  induction cs generalizing size with
  | nil => exact ⟨[], [], rfl, (Nat.le_zero.1 hsize).symm⟩
  | cons c cs ih =>
    rw [List.forall_mem_cons] at h
    cases size with
    | zero => exact ⟨[], c :: cs, rfl, rfl⟩
    | succ size =>
      rw [Text.size_cons, h.1] at hsize
      obtain ⟨xs, ys, rfl, hxs⟩ := ih h.2 (show size ≤ Text.size cs by omega)
      exact ⟨c :: xs, ys, rfl, by rw [Text.size_cons, h.1, hxs, Nat.add_comm]⟩

/-- What is left of a token when its beginning is cut off is a token again, though a keyword may become a
name. -/
theorem exists_fits_of_append (h : Fits kind (xs ++ ys)) (hys : ys ≠ []) : ∃ kind, Fits kind ys := by
  have hletters (hall : (xs ++ ys).all Char.isAlpha) : Fits .identifier ys := by
    rw [List.all_append, Bool.and_eq_true] at hall
    exact ⟨hys, hall.2⟩
  have hmark (mark : Char) (hone : xs ++ ys = [mark]) : ys = [mark] := by
    rcases List.append_eq_singleton_iff.1 hone with ⟨-, h⟩ | ⟨-, h⟩
    · exact h
    · exact absurd h hys
  cases kind with
  | defWord | endWord => exact ⟨.identifier, hletters (by rw [show xs ++ ys = _ from h]; rfl)⟩
  | identifier => exact ⟨.identifier, hletters h.2⟩
  | integer =>
    obtain ⟨-, hall⟩ := h
    rw [List.all_append, Bool.and_eq_true] at hall
    exact ⟨.integer, hys, hall.2⟩
  | openParen => exact ⟨.openParen, hmark _ h⟩
  | closeParen => exact ⟨.closeParen, hmark _ h⟩
  | comma => exact ⟨.comma, hmark _ h⟩

end Narrow

section Limit

variable {source : String} {front gap cs xs ys : List Char} {lexeme : Lexeme}

theorem exists_first?_of_append (h : first? cs = some lexeme) (htext : lexeme.text = xs ++ ys)
    (hys : ys ≠ []) : ∃ kind, first? (ys ++ lexeme.rest) = some ⟨kind, ys, lexeme.rest⟩ := by
  obtain ⟨hsep, hkind⟩ := piece_of_first? h
  rw [htext] at hsep hkind
  obtain ⟨kind, hfits⟩ := exists_fits_of_append (fits_of_kind? hkind) hys
  obtain ⟨kind', hkind'⟩ := Option.isSome_iff_exists.1 (isSome_kind?_of_fits hfits)
  refine ⟨kind', ?_⟩
  rw [first?_piece hfits.isPiece hsep.of_append_left, hkind', Option.map_some]

/-- A round from the limit comes back to the limit. -/
def Stuck (source : String) : Prop :=
  ∃ token, round? source Span.limit = some token ∧ token.span.stop = Span.limit

/-- The limit lies in the blanks in front of a token that ends past it, or in the token itself.  Either way
a token is read from there, and it ends past the limit too. -/
theorem stuck_of_past (hsource : source.toList = front ++ (gap ++ (lexeme.text ++ lexeme.rest)))
    (hgap : gap.all isBlank) (h : first? (lexeme.text ++ lexeme.rest) = some lexeme)
    (hfront : Text.size front ≤ Span.limit)
    (hlimit : Span.limit < Text.size front + Text.size gap + Text.size lexeme.text) : Stuck source := by
  have hnarrow : ∀ c ∈ gap ++ lexeme.text, c.utf8Size = 1 := by
    rw [List.forall_mem_append]
    exact ⟨fun c hc ↦ utf8Size_of_isBlank (List.all_eq_true.1 hgap c hc),
      utf8Size_of_fits (fits_of_kind? (piece_of_first? h).2)⟩
  obtain ⟨xs, ys, hsplit, hxs⟩ := @exists_split _ (Span.limit - Text.size front) hnarrow
    (by rw [Text.size_append]; omega)
  have hposition : Text.size (front ++ xs) = Span.limit := by
    rw [Text.size_append]
    omega
  have hys : ys ≠ [] := by
    rintro rfl
    have hsize := congrArg Text.size hsplit
    rw [Text.size_append, List.append_nil] at hsize
    omega
  obtain ⟨gap', text', kind, rfl, hgap', hfirst⟩ : ∃ gap' text' kind, ys = gap' ++ text' ∧
      gap'.all isBlank ∧ first? (text' ++ lexeme.rest) = some ⟨kind, text', lexeme.rest⟩ := by
    rcases List.append_eq_append_iff.1 hsplit with ⟨begun, -, htext⟩ | ⟨gap', rfl, rfl⟩
    · obtain ⟨kind, hfirst⟩ := exists_first?_of_append h htext hys
      exact ⟨[], ys, kind, rfl, rfl, hfirst⟩
    · rw [List.all_append, Bool.and_eq_true] at hgap
      exact ⟨gap', lexeme.text, lexeme.kind, rfl, hgap.2, h⟩
  have hsource' : source.toList = (front ++ xs) ++ (gap' ++ (text' ++ lexeme.rest)) := by
    rw [hsource, ← List.append_assoc gap, hsplit]
    simp only [List.append_assoc]
  have hround := round?_of_first? hsource' hgap' hfirst
  rw [hposition] at hround
  exact ⟨_, hround, stop_past (by omega)⟩

/-- A scan without an end goes to the limit in some rounds, and then it is stuck. -/
theorem exists_rounds_stuck (hsource : source.toList = front ++ cs) (hfront : Text.size front ≤ Span.limit)
    (h : (ofText (Text.size front) cs).ending = .endless) :
    (∃ tokens, Rounds source (Text.size front) tokens Span.limit) ∧ Stuck source := by
  induction cs using rounds_induction generalizing front with
  | last gap rest hgap hrest hfirst => exact absurd h (ofText_last _ hgap hrest hfirst).2
  | token gap lexeme hgap hfirst ih =>
    rcases Nat.lt_or_ge Span.limit (Text.size front + Text.size gap + Text.size lexeme.text) with
      hlimit | hlimit
    · have hround := round?_of_first? hsource hgap hfirst
      have hone := Rounds.cons hround .nil
      rw [stop_past hlimit.le] at hone
      exact ⟨⟨_, hone⟩, stuck_of_past hsource hgap hfirst hfront hlimit⟩
    · rw [ofText_within hgap hfirst hlimit, size_behind] at h
      obtain ⟨⟨tokens, hrounds⟩, hstuck⟩ := ih (toList_behind hsource) (size_behind .. ▸ hlimit) h
      exact ⟨⟨_, .cons_within hsource hgap hfirst hlimit hrounds⟩, hstuck⟩

end Limit

section Overruns

variable {offset : Nat} {cs piece rest : List Char} {ps : List (List Char)}

/-- One of some pieces that start at an offset is a token that ends past the limit, and all in front of it
are good. -/
def Overruns (offset : Nat) (ps : List (List Char)) : Prop :=
  ∃ before piece after kind, ps = before ++ piece :: after ∧ (∀ other ∈ before, Good other) ∧
    kind? piece = some kind ∧ Span.limit < offset + Text.size before.flatten + Text.size piece

theorem not_overruns_nil (offset : Nat) : ¬Overruns offset [] := by
  rintro ⟨before, piece, after, kind, hps, -⟩
  simp at hps

theorem overruns_cons_iff : Overruns offset (piece :: ps) ↔
    ((∃ kind, kind? piece = some kind) ∧ Span.limit < offset + Text.size piece) ∨
      Good piece ∧ Overruns (offset + Text.size piece) ps := by
  constructor
  · rintro ⟨before, found, after, kind, hps, hgood, hkind, hlimit⟩
    cases before with
    | nil =>
      obtain ⟨rfl, -⟩ := List.cons.inj hps
      exact .inl ⟨⟨kind, hkind⟩, hlimit⟩
    | cons first before =>
      obtain ⟨rfl, hothers⟩ := List.cons.inj hps
      rw [List.forall_mem_cons] at hgood
      rw [List.flatten_cons, Text.size_append, ← Nat.add_assoc] at hlimit
      exact .inr ⟨hgood.1, before, found, after, kind, hothers, hgood.2, hkind, hlimit⟩
  · rintro (⟨⟨kind, hkind⟩, hlimit⟩ | ⟨hgood, before, found, after, kind, rfl, hbefore, hkind, hlimit⟩)
    · exact ⟨[], piece, ps, kind, rfl, by simp, hkind, hlimit⟩
    · refine ⟨piece :: before, found, after, kind, rfl, List.forall_mem_cons.2 ⟨hgood, hbefore⟩, hkind, ?_⟩
      rwa [List.flatten_cons, Text.size_append, ← Nat.add_assoc]

theorem ending_of_not_good (offset : Nat) (hpiece : IsPiece piece) (hrest : Separated piece rest)
    (hgood : ¬Good piece) : (ofText offset (piece ++ rest)).ending ≠ .endless := by
  rw [hpiece.good_iff, not_or] at hgood
  obtain ⟨hblank, hkind⟩ := hgood
  have hfirst : first? (piece ++ rest) = none := by
    rw [first?_piece hpiece hrest, Option.map_eq_none_iff]
    exact Option.eq_none_iff_forall_ne_some.2 fun kind h ↦ hkind ⟨kind, h⟩
  cases piece with
  | nil => exact absurd rfl hpiece.ne_nil
  | cons c others =>
    have hc : ¬isBlank c := by
      intro hc
      obtain rfl := hpiece.eq_nil_of_isBlank hc
      exact hblank ⟨c, hc, rfl⟩
    rw [List.cons_append] at hfirst ⊢
    rw [ofText_noMatch offset hc hfirst]
    simp

/-- A scan never ends exactly if a token that it reaches ends past the limit. -/
theorem endless_iff_overruns : (ofText offset cs).ending = .endless ↔ Overruns offset (pieces cs) := by
  induction cs using pieces_induction generalizing offset with
  | nil => simp [not_overruns_nil]
  | append piece rest hpiece hrest ih =>
    rw [hpiece.pieces_append hrest, overruns_cons_iff]
    by_cases hgood : Good piece
    · obtain ⟨c, hc, rfl⟩ | ⟨kind, hkind⟩ := hpiece.good_iff.1 hgood
      · have hblank : ¬∃ kind, kind? [c] = some kind := by simp [kind?_of_isBlank hc]
        rw [List.singleton_append, ofText_blank offset hc, ih]
        simp [hblank, hgood]
      · rcases Nat.lt_or_ge Span.limit (offset + Text.size piece) with hlimit | hlimit
        · rw [ofText_endless_piece hpiece hrest hkind hlimit]
          exact ⟨fun _ ↦ .inl ⟨⟨kind, hkind⟩, hlimit⟩, fun _ ↦ rfl⟩
        · rw [ofText_token_piece hpiece hrest hkind hlimit, ih]
          simp [hgood, Nat.not_lt.2 hlimit]
    · have hkind : ¬∃ kind, kind? piece = some kind := fun h ↦ hgood (hpiece.good_iff.2 (.inr h))
      simp [ending_of_not_good offset hpiece hrest hgood, hkind, hgood]

theorem not_overruns_of_size_le (h : offset + Text.size cs ≤ Span.limit) : ¬Overruns offset (pieces cs) := by
  rintro ⟨before, piece, after, kind, hps, -, -, hlimit⟩
  have hcs := flatten_pieces cs
  rw [hps, List.flatten_append, List.flatten_cons] at hcs
  rw [← hcs, Text.size_append, Text.size_append] at h
  omega

end Overruns

section Runs

variable {source : String} {position middle last : Nat} {token : Token} {ts us : List Token}

theorem Rounds.append (h : Rounds source position ts middle) (h' : Rounds source middle us last) :
    Rounds source position (ts ++ us) last := by
  induction h with
  | nil => exact h'
  | cons hround _ ih => exact .cons hround (ih h')

/-- There is one round from each position, so no rounds go further than those that halt. -/
theorem Rounds.length_le {other : Nat} (h : Rounds source position ts last) (hhalts : Halts source last)
    (h' : Rounds source position us other) : us.length ≤ ts.length := by
  induction h generalizing us with
  | nil =>
    cases h' with
    | nil => exact Nat.le_refl _
    | cons hround _ =>
      rw [hhalts.no_round] at hround
      cases hround
  | cons hround _ ih =>
    cases h' with
    | nil => exact Nat.zero_le _
    | cons hround' hrounds =>
      rw [hround, Option.some.injEq] at hround'
      subst hround'
      exact Nat.succ_le_succ (ih hhalts hrounds)

theorem rounds_replicate (h : round? source position = some token) (hstop : token.span.stop = position)
    (count : Nat) : Rounds source position (List.replicate count token) position := by
  induction count with
  | zero => exact .nil
  | succ count ih => exact .cons h (hstop.symm ▸ ih)

theorem Stuck.exists_rounds (hstuck : Stuck source) (h : Rounds source position ts Span.limit) (count : Nat) :
    ∃ tokens last, Rounds source position tokens last ∧ count ≤ tokens.length := by
  obtain ⟨token, hround, hstop⟩ := hstuck
  refine ⟨_, _, h.append (rounds_replicate hround hstop count), ?_⟩
  rw [List.length_append, List.length_replicate]
  exact Nat.le_add_left ..

/-- Where a token stands, and that it is not empty. -/
theorem exists_lexeme_of_token? (h : token? source position = some token) :
    ∃ lexeme : Lexeme, token = lexeme.token position ∧ 0 < Text.size lexeme.text := by
  unfold token? at h
  obtain ⟨text, -, h⟩ := Option.bind_eq_some_iff.1 h
  obtain ⟨lexeme, hfirst, h⟩ := Option.bind_eq_some_iff.1 h
  have hne := (first?_append hfirst).1
  exact ⟨lexeme, (Option.some.inj h).symm, (List.length_pos_iff.2 hne).trans_le (Text.length_le_size _)⟩

/-- Reading goes on behind a token exactly if the token ends within the limit, and further on than it was
exactly if the token starts in front of the limit. -/
theorem stop_eq_iff (h : token? source position = some token) :
    (token.span.stop = position + token.text.utf8ByteSize ↔
      position + token.text.utf8ByteSize ≤ Span.limit) ∧
    (position < token.span.stop ↔ position < Span.limit) := by
  obtain ⟨lexeme, rfl, hpos⟩ := exists_lexeme_of_token? h
  have hsize : (lexeme.token position).text.utf8ByteSize = Text.size lexeme.text := Text.size_ofList _
  have hstop : (lexeme.token position).span.stop = min (position + Text.size lexeme.text) Span.limit := rfl
  rw [hsize, hstop]
  omega

theorem exists_rounds_of_not_overruns (h : ¬Overruns 0 (pieces source.toList)) :
    ∃ last, Rounds source 0 (scan source).tokens last ∧ Halts source last := by
  rw [← endless_iff_overruns] at h
  exact @exists_rounds_halts source [] source.toList rfl h

theorem exists_rounds_of_overruns (h : Overruns 0 (pieces source.toList)) :
    (∃ tokens, Rounds source 0 tokens Span.limit) ∧ Stuck source := by
  exact @exists_rounds_stuck source [] source.toList rfl (Nat.zero_le _) (endless_iff_overruns.2 h)

theorem length_rounds_le_iff :
    (∀ tokens last, Rounds source 0 tokens last → tokens.length ≤ source.utf8ByteSize) ↔
      ¬Overruns 0 (pieces source.toList) := by
  constructor
  · intro hbound h
    obtain ⟨⟨tokens, hrounds⟩, hstuck⟩ := exists_rounds_of_overruns h
    obtain ⟨more, last, hmore, hcount⟩ := hstuck.exists_rounds hrounds (source.utf8ByteSize + 1)
    have hle := hbound more last hmore
    omega
  · intro h tokens last hrounds
    obtain ⟨stop, hall, hhalts⟩ := exists_rounds_of_not_overruns h
    calc
      tokens.length ≤ (scan source).tokens.length := hall.length_le hhalts hrounds
      _ ≤ source.toList.length := length_tokens_le 0 source.toList
      _ ≤ Text.size source.toList := Text.length_le_size _
      _ = source.utf8ByteSize := Text.size_toList source

end Runs

/-- Reading goes on right behind a token exactly if the token ends within the limit.  There are no more rounds
than bytes exactly if no token that is reached ends past the limit, as in every source that is not longer than
the limit.  Then the rounds read the tokens of the scan and halt.  Otherwise they go to the limit, and every
further round comes back to it. -/
theorem rounds_end_exactly_within_limit (source : String) :
    (∀ position token, token? source position = some token →
      (token.span.stop = position + token.text.utf8ByteSize ↔
        position + token.text.utf8ByteSize ≤ Span.limit) ∧
      (position < token.span.stop ↔ position < Span.limit)) ∧
    ((∀ tokens last, Rounds source 0 tokens last → tokens.length ≤ source.utf8ByteSize) ↔
      ¬Overruns 0 (pieces source.toList)) ∧
    (source.utf8ByteSize ≤ Span.limit → ¬Overruns 0 (pieces source.toList)) ∧
    (¬Overruns 0 (pieces source.toList) →
      ∃ last, Rounds source 0 (scan source).tokens last ∧ Halts source last) ∧
    (Overruns 0 (pieces source.toList) →
      (∃ tokens, Rounds source 0 tokens Span.limit) ∧ Stuck source) := by
  refine ⟨fun position token ↦ stop_eq_iff, length_rounds_le_iff, fun h ↦ ?_,
    exists_rounds_of_not_overruns, exists_rounds_of_overruns⟩
  apply not_overruns_of_size_le
  rwa [Nat.zero_add, Text.size_toList]

section FarParenthesis

/-- Blanks, so many of them, and a parenthesis behind them. -/
def farParenthesis (blanks : Nat) : String := String.ofList (List.replicate blanks ' ' ++ ['('])

variable (blanks : Nat)

theorem toList_farParenthesis :
    (farParenthesis blanks).toList = List.replicate blanks ' ' ++ ['('] := String.toList_ofList

theorem size_replicate_blank : Text.size (List.replicate blanks ' ') = blanks := by
  induction blanks with
  | zero => rfl
  | succ blanks ih =>
    have hone : ' '.utf8Size = 1 := rfl
    rw [List.replicate_succ, Text.size_cons, ih, hone, Nat.add_comm]

theorem pieces_farParenthesis :
    pieces (farParenthesis blanks).toList = List.replicate blanks [' '] ++ [['(']] := by
  rw [toList_farParenthesis]
  induction blanks with
  | zero => rfl
  | succ blanks ih =>
    rw [List.replicate_succ, List.cons_append, ← List.singleton_append,
      IsPiece.pieces_append (.other rfl) (separated_singleton rfl), ih]
    rfl

theorem overruns_farParenthesis (h : Span.limit ≤ blanks) :
    Overruns 0 (pieces (farParenthesis blanks).toList) := by
  have hgood : ∀ piece ∈ List.replicate blanks [' '], Good piece := by
    intro piece hpiece
    obtain rfl := List.eq_of_mem_replicate hpiece
    exact (IsPiece.other rfl).good_iff.2 (.inl ⟨' ', rfl, rfl⟩)
  have hflatten : (List.replicate blanks [' ']).flatten = List.replicate blanks ' ' := by
    simp
  refine ⟨_, ['('], [], .openParen, pieces_farParenthesis blanks, hgood, rfl, ?_⟩
  have hone : Text.size ['('] = 1 := rfl
  rw [hflatten, size_replicate_blank, hone]
  omega

theorem token?_farParenthesis :
    token? (farParenthesis blanks) blanks =
      some ⟨.openParen, "(", Span.between blanks (blanks + 1)⟩ := by
  have htoken := token?_of_toList (toList_farParenthesis blanks)
  rw [size_replicate_blank] at htoken
  rw [htoken]
  rfl

end FarParenthesis

/-- A parenthesis that stands at the limit is read, and reading does not go on behind it: it goes on where it
was, in any number of rounds. -/
theorem farParenthesis_is_read_forever :
    let source := farParenthesis Span.limit
    let token : Token := ⟨.openParen, "(", ⟨Span.limit, Span.limit⟩⟩
    token? source Span.limit = some token ∧
      token.span.stop ≠ Span.limit + token.text.utf8ByteSize ∧ ¬Span.limit < token.span.stop ∧
      ∀ count, ∃ tokens last, Rounds source 0 tokens last ∧ count ≤ tokens.length := by
  intro source token
  have hspan : Span.between Span.limit (Span.limit + 1) = ⟨Span.limit, Span.limit⟩ := by
    unfold Span.between Span.clamp
    rw [Nat.min_self, Nat.min_eq_right (Nat.le_succ _)]
  have htoken := token?_farParenthesis Span.limit
  rw [hspan] at htoken
  have hsize : token.text.utf8ByteSize = 1 := rfl
  obtain ⟨⟨tokens, hrounds⟩, hstuck⟩ :=
    exists_rounds_of_overruns (overruns_farParenthesis Span.limit (Nat.le_refl _))
  refine ⟨htoken, ?_, Nat.lt_irrefl _, hstuck.exists_rounds hrounds⟩
  rw [hsize]
  exact (Nat.succ_ne_self _).symm

/-- Two tokens that are read in two rounds, and one that is read forever. -/
theorem rounds_end_exactly_within_limit_each :
    let source := "f ("
    let far := farParenthesis Span.limit
    (token? source 2 = some ⟨.openParen, "(", ⟨2, 3⟩⟩ ∧ 2 < 3 ∧ source.utf8ByteSize ≤ Span.limit ∧
      ¬Overruns 0 (pieces source.toList) ∧
      (∀ tokens last, Rounds source 0 tokens last → tokens.length ≤ 3) ∧
      ∃ last, Rounds source 0 (scan source).tokens last ∧ Halts source last) ∧
    Overruns 0 (pieces far.toList) ∧ (∃ tokens, Rounds far 0 tokens Span.limit) ∧ Stuck far := by
  intro source far
  have htoken : token? source 2 = some ⟨.openParen, "(", ⟨2, 3⟩⟩ := by decide +kernel
  have hlimit : source.utf8ByteSize ≤ Span.limit := by decide
  have hfar : Overruns 0 (pieces far.toList) := overruns_farParenthesis Span.limit (Nat.le_refl _)
  obtain ⟨hstop, hbound, hwithin, hhalts, -⟩ := rounds_end_exactly_within_limit source
  have hnot := hwithin hlimit
  exact ⟨⟨htoken, (hstop 2 _ htoken).2.2 (by decide), hlimit, hnot, hbound.2 hnot, hhalts hnot⟩, hfar,
    (rounds_end_exactly_within_limit far).2.2.2.2 hfar⟩

end OneDef.Scan
