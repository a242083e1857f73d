import OneDef.Token.Scan
import Mathlib.Data.List.SplitBy

/-!
# The pieces of a text

A text is cut into its maximal runs of word characters and its other characters, one by one.  This can be
done in one way only, and the first piece of a text is all that decides its first token.

No piece can be read further than it goes: a word ends only where no word character follows.  So the
order in which the kinds are tried matters for the two keywords alone.
-/

namespace OneDef.Pieces

open Lexeme

/-- Two neighbouring characters that belong to one run. -/
def joined (a b : Char) : Bool := isWordChar a && isWordChar b

def pieces (cs : List Char) : List (List Char) := cs.splitBy joined

/-- No run goes on from the first text into the second. -/
def Separated (cs ds : List Char) : Prop := ∀ a ∈ cs.getLast?, ∀ b ∈ ds.head?, joined a b = false

inductive IsPiece : List Char → Prop where
  | run {piece : List Char} (hne : piece ≠ []) (h : ∀ c ∈ piece, isWordChar c) : IsPiece piece
  | other {c : Char} (h : isWordChar c = false) : IsPiece [c]

/-- A text cut into runs and other characters, with no run cut in two. -/
structure IsCut (cs : List Char) (ps : List (List Char)) : Prop where
  flatten_eq : ps.flatten = cs
  isPiece : ∀ piece ∈ ps, IsPiece piece
  separated : ps.IsChain Separated

section Cutting

variable {piece cs ds rest : List Char}

@[simp] theorem pieces_nil : pieces [] = [] := rfl

@[simp] theorem flatten_pieces (cs : List Char) : (pieces cs).flatten = cs :=
  List.flatten_splitBy joined cs

theorem IsPiece.ne_nil (h : IsPiece piece) : piece ≠ [] := by
  cases h with
  | run hne _ => exact hne
  | other _ => simp

theorem pieces_append (h : Separated cs ds) : pieces (cs ++ ds) = pieces cs ++ pieces ds :=
  List.splitBy_append h

theorem isChain_joined (h : ∀ c ∈ cs, isWordChar c) : cs.IsChain fun a b ↦ joined a b := by
  induction cs with
  | nil => exact .nil
  | cons a cs ih =>
    refine List.isChain_cons.2 ⟨fun b hb ↦ ?_, ih fun c hc ↦ h c (List.mem_cons_of_mem a hc)⟩
    have hb' := List.mem_of_mem_head? hb
    simp [joined, h a List.mem_cons_self, h b (List.mem_cons_of_mem a hb')]

theorem IsPiece.pieces_eq (h : IsPiece piece) : pieces piece = [piece] := by
  apply List.splitBy_of_isChain h.ne_nil
  cases h with
  | run _ h => exact isChain_joined h
  | other _ => exact List.isChain_singleton _

theorem IsPiece.pieces_append (h : IsPiece piece) (hrest : Separated piece rest) :
    pieces (piece ++ rest) = piece :: pieces rest := by
  rw [Pieces.pieces_append hrest, h.pieces_eq, List.singleton_append]

theorem separated_concat {c : Char} (hc : isWordChar c = false) : Separated (cs ++ [c]) ds := by
  intro a ha b _
  obtain rfl : c = a := by simpa using ha
  simp [joined, hc]

theorem separated_singleton {c : Char} (hc : isWordChar c = false) : Separated [c] ds := by
  rw [← List.nil_append [c]]
  exact separated_concat hc

/-- A text that is not empty starts with a piece. -/
theorem exists_piece (cs : List Char) :
    cs = [] ∨ ∃ piece rest, cs = piece ++ rest ∧ IsPiece piece ∧ Separated piece rest := by
  cases cs with
  | nil => exact .inl rfl
  | cons c cs =>
    right
    by_cases hc : isWordChar c
    · refine ⟨(c :: cs).takeWhile isWordChar, (c :: cs).dropWhile isWordChar,
        List.takeWhile_append_dropWhile.symm, .run ?_ ?_, ?_⟩
      · simp [hc]
      · exact List.all_eq_true.1 List.all_takeWhile
      · intro a _ b hb
        have hnot := List.head?_dropWhile_not isWordChar (c :: cs)
        rw [hb] at hnot
        simp [joined, hnot]
    · have hother : isWordChar c = false := by simpa using hc
      exact ⟨[c], cs, rfl, .other hother, separated_singleton hother⟩

/-- Induction along the pieces of a text. -/
@[elab_as_elim]
theorem pieces_induction {motive : List Char → Prop} (nil : motive [])
    (append : ∀ piece rest, IsPiece piece → Separated piece rest → motive rest →
      motive (piece ++ rest)) (cs : List Char) : motive cs := by
  obtain hcs | ⟨piece, rest, hcs, hpiece, hrest⟩ := exists_piece cs
  · exact hcs ▸ nil
  · exact hcs ▸ append piece rest hpiece hrest (pieces_induction nil append rest)
termination_by cs.length
decreasing_by
  have hpos := List.length_pos_iff.2 hpiece.ne_nil
  rw [hcs, List.length_append]
  omega

theorem Separated.of_append_right (hpiece : Separated piece rest)
    (h : Separated (piece ++ rest) ds) : Separated piece (rest ++ ds) := by
  cases rest with
  | nil => simpa using h
  | cons c rest => exact hpiece

theorem Separated.of_append (h : Separated piece (rest ++ ds)) : Separated piece rest := by
  cases rest with
  | nil =>
    intro a _ b hb
    simp at hb
  | cons c rest => exact h

theorem Separated.append (hpiece : Separated piece (rest ++ ds)) (h : Separated rest ds) :
    Separated (piece ++ rest) ds := by
  cases rest with
  | nil => simpa using hpiece
  | cons c rest =>
    intro a ha
    exact h a (by simpa [List.getLast?_append] using ha)

theorem Separated.of_append_left (h : Separated (piece ++ rest) ds) : Separated rest ds := by
  intro a ha
  exact h a (by simp [List.getLast?_append, Option.mem_def.1 ha])

theorem IsCut.separated_flatten {ps : List (List Char)} (h : IsCut cs (piece :: ps)) :
    Separated piece ps.flatten := by
  cases ps with
  | nil =>
    intro a _ b hb
    simp at hb
  | cons next ps =>
    have hnext : next ≠ [] := (h.isPiece next (by simp)).ne_nil
    obtain ⟨c, rest, rfl⟩ := List.exists_cons_of_ne_nil hnext
    exact (List.isChain_cons_cons.1 h.separated).1

theorem IsCut.eq_pieces {ps : List (List Char)} (h : IsCut cs ps) : ps = pieces cs := by
  induction ps generalizing cs with
  | nil =>
    obtain rfl := h.flatten_eq
    rfl
  | cons piece ps ih =>
    have hpiece : IsPiece piece := h.isPiece piece List.mem_cons_self
    have hcut : IsCut ps.flatten ps :=
      ⟨rfl, fun p hp ↦ h.isPiece p (List.mem_cons_of_mem piece hp), h.separated.tail⟩
    rw [← h.flatten_eq, List.flatten_cons, hpiece.pieces_append h.separated_flatten, ← ih hcut]

theorem isCut_pieces (cs : List Char) : IsCut cs (pieces cs) := by
  induction cs using pieces_induction with
  | nil => exact ⟨rfl, by simp, .nil⟩
  | append piece rest hpiece hrest ih =>
    rw [hpiece.pieces_append hrest]
    refine ⟨by simp, List.forall_mem_cons.2 ⟨hpiece, ih.isPiece⟩,
      List.isChain_cons.2 ⟨fun next hnext ↦ ?_, ih.separated⟩⟩
    obtain ⟨others, hothers⟩ := List.head?_eq_some_iff.1 hnext
    have hflatten : rest = next ++ others.flatten := by
      rw [← flatten_pieces rest, hothers, List.flatten_cons]
    rw [hflatten] at hrest
    exact hrest.of_append

/-- There is one way to cut a text. -/
theorem isCut_iff {ps : List (List Char)} : IsCut cs ps ↔ ps = pieces cs := by
  constructor
  · exact IsCut.eq_pieces
  · rintro rfl
    exact isCut_pieces cs

/-- A text starts with one piece only. -/
theorem IsPiece.unique {piece' rest' : List Char} (h : IsPiece piece) (hrest : Separated piece rest)
    (h' : IsPiece piece') (hrest' : Separated piece' rest') (heq : piece ++ rest = piece' ++ rest') :
    piece = piece' ∧ rest = rest' := by
  have hpieces : piece :: pieces rest = piece' :: pieces rest' := by
    rw [← h.pieces_append hrest, heq, h'.pieces_append hrest']
  obtain rfl := (List.cons.inj hpieces).1
  exact ⟨rfl, List.append_cancel_left heq⟩

theorem separated_of_endsWord (h : endsWord rest) : Separated piece rest := by
  intro a _ b hb
  obtain ⟨tail, rfl⟩ := List.head?_eq_some_iff.1 hb
  simp_all [endsWord, joined]

theorem endsWord_of_separated (hne : piece ≠ []) (hword : ∀ c ∈ piece, isWordChar c)
    (h : Separated piece rest) : endsWord rest := by
  cases rest with
  | nil => rfl
  | cons b rest =>
    have hjoined := h (piece.getLast hne) (List.getLast?_eq_some_getLast hne) b rfl
    simpa [joined, endsWord, hword _ (List.getLast_mem hne)] using hjoined

end Cutting

section Kinds

variable {kind : Kind} {piece cs text rest : List Char}

/-- The texts that tokens of a kind can have. -/
def Fits : Kind → List Char → Prop
  | .defWord, text => text = ['d', 'e', 'f']
  | .endWord, text => text = ['e', 'n', 'd']
  | .identifier, text => text ≠ [] ∧ text.all Char.isAlpha
  | .integer, text => text ≠ [] ∧ text.all Char.isDigit
  | .openParen, text => text = ['(']
  | .closeParen, text => text = [')']
  | .comma, text => text = [',']

instance decidableFits : ∀ kind text, Decidable (Fits kind text)
  | .defWord, _ | .endWord, _ | .openParen, _ | .closeParen, _ | .comma, _ =>
    inferInstanceAs (Decidable (_ = _))
  | .identifier, _ | .integer, _ => inferInstanceAs (Decidable (_ ∧ _))

theorem isWordChar_of_isAlpha {c : Char} (h : c.isAlpha) : isWordChar c := by
  simp [isWordChar, Char.isAlphanum, h]

theorem isWordChar_of_isDigit {c : Char} (h : c.isDigit) : isWordChar c := by
  simp [isWordChar, Char.isAlphanum, h]

theorem Fits.isWordChar (h : Fits kind text) (hkind : kind.isWord) :
    ∀ c ∈ text, Lexeme.isWordChar c := by
  cases kind with
  | defWord | endWord =>
    obtain rfl := h
    exact List.all_eq_true.1 rfl
  | identifier => exact fun c hc ↦ isWordChar_of_isAlpha (List.all_eq_true.1 h.2 c hc)
  | integer => exact fun c hc ↦ isWordChar_of_isDigit (List.all_eq_true.1 h.2 c hc)
  | openParen | closeParen | comma => simp [Kind.isWord] at hkind

theorem Fits.isPiece (h : Fits kind text) : IsPiece text := by
  cases kind with
  | defWord | endWord =>
    refine .run ?_ (h.isWordChar rfl)
    obtain rfl := h
    simp
  | identifier | integer => exact .run h.1 (h.isWordChar rfl)
  | openParen | closeParen | comma =>
    obtain rfl := h
    exact .other rfl

theorem Fits.separated (h : Fits kind text) (hrest : !kind.isWord || endsWord rest) :
    Separated text rest := by
  cases kind with
  | defWord | endWord | identifier | integer => exact separated_of_endsWord hrest
  | openParen | closeParen | comma =>
    obtain rfl := h
    exact separated_singleton rfl

theorem pattern?_fits (h : pattern? kind cs = some (text, rest)) : Fits kind text := by
  have hrun (p : Char → Bool) (h : run? p cs = some (text, rest)) :
      text ≠ [] ∧ text.all p := by
    refine ⟨(run?_append h).1, ?_⟩
    simp only [run?] at h
    split at h
    · simp at h
    · obtain ⟨rfl, -⟩ := by simpa using h
      exact List.all_takeWhile
  cases kind with
  | defWord | endWord | openParen | closeParen | comma => exact (literal?_append h).1
  | identifier => exact hrun _ h
  | integer => exact hrun _ h

theorem literal?_self (word rest : List Char) : literal? word (word ++ rest) = some (word, rest) := by
  simp [literal?]

theorem run?_self {p : Char → Bool} (hne : text ≠ []) (h : text.all p)
    (hrest : ∀ c ∈ rest.head?, p c = false) : run? p (text ++ rest) = some (text, rest) := by
  have htake : rest.takeWhile p = [] := by
    cases rest with
    | nil => rfl
    | cons c rest => simp [hrest c rfl]
  have hdrop : rest.dropWhile p = rest := by
    cases rest with
    | nil => rfl
    | cons c rest => simp [hrest c rfl]
  rw [List.all_eq_true] at h
  rw [run?, List.takeWhile_append_of_pos h, List.dropWhile_append_of_pos h, htake, hdrop]
  simp [hne]

theorem Fits.pattern?_append (h : Fits kind text) (hrest : !kind.isWord || endsWord rest) :
    pattern? kind (text ++ rest) = some (text, rest) := by
  have hhead (c : Char) (hends : endsWord rest) (hc : c ∈ rest.head?) : Lexeme.isWordChar c = false := by
    obtain ⟨tail, rfl⟩ := List.head?_eq_some_iff.1 hc
    simpa [endsWord] using hends
  cases kind with
  | defWord | endWord | openParen | closeParen | comma =>
    obtain rfl := h
    exact literal?_self _ rest
  | identifier =>
    refine run?_self h.1 h.2 fun c hc ↦ ?_
    have hword := hhead c hrest hc
    contrapose! hword
    simp [isWordChar_of_isAlpha (by simpa using hword)]
  | integer =>
    refine run?_self h.1 h.2 fun c hc ↦ ?_
    have hword := hhead c hrest hc
    contrapose! hword
    simp [isWordChar_of_isDigit (by simpa using hword)]

theorem ofKind?_of_fits (h : Fits kind piece) (hrest : Separated piece rest) :
    ofKind? kind (piece ++ rest) = some ⟨kind, piece, rest⟩ := by
  have hends : !kind.isWord || endsWord rest := by
    cases hword : kind.isWord with
    | false => rfl
    | true => exact endsWord_of_separated h.isPiece.ne_nil (h.isWordChar hword) hrest
  rw [ofKind?, h.pattern?_append hends]
  exact if_pos hends

theorem ofKind?_of_not_fits (hpiece : IsPiece piece) (hrest : Separated piece rest)
    (h : ¬Fits kind piece) : ofKind? kind (piece ++ rest) = none := by
  cases hpattern : pattern? kind (piece ++ rest) with
  | none => rw [ofKind?, hpattern]
  | some found =>
    obtain ⟨text, rest'⟩ := found
    rw [ofKind?, hpattern]
    refine if_neg fun hends ↦ h ?_
    have hfits := pattern?_fits hpattern
    have happ := (pattern?_append hpattern).2
    obtain ⟨rfl, -⟩ := hfits.isPiece.unique (hfits.separated hends) hpiece hrest happ
    exact hfits

/-- The kind of token that a piece is; none if it is blank or not good. -/
def kind? (piece : List Char) : Option Kind :=
  if piece = ['d', 'e', 'f'] then some .defWord
  else if piece = ['e', 'n', 'd'] then some .endWord
  else if piece ≠ [] ∧ piece.all Char.isAlpha then some .identifier
  else if piece ≠ [] ∧ piece.all Char.isDigit then some .integer
  else if piece = ['('] then some .openParen
  else if piece = [')'] then some .closeParen
  else if piece = [','] then some .comma
  else none

theorem kind?_eq_find? (piece : List Char) :
    kind? piece = Kind.all.find? fun kind ↦ Fits kind piece := by
  have hcons (kind : Kind) (kinds : List Kind) :
      (kind :: kinds).find? (fun kind ↦ Fits kind piece) =
        if Fits kind piece then some kind else kinds.find? fun kind ↦ Fits kind piece := by
    split_ifs with h <;> simp [h]
  simp only [Kind.all, hcons, List.find?_nil]
  rfl

theorem fits_of_kind? (h : kind? piece = some kind) : Fits kind piece := by
  rw [kind?_eq_find?] at h
  simpa using List.find?_some h

theorem isSome_kind?_of_fits (h : Fits kind piece) : (kind? piece).isSome := by
  rw [kind?_eq_find?, List.find?_isSome]
  exact ⟨kind, Kind.mem_all kind, decide_eq_true h⟩

/-- The token at the front of a text is the first piece of the text, if that is good and not blank. -/
theorem first?_piece (hpiece : IsPiece piece) (hrest : Separated piece rest) :
    first? (piece ++ rest) = (kind? piece).map fun kind ↦ ⟨kind, piece, rest⟩ := by
  rw [first?, kind?_eq_find?, List.find?_eq_findSome?_guard, List.map_findSome?]
  congr 1
  funext kind
  by_cases h : Fits kind piece
  · rw [ofKind?_of_fits h hrest]
    simp [Option.guard, h]
  · rw [ofKind?_of_not_fits hpiece hrest h]
    simp [Option.guard, h]

end Kinds

end OneDef.Pieces
