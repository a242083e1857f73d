import OneDef.Proofs.Parsing
import OneDef.Proofs.WellFormed
import OneDef.Tree.Printer

/-!
# Printing a tree and reading it back

The text of a tree is put together from names, numerals, punctuation marks and blanks.  Each of these parts
is read as if it stood alone, because a mark or a blank stands at every place where two of them meet.  So
the tokens of a printed tree are the tokens of its parts, and they derive the tree up to spans.

Conversely nothing but a well-formed tree can come back, since all that is ever read is well formed.
-/

namespace OneDef.Pieces

open Lexeme

section Spelling

variable {kind : Kind} {c : Char} {piece cs ds gap : List Char} {P Q : List Token → Prop}

theorem tokensAt_append (offset : Nat) (ps qs : List (List Char)) :
    tokensAt offset (ps ++ qs) = tokensAt offset ps ++ tokensAt (offset + Text.size ps.flatten) qs := by
  induction ps generalizing offset with
  | nil => rfl
  | cons piece ps ih =>
    rw [List.cons_append, tokensAt, ih, tokensAt, List.append_assoc, List.flatten_cons,
      Text.size_append, Nat.add_assoc]

/-- A good text whose tokens have a property, wherever the text stands. -/
def Spells (cs : List Char) (P : List Token → Prop) : Prop :=
  AllGood cs ∧ ∀ offset, P (tokensAt offset (pieces cs))

/-- Tokens with one property, and behind them tokens with another. -/
def Then (P Q : List Token → Prop) (ts : List Token) : Prop :=
  ∃ us vs, ts = us ++ vs ∧ P us ∧ Q vs

/-- One token, of a kind and with a text. -/
def Word (kind : Kind) (text : String) (ts : List Token) : Prop :=
  ∃ token, ts = [token] ∧ token.kind = kind ∧ token.text = text

theorem Spells.imp (h : Spells cs P) (himp : ∀ ts, P ts → Q ts) : Spells cs Q :=
  ⟨h.1, fun offset ↦ himp _ (h.2 offset)⟩

theorem Spells.append (h : Spells cs P) (h' : Spells ds Q) (hsep : Separated cs ds) :
    Spells (cs ++ ds) (Then P Q) := by
  constructor
  · rw [AllGood, pieces_append hsep]
    exact List.forall_mem_append.2 ⟨h.1, h'.1⟩
  · intro offset
    rw [pieces_append hsep, tokensAt_append]
    exact ⟨_, _, rfl, h.2 _, h'.2 _⟩

theorem spells_piece (h : kind? piece = some kind) : Spells piece (Word kind (String.ofList piece)) := by
  have hfits := fits_of_kind? h
  constructor
  · rw [AllGood, hfits.isPiece.pieces_eq, List.forall_mem_singleton]
    exact good_of_fits hfits
  · intro offset
    rw [hfits.isPiece.pieces_eq, tokensAt, tokenAt, h]
    exact ⟨_, rfl, rfl, rfl⟩

theorem spells_toList {text : String} (h : kind? text.toList = some kind) :
    Spells text.toList (Word kind text) := by
  have hspells := spells_piece h
  rwa [String.ofList_toList] at hspells

theorem spells_nil (h : P []) : Spells [] P := ⟨by simp [AllGood], fun _ ↦ h⟩

theorem separated_cons (hc : isWordChar c = false) : Separated cs (c :: ds) :=
  separated_of_endsWord (by simp [endsWord, hc])

theorem separated_blanks (h : gap.all isBlank) : Separated gap ds := by
  intro a ha b _
  have hblank : isBlank a := List.all_eq_true.1 h a (List.mem_of_mem_getLast? ha)
  simp [joined, isWordChar_of_isBlank hblank]

theorem spells_blanks (h : gap.all isBlank) : Spells gap (· = []) := by
  induction gap with
  | nil => exact spells_nil rfl
  | cons c gap ih =>
    rw [List.all_cons, Bool.and_eq_true] at h
    obtain ⟨hc, hgap⟩ := h
    have hpiece : IsPiece [c] := .other (isWordChar_of_isBlank hc)
    have hblank : Spells [c] (· = []) := by
      constructor
      · rw [AllGood, hpiece.pieces_eq, List.forall_mem_singleton]
        exact hpiece.good_iff.2 (.inl ⟨c, hc, rfl⟩)
      · intro offset
        rw [hpiece.pieces_eq, tokensAt, tokenAt_of_isBlank hc]
        rfl
    refine (hblank.append (ih hgap) (separated_singleton (isWordChar_of_isBlank hc))).imp ?_
    rintro _ ⟨_, _, rfl, rfl, rfl⟩
    rfl

end Spelling

section Lists

open Grammar

variable {α β : Type} {Item : List Token → α → Prop} {f : α → β} {gap : List Char}

/-- Tokens of a phrase with a given image. -/
def Denotes (Phrase : List Token → α → Prop) (f : α → β) (y : β) (ts : List Token) : Prop :=
  ∃ x, Phrase ts x ∧ f x = y

theorem intercalate_cons (sep cs : List Char) (others : List (List Char)) :
    sep.intercalate (cs :: others) = cs ++ others.flatMap (sep ++ ·) := by
  induction others generalizing cs with
  | nil => simp
  | cons ds others ih => rw [List.intercalate_cons_cons, ih]; simp

theorem endsWord_flatMap (others : List (List Char)) :
    endsWord (others.flatMap (',' :: gap ++ ·)) := by
  cases others <;> rfl

theorem spells_others {texts : List (List Char)} {ys : List β} (hgap : gap.all isBlank)
    (h : List.Forall₂ (fun cs y ↦ Spells cs (Denotes Item f y)) texts ys) :
    Spells (texts.flatMap (',' :: gap ++ ·)) (Denotes (Others Item) (List.map f) ys) := by
  induction h with
  | nil => exact spells_nil ⟨[], .nil, rfl⟩
  | @cons cs y texts ys hitem _ ih =>
    have hcomma : Spells [','] (Word .comma ",") := spells_piece rfl
    have hrest := hitem.append ih (separated_of_endsWord (endsWord_flatMap texts))
    have hspells := hcomma.append ((spells_blanks hgap).append hrest (separated_blanks hgap))
      (separated_singleton rfl)
    rw [List.flatMap_cons, List.append_assoc]
    refine Spells.imp (by simpa using hspells) ?_
    rintro _ ⟨_, _, rfl, ⟨comma, rfl, hkind, -⟩, h⟩
    obtain ⟨_, _, rfl, rfl, us, vs, rfl, ⟨x, hx, rfl⟩, xs, hxs, rfl⟩ := h
    have hothers := Others.cons hkind hx hxs
    exact ⟨x :: xs, hothers, rfl⟩

theorem spells_items {texts : List (List Char)} {ys : List β} (hgap : gap.all isBlank)
    (h : List.Forall₂ (fun cs y ↦ Spells cs (Denotes Item f y)) texts ys) :
    Spells ((',' :: gap).intercalate texts) (Denotes (Items Item) (List.map f) ys) := by
  cases h with
  | nil => exact spells_nil ⟨[], .nil, rfl⟩
  | @cons cs y texts ys hitem hitems =>
    rw [intercalate_cons]
    refine (hitem.append (spells_others hgap hitems)
      (separated_of_endsWord (endsWord_flatMap texts))).imp ?_
    rintro _ ⟨us, vs, rfl, ⟨x, hx, rfl⟩, xs, hxs, rfl⟩
    exact ⟨x :: xs, .cons hx hxs, rfl⟩

/-- Items between parentheses. -/
def Enclosed (P : List Token → Prop) (ts : List Token) : Prop :=
  ∃ opening us closing, ts = opening :: (us ++ [closing]) ∧ opening.kind = .openParen ∧ P us ∧
    closing.kind = .closeParen

theorem toList_parenthesized (separator : String) (texts : List String) :
    (Tree.parenthesized separator texts).toList =
      ['('] ++ (separator.toList.intercalate (texts.map String.toList) ++ [')']) := by
  rw [Tree.parenthesized, String.toList_append, String.toList_append, String.toList_intercalate,
    List.append_assoc]
  rfl

theorem spells_parenthesized {separator : String} {texts : List String} {ys : List β}
    (hseparator : separator.toList = ',' :: gap) (hgap : gap.all isBlank)
    (h : List.Forall₂ (fun text y ↦ Spells text.toList (Denotes Item f y)) texts ys) :
    Spells (Tree.parenthesized separator texts).toList
      (Enclosed (Denotes (Items Item) (List.map f) ys)) := by
  have hopening : Spells ['('] (Word .openParen "(") := spells_piece rfl
  have hclosing : Spells [')'] (Word .closeParen ")") := spells_piece rfl
  have hitems := spells_items hgap (List.forall₂_map_left_iff.2 h)
  rw [toList_parenthesized, hseparator]
  refine (hopening.append (hitems.append hclosing (separated_cons rfl)) (separated_singleton rfl)).imp ?_
  rintro _ ⟨_, _, rfl, ⟨opening, rfl, ho, -⟩, us, _, rfl, hus, closing, rfl, hc, -⟩
  exact ⟨opening, us, closing, rfl, ho, hus, hc⟩

theorem separated_parenthesized {cs ds : List Char} {separator : String} {texts : List String} :
    Separated cs ((Tree.parenthesized separator texts).toList ++ ds) := by
  rw [toList_parenthesized]
  exact separated_cons rfl

theorem parenthesized_separated {ds : List Char} {separator : String} {texts : List String} :
    Separated (Tree.parenthesized separator texts).toList ds := by
  rw [toList_parenthesized, ← List.append_assoc]
  exact separated_concat rfl

end Lists

section Trees

open Grammar

variable {separator : String} {gap : List Char} {name : Ident}

theorem spells_name (h : name.WellFormed) :
    Spells name.text.toList (Denotes Name Ident.eraseSpan name.eraseSpan) := by
  refine (spells_toList (name.wellFormed_iff.1 h)).imp ?_
  rintro _ ⟨token, rfl, hkind, htext⟩
  exact ⟨_, .name hkind, by simp [Ident.eraseSpan, Parser.ident, htext]⟩

theorem spells_var (h : name.WellFormed) :
    Spells name.text.toList (Denotes Body Tree.eraseSpans (.var name.eraseSpan)) := by
  refine (spells_name h).imp ?_
  rintro _ ⟨_, ⟨hkind⟩, hname⟩
  exact ⟨_, .var hkind, by rw [Tree.eraseSpans, hname]⟩

theorem spells_int {value : String} (h : Numeral.IsCanonical value) :
    Spells value.toList (Denotes Body Tree.eraseSpans (.int value (Span.emptyAt 0))) := by
  refine (spells_toList h.kind?_toList).imp ?_
  rintro _ ⟨token, rfl, hkind, htext⟩
  exact ⟨_, .integer hkind, by rw [Tree.eraseSpans, htext, h.canonical_eq]⟩

theorem spells_call {texts : List String} {args : List Tree} (hname : name.WellFormed)
    (hseparator : separator.toList = ',' :: gap) (hgap : gap.all isBlank)
    (h : List.Forall₂ (fun text arg ↦ Spells text.toList (Denotes Body Tree.eraseSpans arg)) texts
      args) :
    Spells (name.text ++ Tree.parenthesized separator texts).toList
      (Denotes Body Tree.eraseSpans (.call name.eraseSpan args (Span.emptyAt 0))) := by
  have hargs := spells_parenthesized hseparator hgap h
  have hsep : Separated name.text.toList ((Tree.parenthesized separator texts).toList ++ []) :=
    separated_parenthesized
  rw [List.append_nil] at hsep
  rw [String.toList_append]
  refine ((spells_name hname).append hargs hsep).imp ?_
  rintro _ ⟨_, _, rfl, ⟨_, ⟨hkind⟩, hident⟩, h⟩
  obtain ⟨opening, us, closing, rfl, ho, ⟨trees, htrees, rfl⟩, hc⟩ := h
  refine ⟨_, .call hkind ho htrees hc, ?_⟩
  rw [Tree.eraseSpans, hident, Tree.eraseAllSpans_eq_map]

theorem spells_names {names : List Ident} (h : ∀ name ∈ names, name.WellFormed) :
    List.Forall₂ (fun text name ↦ Spells text.toList (Denotes Name Ident.eraseSpan name))
      (names.map Ident.text) (names.map Ident.eraseSpan) := by
  induction names with
  | nil => exact .nil
  | cons name names ih =>
    obtain ⟨hname, hnames⟩ := List.forall_mem_cons.1 h
    exact .cons (spells_name hname) (ih hnames)

/-- A definition may be laid out with any blanks around its body, as long as the body does not run into
the closing keyword. -/
theorem spells_definition {params : List Ident} {text before after : String} {body : Tree}
    (hname : name.WellFormed) (hparams : ∀ param ∈ params, param.WellFormed)
    (hseparator : separator.toList = ',' :: gap) (hgap : gap.all isBlank)
    (hbody : Spells text.toList (Denotes Body Tree.eraseSpans body))
    (hbefore : before.toList.all isBlank) (hafter : after.toList.all isBlank)
    (hne : after.toList ≠ []) :
    Spells ("def " ++ name.text ++ Tree.parenthesized separator (params.map Ident.text) ++ before ++
        text ++ after ++ "end").toList
      (Denotes Definition Tree.eraseSpans (.define name.eraseSpan (params.map Ident.eraseSpan) body
        (Span.emptyAt 0))) := by
  have hfirst : Spells ['d', 'e', 'f'] (Word .defWord "def") := spells_piece rfl
  have hspace : Spells [' '] (· = []) := spells_blanks rfl
  have hlast : Spells ['e', 'n', 'd'] (Word .endWord "end") := spells_piece rfl
  have hlist := spells_parenthesized hseparator hgap (spells_names hparams)
  obtain ⟨c, rest, hcons⟩ := List.exists_cons_of_ne_nil hne
  have hc : isWordChar c = false :=
    isWordChar_of_isBlank (List.all_eq_true.1 hafter c (by simp [hcons]))
  -- from the back to the front, each part in front of all that follows it
  have hend := (spells_blanks hafter).append hlast (separated_blanks hafter)
  have hrest := hbody.append hend (by rw [hcons]; exact separated_cons hc)
  have hbehind := hlist.append ((spells_blanks hbefore).append hrest (separated_blanks hbefore))
    parenthesized_separated
  have hspells := hfirst.append (hspace.append ((spells_name hname).append hbehind
    separated_parenthesized) (separated_singleton rfl)) (separated_cons rfl)
  have htext : ("def " ++ name.text ++ Tree.parenthesized separator (params.map Ident.text) ++ before ++
      text ++ after ++ "end").toList = ['d', 'e', 'f'] ++ ([' '] ++ (name.text.toList ++
        ((Tree.parenthesized separator (params.map Ident.text)).toList ++ (before.toList ++
          (text.toList ++ (after.toList ++ ['e', 'n', 'd'])))))) := by
    simp only [String.toList_append, List.append_assoc]
    rfl
  rw [htext]
  refine hspells.imp fun ts h ↦ ?_
  obtain ⟨_, _, rfl, ⟨first, rfl, hf, -⟩, h⟩ := h
  obtain ⟨_, _, rfl, rfl, h⟩ := h
  obtain ⟨_, _, rfl, ⟨_, ⟨hn⟩, hident⟩, h⟩ := h
  obtain ⟨_, _, rfl, ⟨opening, ps, closing, rfl, ho, ⟨idents, hidents, himage⟩, hclose⟩, h⟩ := h
  obtain ⟨_, _, rfl, rfl, h⟩ := h
  obtain ⟨us, _, rfl, ⟨tree, htree, rfl⟩, h⟩ := h
  obtain ⟨_, _, rfl, rfl, last, rfl, hl, -⟩ := h
  have hdefinition := Definition.define hf hn ho hidents hclose htree hl
  refine ⟨_, by simpa using hdefinition, ?_⟩
  rw [Tree.eraseSpans, hident, himage]

mutual

theorem spells_body : ∀ tree : Tree, tree.WellFormedBody →
    Spells tree.toSource.toList (Denotes Body Tree.eraseSpans tree.eraseSpans)
  | .define .., h => h.elim
  | .call _ args _, h => by
    have hseparator : ", ".toList = ',' :: [' '] := rfl
    rw [Tree.toSource, Tree.eraseSpans]
    exact spells_call h.1 hseparator rfl (spells_bodies args h.2)
  | .var _, h => by
    rw [Tree.toSource, Tree.eraseSpans]
    exact spells_var h
  | .int _ _, h => by
    rw [Tree.toSource, Tree.eraseSpans]
    exact spells_int h

theorem spells_bodies : ∀ trees : List Tree, Tree.WellFormedBodies trees →
    List.Forall₂ (fun text tree ↦ Spells text.toList (Denotes Body Tree.eraseSpans tree))
      (Tree.toSources trees) (Tree.eraseAllSpans trees)
  | [], _ => .nil
  | tree :: trees, h => .cons (spells_body tree h.1) (spells_bodies trees h.2)

end

theorem spells_toSource {tree : Tree} (h : tree.WellFormed) :
    Spells tree.toSource.toList (Denotes Definition Tree.eraseSpans tree.eraseSpans) := by
  cases tree with
  | define name params body span =>
    obtain ⟨hname, hparams, hbody⟩ := h
    have hseparator : ", ".toList = ',' :: [' '] := rfl
    have htext : (Tree.define name params body span).toSource = "def " ++ name.text ++
        Tree.parenthesized ", " (params.map Ident.text) ++ "\n  " ++ body.toSource ++ "\n" ++ "end" := by
      rw [Tree.toSource]
      simp only [String.append_assoc]
      rfl
    rw [htext, Tree.eraseSpans]
    exact spells_definition hname hparams hseparator rfl (spells_body body hbody) rfl rfl (by decide)
  | call _ _ _ | var _ | int _ _ => exact h.elim

end Trees

end OneDef.Pieces

namespace OneDef.Grammar

open Pieces

/-- A printed tree is read back, up to spans, exactly if it is well formed. -/
theorem toSource_read_back_iff (tree : Tree) (h : tree.toSource.utf8ByteSize ≤ Span.limit) :
    (∃ ts read, lex tree.toSource = .ok ts ∧ Tree.parse ts = .ok read ∧
      read.eraseSpans = tree.eraseSpans) ↔ tree.WellFormed := by
  constructor
  · rintro ⟨ts, read, hlex, hparse, herase⟩
    obtain ⟨-, rfl⟩ := (lex_eq_ok_iff h).1 hlex
    obtain ⟨front, hfront, hdefinition⟩ := exists_definition_of_parse hparse
    have hread : read.WellFormed := hdefinition.wellFormed fun token htoken ↦
      scanned_of_mem_tokensAt (hfront.subset htoken)
    rwa [← Tree.wellFormed_eraseSpans, herase, Tree.wellFormed_eraseSpans] at hread
  · intro hwell
    obtain ⟨hgood, htokens⟩ := spells_toSource hwell
    obtain ⟨read, hread, herase⟩ := htokens 0
    exact ⟨_, read, lex_of_allGood h hgood, hread.parse_of_prefix List.prefix_rfl, herase⟩

/-- Names may begin with a keyword, as in `def define(x, y) ends(x, 0, g()) end`, and may not be one. -/
theorem toSource_read_back_iff_keywords :
    let name (text : String) : Ident := ⟨text, ⟨7, 3⟩⟩
    let tree := Tree.define (name "define") [name "x", name "y"] (.call (name "ends")
      [.var (name "x"), .int "0" ⟨1, 1⟩, .call (name "g") [] ⟨2, 0⟩] ⟨0, 0⟩) ⟨5, 5⟩
    let keyword := Tree.define (name "f") [] (.var (name "end")) ⟨0, 0⟩
    (tree.toSource.utf8ByteSize ≤ Span.limit ∧ ∃ ts read, lex tree.toSource = .ok ts ∧
      Tree.parse ts = .ok read ∧ read.eraseSpans = tree.eraseSpans) ∧
      keyword.toSource.utf8ByteSize ≤ Span.limit ∧ ¬∃ ts read, lex keyword.toSource = .ok ts ∧
        Tree.parse ts = .ok read ∧ read.eraseSpans = keyword.eraseSpans := by
  intro name tree keyword
  have hlimit : tree.toSource.utf8ByteSize ≤ Span.limit := by decide +kernel
  have hlimit' : keyword.toSource.utf8ByteSize ≤ Span.limit := by decide +kernel
  have hwell : tree.WellFormed := by
    simp [tree, name, Tree.WellFormed, Tree.WellFormedBody, Tree.WellFormedBodies, Ident.WellFormed,
      Numeral.IsCanonical]
  have hnot : ¬keyword.WellFormed := by
    simp [keyword, name, Tree.WellFormed, Tree.WellFormedBody, Ident.WellFormed]
  exact ⟨⟨hlimit, (toSource_read_back_iff tree hlimit).2 hwell⟩, hlimit',
    mt (toSource_read_back_iff keyword hlimit').1 hnot⟩

end OneDef.Grammar
