import OneDef.Proofs.Grammar
import OneDef.Proofs.Scanning

/-!
# Well-formed trees

A definition is well formed when its names are words that can be read as names, its integers are in
canonical form, and no definition stands below the root.  Spans play no part, so a tree is as well formed
as it is with its spans erased.

Whatever is read from scanned tokens is well formed: the text of a scanned token fits its kind, and no
identifier is a keyword.
-/

namespace OneDef

def Ident.eraseSpan (name : Ident) : Ident := ⟨name.text, Span.emptyAt 0⟩

/-- Letters that are not a keyword. -/
def Ident.WellFormed (name : Ident) : Prop :=
  name.text ≠ "" ∧ (∀ c ∈ name.text.toList, c.isAlpha) ∧ name.text ≠ "def" ∧ name.text ≠ "end"

theorem Ident.wellFormed_eraseSpan (name : Ident) :
    name.eraseSpan.WellFormed ↔ name.WellFormed := Iff.rfl

/-- Zero, or digits of which the first is not zero. -/
def Numeral.IsCanonical (value : String) : Prop :=
  value = "0" ∨ value ≠ "" ∧ (∀ c ∈ value.toList, c.isDigit) ∧ value.toList.head? ≠ some '0'

namespace Tree

mutual

def eraseSpans : Tree → Tree
  | .define name params body _ =>
    .define name.eraseSpan (params.map Ident.eraseSpan) body.eraseSpans (Span.emptyAt 0)
  | .call name args _ => .call name.eraseSpan (eraseAllSpans args) (Span.emptyAt 0)
  | .var name => .var name.eraseSpan
  | .int value _ => .int value (Span.emptyAt 0)

def eraseAllSpans : List Tree → List Tree
  | [] => []
  | tree :: trees => tree.eraseSpans :: eraseAllSpans trees

end

theorem eraseAllSpans_eq_map (trees : List Tree) : eraseAllSpans trees = trees.map eraseSpans := by
  induction trees with
  | nil => rfl
  | cons tree trees ih => rw [eraseAllSpans, ih, List.map_cons]

mutual

def WellFormedBody : Tree → Prop
  | .define .. => False
  | .call name args _ => name.WellFormed ∧ WellFormedBodies args
  | .var name => name.WellFormed
  | .int value _ => Numeral.IsCanonical value

def WellFormedBodies : List Tree → Prop
  | [] => True
  | tree :: trees => tree.WellFormedBody ∧ WellFormedBodies trees

end

def WellFormed : Tree → Prop
  | .define name params body _ =>
    name.WellFormed ∧ (∀ param ∈ params, param.WellFormed) ∧ body.WellFormedBody
  | _ => False

mutual

theorem wellFormedBody_eraseSpans : ∀ tree : Tree,
    tree.eraseSpans.WellFormedBody ↔ tree.WellFormedBody
  | .define .. => by simp [eraseSpans, WellFormedBody]
  | .call name args _ => by
    simp only [eraseSpans, WellFormedBody, name.wellFormed_eraseSpan,
      wellFormedBodies_eraseAllSpans args]
  | .var name => by simp only [eraseSpans, WellFormedBody, name.wellFormed_eraseSpan]
  | .int value _ => by simp only [eraseSpans, WellFormedBody]

theorem wellFormedBodies_eraseAllSpans : ∀ trees : List Tree,
    WellFormedBodies (eraseAllSpans trees) ↔ WellFormedBodies trees
  | [] => Iff.rfl
  | tree :: trees => by
    simp only [eraseAllSpans, WellFormedBodies, wellFormedBody_eraseSpans tree,
      wellFormedBodies_eraseAllSpans trees]

end

theorem wellFormed_eraseSpans (tree : Tree) : tree.eraseSpans.WellFormed ↔ tree.WellFormed := by
  cases tree with
  | define name params body span =>
    simp only [eraseSpans, WellFormed, name.wellFormed_eraseSpan, wellFormedBody_eraseSpans,
      List.forall_mem_map, Ident.wellFormed_eraseSpan]
  | call _ _ _ | var _ | int _ _ => simp [eraseSpans, WellFormed]

end Tree

section Texts

open Pieces

variable {cs : List Char}

theorem not_isAlpha_of_isDigit {c : Char} (h : c.isDigit) : c.isAlpha = false := by
  have hnine : c.toNat ≤ 57 := by
    have hle : (c.val ≥ 48 && c.val ≤ 57) = true := h
    simp only [Bool.and_eq_true, decide_eq_true_eq] at hle
    exact UInt32.le_iff_toNat_le.1 hle.2
  -- both kinds of letters come behind the digits
  change (decide (c.val ≥ 65 ∧ c.val ≤ 90) || (c.val ≥ 97 && c.val ≤ 122)) = false
  have hupper : ¬c.val ≥ 65 := by
    intro hle
    have hnat : 65 ≤ c.toNat := UInt32.le_iff_toNat_le.1 hle
    omega
  have hlower : ¬c.val ≥ 97 := by
    intro hle
    have hnat : 97 ≤ c.toNat := UInt32.le_iff_toNat_le.1 hle
    omega
  simp [hupper, hlower]

theorem kind?_eq_identifier_iff : kind? cs = some .identifier ↔
    (cs ≠ [] ∧ cs.all Char.isAlpha) ∧ cs ≠ ['d', 'e', 'f'] ∧ cs ≠ ['e', 'n', 'd'] := by
  constructor
  · intro h
    refine ⟨fits_of_kind? h, ?_, ?_⟩
    · rintro rfl
      cases h
    · rintro rfl
      cases h
  · rintro ⟨hletters, hdef, hend⟩
    rw [kind?, if_neg hdef, if_neg hend, if_pos hletters]

theorem kind?_eq_integer_iff : kind? cs = some .integer ↔ cs ≠ [] ∧ cs.all Char.isDigit := by
  refine ⟨fits_of_kind?, fun h ↦ ?_⟩
  obtain ⟨c, rest, rfl⟩ := List.exists_cons_of_ne_nil h.1
  have hletter := not_isAlpha_of_isDigit (List.all_eq_true.1 h.2 c List.mem_cons_self)
  have hdef : c :: rest ≠ ['d', 'e', 'f'] := by
    rintro ⟨⟩
    cases hletter
  have hend : c :: rest ≠ ['e', 'n', 'd'] := by
    rintro ⟨⟩
    cases hletter
  have hletters : ¬(c :: rest ≠ [] ∧ (c :: rest).all Char.isAlpha) := by
    simp [hletter]
  rw [kind?, if_neg hdef, if_neg hend, if_neg hletters, if_pos h]

theorem Ident.wellFormed_iff (name : Ident) :
    name.WellFormed ↔ kind? name.text.toList = some .identifier := by
  simp only [kind?_eq_identifier_iff, Ident.WellFormed, ne_eq, ← String.toList_inj, and_assoc,
    List.all_eq_true]
  rfl

theorem Numeral.isCanonical_canonical {digits : String}
    (h : kind? digits.toList = some .integer) : IsCanonical (canonical digits) := by
  obtain ⟨-, hdigits⟩ := kind?_eq_integer_iff.1 h
  unfold canonical
  split
  · exact .inl rfl
  · next kept hne =>
    have hhead := List.head?_dropWhile_not (· = '0') digits.toList
    refine .inr ⟨?_, ?_, ?_⟩
    · simpa using hne
    · intro c hc
      rw [String.toList_ofList] at hc
      exact List.all_eq_true.1 hdigits c ((List.dropWhile_suffix _).subset hc)
    · intro hzero
      rw [String.toList_ofList] at hzero
      simp [hzero] at hhead

theorem Numeral.IsCanonical.kind?_toList {value : String} (h : IsCanonical value) :
    kind? value.toList = some .integer := by
  rw [kind?_eq_integer_iff]
  obtain rfl | ⟨hne, hdigits, -⟩ := h
  · decide
  · exact ⟨by simpa using hne, List.all_eq_true.2 hdigits⟩

theorem Numeral.IsCanonical.canonical_eq {value : String} (h : IsCanonical value) :
    canonical value = value := by
  obtain rfl | ⟨hne, -, hhead⟩ := h
  · rfl
  · have hkept : value.toList.dropWhile (· = '0') = value.toList := by
      cases hlist : value.toList with
      | nil => rfl
      | cons c rest =>
        rw [hlist, List.head?_cons, ne_eq, Option.some.injEq] at hhead
        simp [hhead]
    unfold canonical
    rw [hkept]
    split
    · next hnil => exact absurd (String.toList_eq_nil_iff.1 hnil) hne
    · next kept _ => exact String.ofList_toList

end Texts

/-- The text of the token is one that is scanned as its kind. -/
def Token.Scanned (token : Token) : Prop := Pieces.kind? token.text.toList = some token.kind

theorem Pieces.scanned_of_mem_tokensAt {token : Token} {offset : Nat} {ps : List (List Char)}
    (h : token ∈ tokensAt offset ps) : token.Scanned := by
  induction ps generalizing offset with
  | nil => simp [tokensAt] at h
  | cons piece ps ih =>
    rw [tokensAt, List.mem_append, Option.mem_toList, tokenAt] at h
    obtain h | h := h
    · obtain ⟨kind, hkind, rfl⟩ := Option.map_eq_some_iff.1 h
      rw [Token.Scanned, String.toList_ofList, hkind]
    · exact ih h

namespace Grammar

variable {ts : List Token}

theorem wellFormed_ident {token : Token} (h : token.Scanned) (hkind : token.kind = .identifier) :
    (Parser.ident token).WellFormed := by
  rw [Ident.wellFormed_iff, ← hkind]
  exact h

theorem Others.wellFormed {names : List Ident} (h : Others Name ts names)
    (hts : ∀ token ∈ ts, token.Scanned) : ∀ name ∈ names, name.WellFormed := by
  induction h with
  | nil => simp
  | cons hcomma hitem hothers ih =>
    obtain ⟨hname⟩ := hitem
    simp only [List.singleton_append, List.forall_mem_cons] at hts ⊢
    exact ⟨wellFormed_ident hts.2.1 hname, ih hts.2.2⟩

theorem Items.wellFormed {names : List Ident} (h : Items Name ts names)
    (hts : ∀ token ∈ ts, token.Scanned) : ∀ name ∈ names, name.WellFormed := by
  cases h with
  | nil => simp
  | cons hitem hothers =>
    obtain ⟨hname⟩ := hitem
    simp only [List.singleton_append, List.forall_mem_cons] at hts ⊢
    exact ⟨wellFormed_ident hts.1 hname, hothers.wellFormed hts.2⟩

mutual

theorem Body.wellFormedBody : ∀ {ts : List Token} {tree : Tree}, Body ts tree →
    (∀ token ∈ ts, token.Scanned) → tree.WellFormedBody
  | _, _, .integer h, hts => by
    have hscanned := hts _ List.mem_cons_self
    rw [Token.Scanned, h] at hscanned
    exact Numeral.isCanonical_canonical hscanned
  | _, _, .call hname _ hargs _, hts => by
    simp only [List.forall_mem_cons, List.forall_mem_append] at hts
    exact ⟨wellFormed_ident hts.1 hname, hargs.wellFormedBodies hts.2.2.1⟩
  | _, _, .var h, hts => wellFormed_ident (hts _ List.mem_cons_self) h

theorem Items.wellFormedBodies : ∀ {ts : List Token} {trees : List Tree}, Items Body ts trees →
    (∀ token ∈ ts, token.Scanned) → Tree.WellFormedBodies trees
  | _, _, .nil, _ => trivial
  | _, _, .cons hitem hothers, hts =>
    have hts := List.forall_mem_append.1 hts
    ⟨hitem.wellFormedBody hts.1, hothers.wellFormedBodies hts.2⟩

theorem Others.wellFormedBodies : ∀ {ts : List Token} {trees : List Tree}, Others Body ts trees →
    (∀ token ∈ ts, token.Scanned) → Tree.WellFormedBodies trees
  | _, _, .nil, _ => trivial
  | _, _, .cons _ hitem hothers, hts =>
    have hts := List.forall_mem_append.1 (List.forall_mem_cons.1 hts).2
    ⟨hitem.wellFormedBody hts.1, hothers.wellFormedBodies hts.2⟩

end

/-- The tree of scanned tokens is well formed. -/
theorem Definition.wellFormed {tree : Tree} (h : Definition ts tree)
    (hts : ∀ token ∈ ts, token.Scanned) : tree.WellFormed := by
  obtain ⟨-, hname, -, hparams, -, hbody, -⟩ := h
  simp only [List.forall_mem_cons, List.forall_mem_append] at hts
  obtain ⟨-, hscanned, -, hps, -, hus, -⟩ := hts
  exact ⟨wellFormed_ident hscanned hname, hparams.wellFormed hps, hbody.wellFormedBody hus⟩

end Grammar

end OneDef
