import OneDef.Proofs.Programs
import OneDef.Proofs.Slices

/-!
# Subtrees and their slices

Every part of a tree that was read from a source is what its own slice of the source is read as, moved to
the front.  Three facts carry this over from the tokens.  A part of a tree is derived from tokens that
follow one another.  Its span covers exactly those tokens.  And moving the tokens moves the tree that is
derived from them, in the same way.
-/

namespace OneDef

section Offsets

def Span.mapOffsets (f : Nat → Nat) (span : Span) : Span := ⟨f span.start, f span.stop⟩

def Token.mapOffsets (f : Nat → Nat) (token : Token) : Token :=
  ⟨token.kind, token.text, token.span.mapOffsets f⟩

def Ident.mapOffsets (f : Nat → Nat) (name : Ident) : Ident := ⟨name.text, name.span.mapOffsets f⟩

mutual

def Tree.mapOffsets (f : Nat → Nat) : Tree → Tree
  | .define name params body span =>
    .define (name.mapOffsets f) (params.map (Ident.mapOffsets f)) (body.mapOffsets f) (span.mapOffsets f)
  | .call name args span => .call (name.mapOffsets f) (mapAllOffsets f args) (span.mapOffsets f)
  | .var name => .var (name.mapOffsets f)
  | .int value span => .int value (span.mapOffsets f)

def Tree.mapAllOffsets (f : Nat → Nat) : List Tree → List Tree
  | [] => []
  | tree :: trees => tree.mapOffsets f :: mapAllOffsets f trees

end

theorem Tree.mapAllOffsets_eq_map (f : Nat → Nat) (trees : List Tree) :
    mapAllOffsets f trees = trees.map (mapOffsets f) := by
  induction trees with
  | nil => rfl
  | cons tree trees ih => rw [mapAllOffsets, ih, List.map_cons]

@[simp] theorem Tree.shape_mapOffsets (f : Nat → Nat) (tree : Tree) :
    (tree.mapOffsets f).shape = tree.shape := by
  cases tree <;> rw [mapOffsets] <;> rfl

/-- The second tree is the first with an amount subtracted from every offset, and no offset was smaller. -/
def Tree.MovedBack (amount : Nat) (tree moved : Tree) : Prop :=
  moved = tree.mapOffsets (· - amount) ∧ moved.mapOffsets (· + amount) = tree

/-- The first tree occurs in the second. -/
inductive Tree.Occurs : Tree → Tree → Prop where
  | self (tree : Tree) : Occurs tree tree
  | body {node body : Tree} {name : Ident} {params : List Ident} {span : Span}
      (h : Occurs node body) : Occurs node (.define name params body span)
  | arg {node arg : Tree} {name : Ident} {args : List Tree} {span : Span} (harg : arg ∈ args)
      (h : Occurs node arg) : Occurs node (.call name args span)

/-- The names that stand at the root of a tree. -/
def Tree.names : Tree → List Ident
  | .define name params _ _ => name :: params
  | .call name _ _ => [name]
  | .var name => [name]
  | .int _ _ => []

end Offsets

namespace Pieces

theorem tokensAt_add (offset amount : Nat) (ps : List (List Char)) :
    tokensAt (offset + amount) ps = (tokensAt offset ps).map (Token.mapOffsets (· + amount)) := by
  induction ps generalizing offset with
  | nil => rfl
  | cons piece ps ih =>
    have hoffset : offset + amount + Text.size piece = offset + Text.size piece + amount := by omega
    rw [tokensAt, tokensAt, hoffset, ih, List.map_append]
    congr 1
    unfold tokenAt
    cases kind? piece with
    | none => rfl
    | some kind =>
      simp only [Option.map_some, Option.toList_some, List.map_singleton, Token.mapOffsets,
        Span.mapOffsets, hoffset]

end Pieces

namespace Grammar

open OneDef.Parser Pieces

section Moving

variable {ts : List Token} {tree tree' : Tree}

@[simp] theorem kind_mapOffsets (f : Nat → Nat) (token : Token) :
    (token.mapOffsets f).kind = token.kind := rfl

theorem Name.mapOffsets {name : Ident} (f : Nat → Nat) (h : Name ts name) :
    Name (ts.map (Token.mapOffsets f)) (name.mapOffsets f) := by
  obtain ⟨hkind⟩ := h
  exact .name ((kind_mapOffsets f _).trans hkind)

theorem Body.mapOffsets (f : Nat → Nat) (h : Body ts tree) :
    Body (ts.map (Token.mapOffsets f)) (tree.mapOffsets f) := by
  apply Body.induction (motive := fun ts tree ↦ Body (ts.map (Token.mapOffsets f)) (tree.mapOffsets f))
    ?integer ?call ?var h
  case integer =>
    intro token hkind
    rw [Tree.mapOffsets]
    exact .integer ((kind_mapOffsets f token).trans hkind)
  case call =>
    intro name opening closing ts args hname hopening hargs hclosing
    have hmoved : Items Body (ts.map (Token.mapOffsets f)) (args.map (Tree.mapOffsets f)) :=
      hargs.map (kind_mapOffsets f) fun _ _ hbody ↦ hbody
    rw [Tree.mapOffsets, Tree.mapAllOffsets_eq_map, List.map_cons, List.map_cons, List.map_append]
    exact .call ((kind_mapOffsets f name).trans hname) ((kind_mapOffsets f opening).trans hopening)
      hmoved ((kind_mapOffsets f closing).trans hclosing)
  case var =>
    intro name hkind
    rw [Tree.mapOffsets]
    exact .var ((kind_mapOffsets f name).trans hkind)

theorem Definition.mapOffsets (f : Nat → Nat) (h : Definition ts tree) :
    Definition (ts.map (Token.mapOffsets f)) (tree.mapOffsets f) := by
  obtain ⟨hfirst, hname, hopening, hparams, hclosing, hbody, hlast⟩ := h
  have hmoved := Definition.define ((kind_mapOffsets f _).trans hfirst)
    ((kind_mapOffsets f _).trans hname) ((kind_mapOffsets f _).trans hopening)
    (hparams.map (kind_mapOffsets f) fun _ _ hparam ↦ hparam.mapOffsets f)
    ((kind_mapOffsets f _).trans hclosing) (hbody.mapOffsets f) ((kind_mapOffsets f _).trans hlast)
  rw [Tree.mapOffsets]
  simp only [List.map_cons, List.map_append, List.map_nil]
  exact hmoved

theorem Body.covers (h : Body ts tree) : Covers tree.span ts := by
  cases h with
  | @integer token _ => exact ⟨token, token, rfl, rfl, rfl⟩
  | @call name opening closing ts args _ _ _ _ =>
    exact ⟨name, closing, rfl, List.getLast?_eq_some_iff.2 ⟨name :: opening :: ts, rfl⟩, rfl⟩
  | @var name _ => exact ⟨name, name, rfl, rfl, rfl⟩

theorem Definition.covers (h : Definition ts tree) : Covers tree.span ts := by
  cases h with
  | @define first name opening closing last ps ts params body _ _ _ _ _ _ _ =>
    refine ⟨first, last, rfl, List.getLast?_eq_some_iff.2
      ⟨first :: name :: opening :: (ps ++ closing :: ts), ?_⟩, rfl⟩
    simp

/-- Phrases whose trees lie where their tokens do. -/
structure Located (Phrase : List Token → Tree → Prop) : Prop where
  mapOffsets : ∀ f {ts tree}, Phrase ts tree → Phrase (ts.map (Token.mapOffsets f)) (tree.mapOffsets f)
  covers : ∀ {ts tree}, Phrase ts tree → Covers tree.span ts
  unique : ∀ {ts tree tree'}, Phrase ts tree → Phrase ts tree' → tree = tree'

theorem located_body : Located Body where
  mapOffsets f _ _ h := h.mapOffsets f
  covers h := h.covers
  unique h h' := h.unique h'

theorem located_definition : Located Definition where
  mapOffsets f _ _ h := h.mapOffsets f
  covers h := h.covers
  unique h h' := (h.unique_of_prefix h' List.prefix_rfl List.prefix_rfl).2

end Moving

section Parts

variable {source : String} {Phrase : List Token → Tree → Prop} {us : List Token} {node tree : Tree}

/-- A phrase among the tokens of a source is the phrase that its slice is, moved back. -/
theorem Located.exists_moved (h : Located Phrase) (hlimit : source.utf8ByteSize ≤ Span.limit)
    (hgood : AllGood source.toList) (hus : us <:+: tokensAt 0 (pieces source.toList))
    (hphrase : Phrase us node) :
    ∃ text ts moved, Text.slice? source node.span = some text ∧ lex text = .ok ts ∧ Phrase ts moved ∧
      node.MovedBack node.span.start moved := by
  obtain ⟨before, after, hts⟩ := hus
  rw [List.append_assoc] at hts
  obtain ⟨text, hslice, hgoodText, htokens⟩ := exists_slice hgood hts.symm (h.covers hphrase)
  have hforth : (tokensAt 0 (pieces text.toList)).map (Token.mapOffsets (· + node.span.start)) = us := by
    rw [← tokensAt_add, Nat.zero_add, htokens]
  have hback : us.map (Token.mapOffsets (· - node.span.start)) = tokensAt 0 (pieces text.toList) := by
    have hid (token : Token) : (token.mapOffsets (· + node.span.start)).mapOffsets
        (· - node.span.start) = token := by
      simp [Token.mapOffsets, Span.mapOffsets]
    rw [← hforth, List.map_map]
    exact (List.map_congr_left fun token _ ↦ hid token).trans (List.map_id _)
  have hmoved := h.mapOffsets (· - node.span.start) hphrase
  rw [hback] at hmoved
  have hreturned := h.mapOffsets (· + node.span.start) hmoved
  rw [hforth] at hreturned
  have hsize := (Text.size_slice_le hslice).trans hlimit
  exact ⟨text, _, _, hslice, lex_of_allGood hsize hgoodText, hmoved, rfl, h.unique hreturned hphrase⟩

theorem Body.exists_segment_of_occurs (hoccurs : Tree.Occurs node tree) {ts : List Token}
    (h : Body ts tree) : ∃ us, us <:+: ts ∧ Body us node := by
  induction hoccurs generalizing ts with
  | self => exact ⟨ts, List.infix_rfl, h⟩
  | body _ _ => cases h
  | arg harg _ ih =>
    cases h with
    | @call name opening closing ts args _ _ hargs _ =>
      obtain ⟨us, hus, hbody⟩ := hargs.exists_segment harg
      obtain ⟨vs, hvs, hnode⟩ := ih hbody
      have hsegment : ts <:+: name :: opening :: (ts ++ [closing]) := ⟨[name, opening], [closing], rfl⟩
      exact ⟨vs, (hvs.trans hus).trans hsegment, hnode⟩

/-- Whatever occurs in a definition is the definition itself or a body. -/
theorem Definition.exists_segment_of_occurs (hoccurs : Tree.Occurs node tree) {ts : List Token}
    (h : Definition ts tree) : node = tree ∨ ∃ us, us <:+: ts ∧ Body us node := by
  cases h with
  | @define first name opening closing last ps ts params body _ _ _ _ _ hbody _ =>
    cases hoccurs with
    | self => exact .inl rfl
    | body hoccurs =>
      obtain ⟨us, hus, hnode⟩ := hbody.exists_segment_of_occurs hoccurs
      have hsegment : ts <:+: first :: name :: opening :: (ps ++ closing :: (ts ++ [last])) :=
        ⟨first :: name :: opening :: (ps ++ [closing]), [last], by simp⟩
      exact .inr ⟨us, hus.trans hsegment, hnode⟩

theorem Body.exists_token_of_mem_names {name : Ident} (h : Body us node) (hname : name ∈ node.names) :
    ∃ token ∈ us, name = ident token := by
  cases h with
  | integer _ => simp [Tree.names] at hname
  | @call token _ _ _ _ _ _ _ _ =>
    rw [Tree.names, List.mem_singleton] at hname
    exact ⟨token, by simp, hname⟩
  | @var token _ =>
    rw [Tree.names, List.mem_singleton] at hname
    exact ⟨token, by simp, hname⟩

theorem Definition.exists_token_of_mem_names {name : Ident} (h : Definition us tree)
    (hname : name ∈ tree.names) : ∃ token ∈ us, name = ident token := by
  cases h with
  | @define _ token _ _ _ ps _ params _ _ _ _ hparams _ _ _ =>
    rw [Tree.names, List.mem_cons] at hname
    rcases hname with hname | hparam
    · exact ⟨token, by simp, hname⟩
    · obtain ⟨vs, hvs, hitem⟩ := hparams.exists_segment hparam
      cases hitem with
      | @name param _ =>
        have hmem : param ∈ ps := hvs.subset (List.mem_singleton_self param)
        exact ⟨param, by simp [hmem], rfl⟩

end Parts

end Grammar

section Reading

open Grammar Pieces

/-- Every part of the tree of a source is what its own slice of the source is read as, with its start
subtracted from every offset.  Names are their slices. -/
theorem subtree_is_read_from_slice (source : String) (tree : Tree)
    (hlimit : source.utf8ByteSize ≤ Span.limit) (h : parseSource source = .ok tree) :
    (∃ text moved, Text.slice? source tree.span = some text ∧ parseSource text = .ok moved ∧
      tree.MovedBack tree.span.start moved) ∧
    (∀ node, Tree.Occurs node tree → node.shape = .call ∨ node.shape = .int →
      ∃ text ts moved, Text.slice? source node.span = some text ∧ lex text = .ok ts ∧
        Tree.parseExpression ts = .ok moved ∧ node.MovedBack node.span.start moved) ∧
    ∀ node, Tree.Occurs node tree → ∀ name ∈ node.names,
      Text.slice? source name.span = some name.text := by
  obtain ⟨hgood, front, hfront, hdefinition⟩ := exists_definition_of_parseSource h
  refine ⟨?_, fun node hoccurs hshape ↦ ?_, fun node hoccurs name hname ↦ ?_⟩
  · obtain ⟨text, ts, moved, hslice, hlex, hread, hmoved⟩ :=
      located_definition.exists_moved hlimit hgood hfront.isInfix hdefinition
    have hparse := hread.parse_of_prefix List.prefix_rfl
    exact ⟨text, moved, hslice, parseSource_eq_ok_iff.2 ⟨ts, hlex, hparse⟩, hmoved⟩
  · rcases hdefinition.exists_segment_of_occurs hoccurs with rfl | ⟨us, hus, hbody⟩
    · cases hdefinition
      simp [Tree.shape] at hshape
    · obtain ⟨text, ts, moved, hslice, hlex, hread, hmoved⟩ :=
        located_body.exists_moved hlimit hgood (hus.trans hfront.isInfix) hbody
      have hnode : moved.shape ≠ .var := by
        rw [hmoved.1, Tree.shape_mapOffsets]
        rcases hshape with hshape | hshape <;> simp [hshape]
      exact ⟨text, ts, moved, hslice, hlex, hread.parseExpression hnode, hmoved⟩
  · have htoken : ∃ token ∈ front, name = Parser.ident token := by
      rcases hdefinition.exists_segment_of_occurs hoccurs with rfl | ⟨us, hus, hbody⟩
      · exact hdefinition.exists_token_of_mem_names hname
      · obtain ⟨token, hmem, hident⟩ := hbody.exists_token_of_mem_names hname
        exact ⟨token, hus.subset hmem, hident⟩
    obtain ⟨token, hmem, rfl⟩ := htoken
    exact slice?_of_mem_tokensAt (hfront.subset hmem)

/-- In ` def f(a) g(a, 07) end` the second argument is read from `07`. -/
theorem subtree_is_read_from_slice_argument :
    let source := " def f(a) g(a, 07) end"
    let var := Tree.var ⟨"a", ⟨12, 13⟩⟩
    let arg := Tree.int "7" ⟨15, 17⟩
    let tree := Tree.define ⟨"f", ⟨5, 6⟩⟩ [⟨"a", ⟨7, 8⟩⟩]
      (.call ⟨"g", ⟨10, 11⟩⟩ [var, arg] ⟨10, 18⟩) ⟨1, 22⟩
    source.utf8ByteSize ≤ Span.limit ∧ parseSource source = .ok tree ∧
      (∃ text moved, Text.slice? source tree.span = some text ∧ parseSource text = .ok moved ∧
        tree.MovedBack tree.span.start moved) ∧
      (Tree.Occurs arg tree ∧ arg.shape = .int ∧ ∃ text ts moved,
        Text.slice? source arg.span = some text ∧ lex text = .ok ts ∧
          Tree.parseExpression ts = .ok moved ∧ arg.MovedBack arg.span.start moved) ∧
      Tree.Occurs var tree ∧ ⟨"a", ⟨12, 13⟩⟩ ∈ var.names ∧
        Text.slice? source ⟨12, 13⟩ = some "a" := by
  intro source var arg tree
  have hlimit : source.utf8ByteSize ≤ Span.limit := by decide
  have h : parseSource source = .ok tree := by decide +kernel
  have harg : Tree.Occurs arg tree := .body (.arg (by simp) (.self arg))
  have hvar : Tree.Occurs var tree := .body (.arg (by simp) (.self var))
  have hname : ⟨"a", ⟨12, 13⟩⟩ ∈ var.names := List.mem_singleton_self _
  obtain ⟨hroot, hnodes, hnames⟩ := subtree_is_read_from_slice source tree hlimit h
  exact ⟨hlimit, h, hroot, ⟨harg, rfl, hnodes arg harg (.inr rfl)⟩, hvar, hname,
    hnames var hvar _ hname⟩

end Reading

end OneDef
