import OneDef.Proofs.ErrorPlaces

/-!
# Nested spans

The tokens of a source lie in order: no span is empty, and none reaches into the next one.  The parts
of a node are found one behind the other along the tokens of the node, and each of them covers the tokens
that it is derived from.  So parts lie in order too, and inside the span of the node.

How far inside depends on the node.  A definition has a keyword on either side of its parts.  A call starts
with its name, and only its end has a token of its own.
-/

namespace OneDef

/-- Spans that are not empty, each of which ends where the next one starts or before. -/
structure Span.InOrder (spans : List Span) : Prop where
  nonempty : ∀ span ∈ spans, span.start < span.stop
  before : spans.Pairwise fun first second ↦ first.stop ≤ second.start

/-- The spans of the names and subtrees at the root of a tree, from left to right. -/
def Tree.partSpans : Tree → List Span
  | .define name params body _ => name.span :: (params.map Ident.span ++ [body.span])
  | .call name args _ => name.span :: args.map span
  | .var name => [name.span]
  | .int _ _ => []

/-- How the span of a node and the spans of its parts lie in a source. -/
structure Tree.Nested (source : String) (node : Tree) : Prop where
  nonempty : node.span.start < node.span.stop
  stop_le_size : node.span.stop ≤ source.utf8ByteSize
  parts_inOrder : Span.InOrder node.partSpans
  parts_within : ∀ part ∈ node.partSpans, node.span.start ≤ part.start ∧ part.stop ≤ node.span.stop
  parts_of_define : node.shape = .define →
    ∀ part ∈ node.partSpans, node.span.start < part.start ∧ part.stop < node.span.stop
  start_of_call : node.shape = .call → ∀ name ∈ node.names, node.span.start = name.span.start
  parts_of_call : node.shape = .call → ∀ part ∈ node.partSpans, part.stop < node.span.stop

namespace Span.InOrder

variable {span : Span} {spans others : List Span}

theorem of_infix (h : InOrder spans) (hothers : others <:+: spans) : InOrder others where
  nonempty := fun span hspan ↦ h.nonempty span (hothers.subset hspan)
  before := h.before.sublist hothers.sublist

theorem le_of_append (h : InOrder (spans ++ others)) :
    ∀ first ∈ spans, ∀ second ∈ others, first.stop ≤ second.start :=
  (List.pairwise_append.1 h.before).2.2

theorem cons (h : InOrder spans) (hspan : span.start < span.stop)
    (hbefore : ∀ other ∈ spans, span.stop ≤ other.start) : InOrder (span :: spans) where
  nonempty := List.forall_mem_cons.2 ⟨hspan, h.nonempty⟩
  before := List.pairwise_cons.2 ⟨hbefore, h.before⟩

end Span.InOrder

namespace Pieces

variable {offset : Nat} {token : Token} {piece : List Char} {ps : List (List Char)}

theorem start_lt_stop_of_tokenAt (h : tokenAt offset piece = some token) :
    token.span.start < token.span.stop := by
  obtain ⟨kind, hkind, -⟩ := Option.map_eq_some_iff.1 h
  have hlength := List.length_pos_iff.2 (fits_of_kind? hkind).isPiece.ne_nil
  have hsize := Text.length_le_size piece
  rw [(tokenAt_eq_some h).2]
  change offset < offset + Text.size piece
  omega

theorem le_start_of_mem_tokensAt (h : token ∈ tokensAt offset ps) : offset ≤ token.span.start := by
  obtain ⟨us, vs, hts⟩ := List.append_of_mem h
  obtain ⟨qs, piece, rs, -, -, htoken, -⟩ := hasPiece_of_tokensAt hts
  rw [(tokenAt_eq_some htoken).2]
  exact Nat.le_add_right _ _

/-- Tokens of pieces lie in order, because the pieces do. -/
theorem inOrder_tokensAt (offset : Nat) (ps : List (List Char)) :
    Span.InOrder ((tokensAt offset ps).map Token.span) := by
  induction ps generalizing offset with
  | nil => exact ⟨by simp [tokensAt], .nil⟩
  | cons piece ps ih =>
    have hothers := ih (offset + Text.size piece)
    rw [tokensAt]
    cases hpiece : tokenAt offset piece with
    | none => exact hothers
    | some token =>
      apply hothers.cons (start_lt_stop_of_tokenAt hpiece)
      intro other hother
      obtain ⟨next, hnext, rfl⟩ := List.mem_map.1 hother
      rw [(tokenAt_eq_some hpiece).2]
      exact le_start_of_mem_tokensAt hnext

/-- The span of some tokens reaches over all of them. -/
theorem Covers.start_le_and_le_stop {span : Span} {us : List Token} (h : Covers span us)
    (hus : Span.InOrder (us.map Token.span)) :
    ∀ token ∈ us, span.start ≤ token.span.start ∧ token.span.stop ≤ span.stop := by
  obtain ⟨first, last, hfirst, hlast, rfl⟩ := h
  intro token htoken
  have hnonempty := hus.nonempty token.span (List.mem_map_of_mem htoken)
  constructor
  · -- the token is the first one or comes behind it
    obtain ⟨others, rfl⟩ := List.head?_eq_some_iff.1 hfirst
    rcases List.mem_cons.1 htoken with rfl | hothers
    · exact Nat.le_refl _
    · have hbefore := (List.pairwise_cons.1 hus.before).1 token.span (List.mem_map_of_mem hothers)
      have hstart := hus.nonempty first.span (by simp)
      change first.span.start ≤ token.span.start
      omega
  · obtain ⟨others, rfl⟩ := List.getLast?_eq_some_iff.1 hlast
    rcases List.mem_append.1 htoken with hothers | hlast
    · rw [List.map_append] at hus
      have hbefore := hus.le_of_append token.span (List.mem_map_of_mem hothers) last.span (by simp)
      have hstop := hus.nonempty last.span (by simp)
      change token.span.stop ≤ last.span.stop
      omega
    · obtain rfl := List.mem_singleton.1 hlast
      exact Nat.le_refl _

theorem Covers.exists_mem {span : Span} {us : List Token} (h : Covers span us) :
    ∃ first ∈ us, ∃ last ∈ us, span = first.span.join last.span := by
  obtain ⟨first, last, hfirst, hlast, hspan⟩ := h
  exact ⟨first, List.mem_of_mem_head? hfirst, last, List.mem_of_mem_getLast? hlast, hspan⟩

theorem Covers.start_lt_stop {span : Span} {us : List Token} (h : Covers span us)
    (hus : Span.InOrder (us.map Token.span)) : span.start < span.stop := by
  obtain ⟨first, hfirst, -⟩ := h.exists_mem
  have hreach := h.start_le_and_le_stop hus first hfirst
  have hnonempty := hus.nonempty first.span (List.mem_map_of_mem hfirst)
  omega

theorem covers_singleton (token : Token) : Covers token.span [token] := ⟨token, token, rfl, rfl, rfl⟩

end Pieces

namespace Grammar

open OneDef.Parser Pieces

section Along

/-- Spans that cover tokens of a list, the next one always behind the one before it. -/
inductive Along : List Token → List Span → Prop where
  | nil (ts : List Token) : Along ts []
  | skip (token : Token) {ts : List Token} {spans : List Span} (h : Along ts spans) :
      Along (token :: ts) spans
  | cons {span : Span} {us vs : List Token} {spans : List Span} (hspan : Covers span us)
      (h : Along vs spans) : Along (us ++ vs) (span :: spans)

variable {α : Type} {Item : List Token → α → Prop} {spanOf : α → Span} {ts us : List Token}
  {spans spans' : List Span} {part : Span} {first last : Token}

theorem Along.skips (h : Along us spans) (ts : List Token) : Along (ts ++ us) spans := by
  induction ts with
  | nil => exact h
  | cons token ts ih => exact ih.skip token

theorem Along.append (h : Along ts spans) (h' : Along us spans') :
    Along (ts ++ us) (spans ++ spans') := by
  induction h with
  | nil ts => exact h'.skips ts
  | skip token _ ih => exact ih.skip token
  | cons hspan _ ih =>
    rw [List.append_assoc]
    exact ih.cons hspan

theorem Along.behind (h : Along ts spans) (us : List Token) : Along (ts ++ us) spans := by
  have halong := h.append (.nil us)
  rwa [List.append_nil] at halong

theorem along_of_covers (h : Covers part ts) : Along ts [part] := by
  have halong := (Along.nil []).cons h
  rwa [List.append_nil] at halong

theorem Others.along {xs : List α} (h : Others Item ts xs)
    (hcovers : ∀ us x, Item us x → Covers (spanOf x) us) : Along ts (xs.map spanOf) := by
  induction h with
  | nil => exact .nil []
  | @cons comma _ _ _ _ _ hitem _ ih => exact .skip comma (ih.cons (hcovers _ _ hitem))

theorem Items.along {xs : List α} (h : Items Item ts xs)
    (hcovers : ∀ us x, Item us x → Covers (spanOf x) us) : Along ts (xs.map spanOf) := by
  cases h with
  | nil => exact .nil []
  | cons hitem hothers => exact (hothers.along hcovers).cons (hcovers _ _ hitem)

theorem Along.exists_mem (h : Along ts spans) (hpart : part ∈ spans) :
    ∃ first ∈ ts, ∃ last ∈ ts, part = first.span.join last.span := by
  induction h with
  | nil => simp at hpart
  | skip token _ ih =>
    obtain ⟨first, hfirst, last, hlast, hspan⟩ := ih hpart
    exact ⟨first, List.mem_cons_of_mem _ hfirst, last, List.mem_cons_of_mem _ hlast, hspan⟩
  | cons hspan _ ih =>
    rcases List.mem_cons.1 hpart with rfl | hpart
    · obtain ⟨first, hfirst, last, hlast, hspan⟩ := hspan.exists_mem
      exact ⟨first, List.mem_append_left _ hfirst, last, List.mem_append_left _ hlast, hspan⟩
    · obtain ⟨first, hfirst, last, hlast, hspan⟩ := ih hpart
      exact ⟨first, List.mem_append_right _ hfirst, last, List.mem_append_right _ hlast, hspan⟩

/-- What lies along tokens in order is in order. -/
theorem Along.inOrder (h : Along ts spans) (hts : Span.InOrder (ts.map Token.span)) :
    Span.InOrder spans := by
  induction h with
  | nil => exact ⟨by simp, .nil⟩
  | skip token _ ih => exact ih (hts.of_infix (List.suffix_cons _ _).isInfix)
  | @cons span us vs spans hspan h ih =>
    rw [List.map_append] at hts
    have hus := hts.of_infix (List.prefix_append _ _).isInfix
    have hvs := hts.of_infix (List.suffix_append _ _).isInfix
    apply (ih hvs).cons (hspan.start_lt_stop hus)
    -- the span ends with a token of the first part, and any other starts with one of the second
    intro other hother
    obtain ⟨-, -, last, hlast, rfl⟩ := hspan.exists_mem
    obtain ⟨first, hfirst, -, -, rfl⟩ := h.exists_mem hother
    exact hts.le_of_append last.span (List.mem_map_of_mem hlast) first.span (List.mem_map_of_mem hfirst)

theorem Along.within (h : Along ts spans) {span : Span} (hspan : Covers span ts)
    (hts : Span.InOrder (ts.map Token.span)) :
    ∀ part ∈ spans, span.start ≤ part.start ∧ part.stop ≤ span.stop := by
  intro part hpart
  obtain ⟨first, hfirst, last, hlast, rfl⟩ := h.exists_mem hpart
  exact ⟨(hspan.start_le_and_le_stop hts first hfirst).1, (hspan.start_le_and_le_stop hts last hlast).2⟩

theorem Along.lt_start (h : Along ts spans) (hts : Span.InOrder ((first :: ts).map Token.span)) :
    ∀ part ∈ spans, first.span.start < part.start := by
  intro part hpart
  obtain ⟨token, htoken, -, -, rfl⟩ := h.exists_mem hpart
  have hnonempty := hts.nonempty first.span (by simp)
  have hbefore := (List.pairwise_cons.1 hts.before).1 token.span (List.mem_map_of_mem htoken)
  exact Nat.lt_of_lt_of_le hnonempty hbefore

theorem Along.stop_lt (h : Along ts spans) (hts : Span.InOrder ((ts ++ [last]).map Token.span)) :
    ∀ part ∈ spans, part.stop < last.span.stop := by
  intro part hpart
  obtain ⟨-, -, token, htoken, rfl⟩ := h.exists_mem hpart
  rw [List.map_append] at hts
  have hnonempty := hts.nonempty last.span (by simp)
  have hbefore := hts.le_of_append token.span (List.mem_map_of_mem htoken) last.span (by simp)
  exact Nat.lt_of_le_of_lt hbefore hnonempty

end Along

section Nodes

variable {source : String} {ts : List Token} {node tree : Tree}

theorem nested_of_along (hcovers : Covers node.span ts) (hparts : Along ts node.partSpans)
    (hts : Span.InOrder (ts.map Token.span))
    (hsize : ∀ token ∈ ts, token.span.stop ≤ source.utf8ByteSize)
    (hdefine : node.shape = .define →
      ∀ part ∈ node.partSpans, node.span.start < part.start ∧ part.stop < node.span.stop)
    (hname : node.shape = .call → ∀ name ∈ node.names, node.span.start = name.span.start)
    (hcall : node.shape = .call → ∀ part ∈ node.partSpans, part.stop < node.span.stop) :
    node.Nested source where
  nonempty := hcovers.start_lt_stop hts
  stop_le_size := by
    obtain ⟨_, _, last, hlast, hspan⟩ := hcovers.exists_mem
    rw [hspan]
    exact hsize last hlast
  parts_inOrder := hparts.inOrder hts
  parts_within := hparts.within hcovers hts
  parts_of_define := hdefine
  start_of_call := hname
  parts_of_call := hcall

/-- The parts of a call are its name and its arguments, all in front of the closing parenthesis. -/
theorem along_call {args : List Tree} (name opening : Token) (hargs : Items Body ts args) :
    Along (name :: opening :: ts) (name.span :: args.map Tree.span) :=
  (Along.skip opening (hargs.along fun _ _ hbody ↦ hbody.covers)).cons (covers_singleton name)

/-- The parts of a definition stand between its two keywords. -/
theorem along_definition {ps : List Token} {params : List Ident} {body : Tree}
    (name opening closing : Token) (hparams : Items Name ps params) (hbody : Body ts body) :
    Along (name :: opening :: (ps ++ closing :: ts))
      (name.span :: (params.map Ident.span ++ [body.span])) := by
  have hnames : Along ps (params.map Ident.span) := by
    apply hparams.along
    rintro _ _ ⟨-⟩
    exact covers_singleton _
  have hrest := hnames.append ((along_of_covers hbody.covers).skip closing)
  exact (Along.skip opening hrest).cons (covers_singleton name)

theorem Body.nested (h : Body ts node) (hts : Span.InOrder (ts.map Token.span))
    (hsize : ∀ token ∈ ts, token.span.stop ≤ source.utf8ByteSize) : node.Nested source := by
  have hcovers := h.covers
  cases h with
  | @integer token _ =>
    apply nested_of_along hcovers (.nil [token]) hts hsize <;> simp [Tree.shape]
  | @call name opening closing ts args _ _ hargs _ =>
    have hparts := along_call name opening hargs
    apply nested_of_along hcovers (hparts.behind [closing]) hts hsize
    · simp [Tree.shape]
    · intro _ found hfound
      obtain rfl := List.mem_singleton.1 hfound
      rfl
    · intro _
      exact hparts.stop_lt hts
  | @var name _ =>
    apply nested_of_along hcovers (along_of_covers (covers_singleton name)) hts hsize <;>
      simp [Tree.shape]

theorem Definition.nested (h : Definition ts tree) (hts : Span.InOrder (ts.map Token.span))
    (hsize : ∀ token ∈ ts, token.span.stop ≤ source.utf8ByteSize) : tree.Nested source := by
  have hcovers := h.covers
  cases h with
  | @define first name opening closing last ps ts params body _ _ _ hparams _ hbody _ =>
    have hparts := along_definition name opening closing hparams hbody
    have htokens : first :: name :: opening :: (ps ++ closing :: (ts ++ [last])) =
        [first] ++ (name :: opening :: (ps ++ closing :: ts) ++ [last]) := by simp
    rw [htokens] at hts hsize hcovers
    apply nested_of_along hcovers ((hparts.behind [last]).skips [first]) hts hsize
    · intro _ part hpart
      exact ⟨(hparts.behind [last]).lt_start hts part hpart,
        hparts.stop_lt (hts.of_infix (List.suffix_cons _ _).isInfix) part hpart⟩
    · simp [Tree.shape]
    · simp [Tree.shape]

end Nodes

end Grammar

open Grammar Pieces

/-- The spans of the tokens of a source lie in order.  Every node of its tree has a span that is not empty,
in which the spans of its parts lie in order: in a definition strictly inside, in a call from the start of
the name to somewhere behind the last argument. -/
theorem spans_are_nested (source : String) (ts : List Token) (tree : Tree) (hlex : lex source = .ok ts)
    (hparse : Tree.parse ts = .ok tree) :
    (∀ node, Tree.Occurs node tree → node.Nested source) ∧ Span.InOrder (ts.map Token.span) ∧
      ∀ token ∈ ts, token.span.stop ≤ source.utf8ByteSize := by
  obtain ⟨-, hts⟩ := eq_tokensAt_of_lex hlex
  have horder : Span.InOrder (ts.map Token.span) := by
    rw [hts]
    exact inOrder_tokensAt 0 _
  have hsize : ∀ token ∈ ts, token.span.stop ≤ source.utf8ByteSize := by
    intro token htoken
    rw [hts] at htoken
    exact (Span.within_of_slice? (slice?_of_mem_tokensAt htoken)).stop_le_size
  refine ⟨fun node hoccurs ↦ ?_, horder, hsize⟩
  obtain ⟨front, hfront, hdefinition⟩ := exists_definition_of_parse hparse
  -- a node is the definition or a body, and either is derived from tokens that follow one another
  rcases hdefinition.exists_segment_of_occurs hoccurs with rfl | ⟨us, hus, hbody⟩
  · exact hdefinition.nested (horder.of_infix (hfront.isInfix.map _))
      fun token htoken ↦ hsize token (hfront.subset htoken)
  · have hsegment := hus.trans hfront.isInfix
    exact hbody.nested (horder.of_infix (hsegment.map _))
      fun token htoken ↦ hsize token (hsegment.subset htoken)

/-- In ` def f(a) g(a, 07) end` the call reaches from its name to its parenthesis, behind both arguments. -/
theorem spans_are_nested_call :
    let source := " def f(a) g(a, 07) end"
    let ts : List Token := [⟨.defWord, "def", ⟨1, 4⟩⟩, ⟨.identifier, "f", ⟨5, 6⟩⟩,
      ⟨.openParen, "(", ⟨6, 7⟩⟩, ⟨.identifier, "a", ⟨7, 8⟩⟩, ⟨.closeParen, ")", ⟨8, 9⟩⟩,
      ⟨.identifier, "g", ⟨10, 11⟩⟩, ⟨.openParen, "(", ⟨11, 12⟩⟩, ⟨.identifier, "a", ⟨12, 13⟩⟩,
      ⟨.comma, ",", ⟨13, 14⟩⟩, ⟨.integer, "07", ⟨15, 17⟩⟩, ⟨.closeParen, ")", ⟨17, 18⟩⟩,
      ⟨.endWord, "end", ⟨19, 22⟩⟩]
    let call := Tree.call ⟨"g", ⟨10, 11⟩⟩ [.var ⟨"a", ⟨12, 13⟩⟩, .int "7" ⟨15, 17⟩] ⟨10, 18⟩
    let tree := Tree.define ⟨"f", ⟨5, 6⟩⟩ [⟨"a", ⟨7, 8⟩⟩] call ⟨1, 22⟩
    lex source = .ok ts ∧ Tree.parse ts = .ok tree ∧ Tree.Occurs call tree ∧ tree.Nested source ∧
      call.Nested source ∧ Span.InOrder (ts.map Token.span) ∧
      ∀ token ∈ ts, token.span.stop ≤ source.utf8ByteSize := by
  intro source ts call tree
  have hlex : lex source = .ok ts := by decide +kernel
  have hparse : Tree.parse ts = .ok tree := by decide +kernel
  have hcall : Tree.Occurs call tree := .body (.self call)
  obtain ⟨hnodes, horder, hsize⟩ := spans_are_nested source ts tree hlex hparse
  exact ⟨hlex, hparse, hcall, hnodes tree (.self tree), hnodes call hcall, horder, hsize⟩

end OneDef
