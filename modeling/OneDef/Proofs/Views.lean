import OneDef.Proofs.Nesting
import OneDef.Proofs.Traversal
import OneDef.View

/-!
# The two listings of a source

The tokens of a source and the nodes of its tree are listed apart from each other, and say the same.  Every
node starts with a token of its own.  Along the tokens of a definition these come in the order in which the
nodes are listed, and what is passed over in between are the names of the parameters and punctuation.  So no
two nodes start at one place, and each integer up to the closing keyword is a node.
-/

namespace OneDef

namespace Tree

open OneDef.Parser

/-- The token that a node starts with. -/
inductive StartsWith (token : Token) : Tree → Prop where
  | define {name : Ident} {params : List Ident} {body : Tree} {span : Span}
      (hkind : token.kind = .defWord) (hstart : span.start = token.span.start) :
      StartsWith token (.define name params body span)
  | call {args : List Tree} {span : Span} (hkind : token.kind = .identifier)
      (hstart : span.start = token.span.start) : StartsWith token (.call (ident token) args span)
  | var (hkind : token.kind = .identifier) : StartsWith token (.var (ident token))
  | int (hkind : token.kind = .integer) :
      StartsWith token (.int (Numeral.canonical token.text) token.span)

theorem StartsWith.start_eq {token : Token} {node : Tree} (h : node.StartsWith token) :
    node.span.start = token.span.start := by
  cases h with
  | define _ hstart => exact hstart
  | call _ hstart => exact hstart
  | var _ => rfl
  | int _ => rfl

theorem StartsWith.kind_ne_endWord {token : Token} {node : Tree} (h : node.StartsWith token) :
    token.kind ≠ .endWord := by
  cases h with
  | define hkind _ => simp [hkind]
  | call hkind _ => simp [hkind]
  | var hkind => simp [hkind]
  | int hkind => simp [hkind]

theorem StartsWith.eq_int {token : Token} {node : Tree} (h : node.StartsWith token)
    (hkind : token.kind = .integer) : node = .int (Numeral.canonical token.text) token.span := by
  cases h with
  | define hkind' _ => simp [hkind] at hkind'
  | call hkind' _ => simp [hkind] at hkind'
  | var hkind' => simp [hkind] at hkind'
  | int _ => rfl

end Tree

namespace Grammar

open OneDef.Parser

section Headed

variable {α : Type} {nodes others : List Tree} {node tree : Tree} {token : Token} {ts us : List Token}

/-- Each of the nodes starts with a token of its own, in the order of the tokens.  Those that are passed over
are neither integers nor the end of a definition. -/
inductive Headed : List Tree → List Token → Prop where
  | nil : Headed [] []
  | skip {nodes : List Tree} {token : Token} {ts : List Token} (hinteger : token.kind ≠ .integer)
      (hend : token.kind ≠ .endWord) (h : Headed nodes ts) : Headed nodes (token :: ts)
  | cons {node : Tree} {nodes : List Tree} {token : Token} {ts : List Token}
      (hnode : node.StartsWith token) (h : Headed nodes ts) : Headed (node :: nodes) (token :: ts)

theorem Headed.append (h : Headed nodes ts) (h' : Headed others us) :
    Headed (nodes ++ others) (ts ++ us) := by
  induction h with
  | nil => exact h'
  | skip hinteger hend _ ih => exact .skip hinteger hend ih
  | cons hnode _ ih => exact .cons hnode ih

theorem Headed.after {kind : Kind} (h : Headed nodes ts) (htoken : token.kind = kind)
    (hkind : kind ≠ .integer ∧ kind ≠ .endWord) : Headed nodes (token :: ts) := by
  rw [← htoken] at hkind
  exact .skip hkind.1 hkind.2 h

theorem Others.headed {Item : List Token → α → Prop} {f : α → List Tree} {xs : List α}
    (h : Others Item ts xs) (hitems : ∀ us x, Item us x → Headed (f x) us) :
    Headed (xs.flatMap f) ts := by
  induction h with
  | nil => exact .nil
  | cons hcomma hitem _ ih => exact ((hitems _ _ hitem).append ih).after hcomma (by decide)

theorem Items.headed {Item : List Token → α → Prop} {f : α → List Tree} {xs : List α}
    (h : Items Item ts xs) (hitems : ∀ us x, Item us x → Headed (f x) us) :
    Headed (xs.flatMap f) ts := by
  cases h with
  | nil => exact .nil
  | cons hitem hothers => exact (hitems _ _ hitem).append (hothers.headed hitems)

/-- The nodes of a body start along its tokens. -/
theorem Body.headed (h : Body ts tree) : Headed tree.preorder ts := by
  apply Body.induction (motive := fun ts tree ↦ Headed tree.preorder ts) ?integer ?call ?var h
  case integer =>
    intro token hkind
    rw [Tree.preorder]
    exact .cons (.int hkind) .nil
  case call =>
    intro name opening closing ts args hname hopening hargs hclosing
    have hend : Headed [] [closing] := Headed.nil.after hclosing (by decide)
    have hclosed := (hargs.headed fun _ _ harg ↦ harg).append hend
    rw [List.append_nil] at hclosed
    rw [Tree.preorder, Tree.preorders_eq_flatMap]
    exact .cons (.call hname rfl) (hclosed.after hopening (by decide))
  case var =>
    intro name hkind
    rw [Tree.preorder]
    exact .cons (.var hkind) .nil

/-- No node starts among the names of parameters. -/
theorem Items.headed_nil {params : List Ident} (h : Items Name ts params) : Headed [] ts := by
  have hnames (us : List Token) (name : Ident) (hname : Name us name) : Headed [] us := by
    obtain ⟨hkind⟩ := hname
    exact Headed.nil.after hkind (by decide)
  have hheaded := h.headed hnames
  rwa [List.flatMap_eq_nil_iff.2 fun _ _ ↦ rfl] at hheaded

/-- The nodes of a definition start along its tokens in front of the closing keyword. -/
theorem Definition.exists_headed (h : Definition ts tree) :
    ∃ inside closing, ts = inside ++ [closing] ∧ closing.kind = .endWord ∧
      closing.span.stop = tree.span.stop ∧ Headed tree.preorder inside := by
  cases h with
  | @define first name opening closing last ps ts params body hfirst hname hopening hparams hclosing hbody
      hlast =>
    refine ⟨first :: name :: opening :: (ps ++ closing :: ts), last, by simp, hlast, rfl, ?_⟩
    rw [Tree.preorder]
    have hrest := hparams.headed_nil.append (hbody.headed.after hclosing (by decide))
    exact .cons (.define hfirst rfl) ((hrest.after hopening (by decide)).after hname (by decide))

theorem Headed.exists_token (h : Headed nodes ts) (hnode : node ∈ nodes) :
    ∃ token ∈ ts, node.StartsWith token := by
  induction h with
  | nil => cases hnode
  | skip _ _ _ ih =>
    obtain ⟨token, htoken, hstarts⟩ := ih hnode
    exact ⟨token, List.mem_cons_of_mem _ htoken, hstarts⟩
  | cons hstarts _ ih =>
    rcases List.mem_cons.1 hnode with rfl | hnode
    · exact ⟨_, List.mem_cons_self, hstarts⟩
    · obtain ⟨token, htoken, hstarts⟩ := ih hnode
      exact ⟨token, List.mem_cons_of_mem _ htoken, hstarts⟩

theorem Headed.exists_node (h : Headed nodes ts) (htoken : token ∈ ts) (hkind : token.kind = .integer) :
    ∃ node ∈ nodes, node.StartsWith token := by
  induction h with
  | nil => cases htoken
  | skip hinteger _ _ ih =>
    rcases List.mem_cons.1 htoken with rfl | htoken
    · exact absurd hkind hinteger
    · exact ih htoken
  | cons hstarts _ ih =>
    rcases List.mem_cons.1 htoken with rfl | htoken
    · exact ⟨_, List.mem_cons_self, hstarts⟩
    · obtain ⟨node, hnode, hstarts⟩ := ih htoken
      exact ⟨node, List.mem_cons_of_mem _ hnode, hstarts⟩

theorem Headed.kind_ne_endWord (h : Headed nodes ts) : ∀ token ∈ ts, token.kind ≠ .endWord := by
  induction h with
  | nil => simp
  | skip _ hend _ ih => exact List.forall_mem_cons.2 ⟨hend, ih⟩
  | cons hnode _ ih => exact List.forall_mem_cons.2 ⟨hnode.kind_ne_endWord, ih⟩

/-- Nodes start in the order of their tokens. -/
theorem Headed.pairwise_start (h : Headed nodes ts)
    (hts : ts.Pairwise fun first second ↦ first.span.start < second.span.start) :
    nodes.Pairwise fun first second ↦ first.span.start < second.span.start := by
  induction h with
  | nil => exact .nil
  | skip _ _ _ ih => exact ih (List.pairwise_cons.1 hts).2
  | cons hnode h ih =>
    obtain ⟨hfirst, hothers⟩ := List.pairwise_cons.1 hts
    refine List.pairwise_cons.2 ⟨fun other hother ↦ ?_, ih hothers⟩
    obtain ⟨token, htoken, hstarts⟩ := h.exists_token hother
    rw [hnode.start_eq, hstarts.start_eq]
    exact hfirst token htoken

end Headed

end Grammar

/-- Two spans that start at the same offset, line and column. -/
structure SpanView.SamePlace (first second : SpanView) : Prop where
  start_eq : first.start = second.start
  line_eq : first.line = second.line
  column_eq : first.column = second.column

namespace TreeView

def span : TreeView → SpanView
  | .define _ _ _ span => span
  | .call _ _ span => span
  | .var _ span => span
  | .int _ span => span

mutual

/-- All nodes of a listed tree, each in front of what is below it. -/
def preorder : TreeView → List TreeView
  | .define name params body span => .define name params body span :: body.preorder
  | .call name args span => .call name args span :: preorders args
  | .var name span => [.var name span]
  | .int value span => [.int value span]

def preorders : List TreeView → List TreeView
  | [] => []
  | view :: views => view.preorder ++ preorders views

end

/-- The entry of the token that a listed node starts with. -/
inductive StartsWith (entry : TokenView) : TreeView → Prop where
  | define {name : String} {params : List String} {body : TreeView} {span : SpanView}
      (hkind : entry.kind = .defWord) (hplace : entry.span.SamePlace span) :
      StartsWith entry (.define name params body span)
  | call {args : List TreeView} {span : SpanView} (hkind : entry.kind = .identifier)
      (hplace : entry.span.SamePlace span) : StartsWith entry (.call entry.text args span)
  | var (hkind : entry.kind = .identifier) : StartsWith entry (.var entry.text entry.span)
  | int (hkind : entry.kind = .integer) :
      StartsWith entry (.int (Numeral.canonical entry.text) entry.span)

end TreeView

namespace LineMap

variable {map : LineMap} {token : Token} {node tree : Tree}

theorem span_viewTree (map : LineMap) (tree : Tree) :
    (map.viewTree tree).span = map.viewSpan tree.span := by
  cases tree <;> rw [viewTree] <;> rfl

theorem start_viewTree (map : LineMap) (tree : Tree) :
    (map.viewTree tree).span.start = tree.span.start := by
  rw [span_viewTree]
  rfl

mutual

theorem preorder_viewTree (map : LineMap) : ∀ tree : Tree,
    (map.viewTree tree).preorder = tree.preorder.map map.viewTree
  | .define name params body span => by
    rw [viewTree, TreeView.preorder, Tree.preorder, List.map_cons, preorder_viewTree map body, viewTree]
  | .call name args span => by
    rw [viewTree, TreeView.preorder, Tree.preorder, List.map_cons, preorders_viewTrees map args, viewTree]
  | .var name => by rw [viewTree, TreeView.preorder, Tree.preorder, List.map_singleton, viewTree]
  | .int value span => by rw [viewTree, TreeView.preorder, Tree.preorder, List.map_singleton, viewTree]

theorem preorders_viewTrees (map : LineMap) : ∀ trees : List Tree,
    TreeView.preorders (map.viewTrees trees) = (Tree.preorders trees).map map.viewTree
  | [] => by rw [viewTrees, TreeView.preorders, Tree.preorders, List.map_nil]
  | tree :: trees => by
    rw [viewTrees, TreeView.preorders, Tree.preorders, List.map_append, preorder_viewTree map tree,
      preorders_viewTrees map trees]

end

theorem samePlace_viewSpan (map : LineMap) {first second : Span} (h : first.start = second.start) :
    (map.viewSpan first).SamePlace (map.viewSpan second) := by
  refine ⟨h, ?_, ?_⟩
  · exact congrArg (fun start ↦ (map.position start).line) h
  · exact congrArg (fun start ↦ (map.position start).column) h

/-- What a node starts with is listed as what it starts with. -/
theorem startsWith_view (map : LineMap) (h : node.StartsWith token) :
    (map.viewTree node).StartsWith (map.viewToken token) := by
  cases h with
  | define hkind hstart =>
    rw [viewTree]
    exact .define hkind (map.samePlace_viewSpan hstart.symm)
  | call hkind hstart =>
    rw [viewTree]
    exact .call hkind (map.samePlace_viewSpan hstart.symm)
  | var hkind =>
    rw [viewTree]
    exact .var hkind
  | int hkind =>
    rw [viewTree]
    exact .int hkind

end LineMap

section Listings

open Grammar Pieces

variable {source : String} {map : LineMap} {ts inside : List Token} {tree : Tree}

theorem Span.InOrder.pairwise_start {spans : List Span} (h : InOrder spans) :
    spans.Pairwise fun first second ↦ first.start < second.start := by
  apply h.before.imp_of_mem
  intro first second hfirst _ hbefore
  exact Nat.lt_of_lt_of_le (h.nonempty first hfirst) hbefore

theorem pairwise_start_of_lex (h : lex source = .ok ts) :
    ts.Pairwise fun first second ↦ first.span.start < second.span.start := by
  obtain ⟨-, rfl⟩ := eq_tokensAt_of_lex h
  have horder := (inOrder_tokensAt 0 (pieces source.toList)).pairwise_start
  rwa [List.pairwise_map] at horder

theorem exists_headed_of_parse (h : Tree.parse ts = .ok tree) :
    ∃ inside closing behind, ts = inside ++ closing :: behind ∧ closing.kind = .endWord ∧
      closing.span.stop = tree.span.stop ∧ Headed tree.preorder inside := by
  obtain ⟨front, ⟨behind, rfl⟩, hdefinition⟩ := exists_definition_of_parse h
  obtain ⟨inside, closing, rfl, hclosing⟩ := hdefinition.exists_headed
  exact ⟨inside, closing, behind, List.append_assoc .., hclosing⟩

/-- In a list that increases by a key, no other element has the key of a given one. -/
theorem filter_eq_singleton {α : Type} {key : α → Nat} {xs : List α} {x : α}
    (h : xs.Pairwise fun first second ↦ key first < key second) (hx : x ∈ xs) :
    xs.filter (fun other ↦ key other = key x) = [x] := by
  induction h with
  | nil => cases hx
  | @cons first others hfirst _ ih =>
    rcases List.mem_cons.1 hx with rfl | hx
    · have hnone : others.filter (fun other ↦ key other = key x) = [] := by
        apply List.filter_eq_nil_iff.2
        intro other hother
        simpa using (hfirst other hother).ne'
      rw [List.filter_cons_of_pos (by simp), hnone]
    · rw [List.filter_cons_of_neg (by simpa using (hfirst x hx).ne), ih hx]

theorem Grammar.Headed.pairwise_start_view (h : Headed tree.preorder inside)
    (hinside : inside.Pairwise fun first second ↦ first.span.start < second.span.start) :
    (map.viewTree tree).preorder.Pairwise fun first second ↦ first.span.start < second.span.start := by
  rw [map.preorder_viewTree, List.pairwise_map]
  simpa only [map.start_viewTree] using h.pairwise_start hinside

/-- Exactly one entry starts where a node does, and it is that of the token which the node starts with. -/
theorem Grammar.Headed.exists_entry (h : Headed tree.preorder inside) (hinside : inside ⊆ ts)
    (hts : ts.Pairwise fun first second ↦ first.span.start < second.span.start) :
    ∀ node ∈ (map.viewTree tree).preorder, ∃ entry,
      (ts.map map.viewToken).filter (fun other ↦ other.span.start = node.span.start) = [entry] ∧
        node.StartsWith entry := by
  rw [map.preorder_viewTree]
  intro view hview
  obtain ⟨node, hnode, rfl⟩ := List.mem_map.1 hview
  obtain ⟨token, htoken, hstarts⟩ := h.exists_token hnode
  have hmem : map.viewToken token ∈ ts.map map.viewToken := List.mem_map_of_mem (hinside htoken)
  have hentries : (ts.map map.viewToken).Pairwise fun first second ↦ first.span.start < second.span.start :=
    List.pairwise_map.2 hts
  refine ⟨map.viewToken token, ?_, map.startsWith_view hstarts⟩
  rw [map.start_viewTree, hstarts.start_eq]
  exact filter_eq_singleton hentries hmem

/-- Exactly one node starts where an integer does, and it is that integer. -/
theorem Grammar.Headed.filter_of_integer (h : Headed tree.preorder inside)
    (hinside : inside.Pairwise fun first second ↦ first.span.start < second.span.start) :
    ∀ entry ∈ inside.map map.viewToken, entry.kind = .integer →
      (map.viewTree tree).preorder.filter (fun node ↦ node.span.start = entry.span.start) =
        [.int (Numeral.canonical entry.text) entry.span] := by
  intro entry hentry hkind
  obtain ⟨token, htoken, rfl⟩ := List.mem_map.1 hentry
  obtain ⟨node, hnode, hstarts⟩ := h.exists_node htoken hkind
  obtain rfl := hstarts.eq_int hkind
  have hmem := List.mem_map_of_mem hnode (f := map.viewTree)
  rw [← map.preorder_viewTree, LineMap.viewTree] at hmem
  exact filter_eq_singleton (h.pairwise_start_view hinside) hmem

/-- The nodes of a source start one behind the other, each at exactly one token, which is listed at the same
place and says the same of it.  The first `end` closes the definition, and every integer in front of it is
exactly one node. -/
theorem listings_agree (source : String) (ts : List Token) (tree : Tree) (hlex : lex source = .ok ts)
    (hparse : Tree.parse ts = .ok tree) :
    let map := LineMap.ofSource source
    let nodes := (map.viewTree tree).preorder
    let entries := ts.map map.viewToken
    (nodes.Pairwise fun first second ↦ first.span.start < second.span.start) ∧
    (∀ node ∈ nodes, ∃ entry, entries.filter (fun other ↦ other.span.start = node.span.start) = [entry] ∧
      node.StartsWith entry) ∧
    (∃ closing, entries.find? (fun entry ↦ entry.kind = .endWord) = some closing ∧
      closing.span.stop = (map.viewTree tree).span.stop) ∧
    ∀ entry ∈ entries.takeWhile (fun entry ↦ entry.kind ≠ .endWord), entry.kind = .integer →
      nodes.filter (fun node ↦ node.span.start = entry.span.start) =
        [.int (Numeral.canonical entry.text) entry.span] := by
  intro map nodes entries
  obtain ⟨inside, closing, behind, rfl, hclosing, hstop, hheaded⟩ := exists_headed_of_parse hparse
  have hts := pairwise_start_of_lex hlex
  have hinside := (List.pairwise_append.1 hts).1
  have hentries : entries = inside.map map.viewToken ++ map.viewToken closing :: behind.map map.viewToken :=
    List.map_append
  have hend : (map.viewToken closing).kind = .endWord := hclosing
  have hbefore : ∀ entry ∈ inside.map map.viewToken, entry.kind ≠ .endWord := by
    intro entry hentry
    obtain ⟨token, htoken, rfl⟩ := List.mem_map.1 hentry
    exact hheaded.kind_ne_endWord token htoken
  refine ⟨hheaded.pairwise_start_view hinside, hheaded.exists_entry (List.subset_append_left _ _) hts,
    ⟨map.viewToken closing, ?_, ?_⟩, ?_⟩
  · exact List.find?_eq_some_iff_append.2 ⟨decide_eq_true hend, _, _, hentries, by simpa using hbefore⟩
  · rw [map.span_viewTree]
    exact hstop
  · rw [hentries, List.takeWhile_append_of_pos (by simpa using hbefore),
      List.takeWhile_cons_of_neg (by simp [hend]), List.append_nil]
    exact hheaded.filter_of_integer hinside

/-- In `def f(a)`, ` g(a, 07)` and `end 5` on three lines, the call starts with `g` and the first integer is a
node.  The second one stands behind the definition. -/
theorem listings_agree_trailing_integer :
    let source := "def f(a)\n g(a, 07)\nend 5"
    let ts : List Token := [⟨.defWord, "def", ⟨0, 3⟩⟩, ⟨.identifier, "f", ⟨4, 5⟩⟩,
      ⟨.openParen, "(", ⟨5, 6⟩⟩, ⟨.identifier, "a", ⟨6, 7⟩⟩, ⟨.closeParen, ")", ⟨7, 8⟩⟩,
      ⟨.identifier, "g", ⟨10, 11⟩⟩, ⟨.openParen, "(", ⟨11, 12⟩⟩, ⟨.identifier, "a", ⟨12, 13⟩⟩,
      ⟨.comma, ",", ⟨13, 14⟩⟩, ⟨.integer, "07", ⟨15, 17⟩⟩, ⟨.closeParen, ")", ⟨17, 18⟩⟩,
      ⟨.endWord, "end", ⟨19, 22⟩⟩, ⟨.integer, "5", ⟨23, 24⟩⟩]
    let call := Tree.call ⟨"g", ⟨10, 11⟩⟩ [.var ⟨"a", ⟨12, 13⟩⟩, .int "7" ⟨15, 17⟩] ⟨10, 18⟩
    let tree := Tree.define ⟨"f", ⟨4, 5⟩⟩ [⟨"a", ⟨6, 7⟩⟩] call ⟨0, 22⟩
    let map := LineMap.ofSource source
    let nodes := (map.viewTree tree).preorder
    let entries := ts.map map.viewToken
    let integer : TokenView := ⟨.integer, "07", ⟨15, 17, 2, 7⟩⟩
    lex source = .ok ts ∧ Tree.parse ts = .ok tree ∧
      (nodes.Pairwise fun first second ↦ first.span.start < second.span.start) ∧
      (map.viewTree call ∈ nodes ∧ ∃ entry,
        entries.filter (fun other ↦ other.span.start = (map.viewTree call).span.start) = [entry] ∧
          (map.viewTree call).StartsWith entry) ∧
      (∃ closing, entries.find? (fun entry ↦ entry.kind = .endWord) = some closing ∧
        closing.span.stop = (map.viewTree tree).span.stop) ∧
      integer ∈ entries.takeWhile (fun entry ↦ entry.kind ≠ .endWord) ∧
        nodes.filter (fun node ↦ node.span.start = integer.span.start) = [.int "7" ⟨15, 17, 2, 7⟩] := by
  intro source ts call tree map nodes entries integer
  have hlex : lex source = .ok ts := by decide +kernel
  have hparse : Tree.parse ts = .ok tree := by decide +kernel
  have hcall : map.viewTree call ∈ nodes := by
    change _ ∈ (map.viewTree tree).preorder
    rw [map.preorder_viewTree]
    exact List.mem_map_of_mem (Tree.mem_preorder_iff.2 (.body (.self call)))
  have hinteger : integer ∈ entries.takeWhile (fun entry ↦ entry.kind ≠ .endWord) := by decide +kernel
  obtain ⟨horder, hnodes, hclosing, hintegers⟩ := listings_agree source ts tree hlex hparse
  have hnode := hintegers integer hinteger rfl
  rw [show Numeral.canonical integer.text = "7" by decide +kernel] at hnode
  exact ⟨hlex, hparse, horder, ⟨hcall, hnodes _ hcall⟩, hclosing, hinteger, hnode⟩

end Listings

end OneDef
