import OneDef.Proofs.Subtrees

/-!
# Trees node by node

The nodes of a tree are listed with each node in front of its children, and the children from left to right.
What occurs in a tree is what is listed.

Generating goes through the nodes in this order and stops at the first definition that is not the root.  So
it fails exactly on the trees that have one, and reports the one that is listed first.
-/

namespace OneDef.Tree

variable {node tree : Tree}

def children : Tree → List Tree
  | .define _ _ body _ => [body]
  | .call _ args _ => args
  | .var _ => []
  | .int _ _ => []

mutual

/-- All nodes, each in front of what is below it. -/
def preorder : Tree → List Tree
  | .define name params body span => .define name params body span :: body.preorder
  | .call name args span => .call name args span :: preorders args
  | .var name => [.var name]
  | .int value span => [.int value span]

def preorders : List Tree → List Tree
  | [] => []
  | tree :: trees => tree.preorder ++ preorders trees

end

/-- The nodes below the root, in the same order. -/
def descendants (tree : Tree) : List Tree := preorders tree.children

/-- The first tree occurs in the second, and not as its root. -/
def OccursBelow (node tree : Tree) : Prop := ∃ child ∈ tree.children, Occurs node child

def isDefine (tree : Tree) : Bool := tree.shape = .define

theorem preorders_eq_flatMap (trees : List Tree) : preorders trees = trees.flatMap preorder := by
  induction trees with
  | nil => rfl
  | cons tree trees ih => rw [preorders, ih, List.flatMap_cons]

theorem preorder_eq_cons (tree : Tree) : tree.preorder = tree :: tree.descendants := by
  cases tree with
  | define name params body span => simp only [preorder, descendants, children, preorders, List.append_nil]
  | call name args span => rw [preorder, descendants, children]
  | var name => rw [preorder, descendants, children, preorders]
  | int value span => rw [preorder, descendants, children, preorders]

/-- Induction on a tree from its children. -/
@[elab_as_elim]
theorem children_induction {motive : Tree → Prop}
    (step : ∀ tree, (∀ child ∈ tree.children, motive child) → motive tree) (tree : Tree) :
    motive tree :=
  @Tree.rec motive (fun trees ↦ ∀ child ∈ trees, motive child)
    (fun _ _ _ _ hbody ↦ step _ (List.forall_mem_singleton.2 hbody)) (fun _ _ _ hargs ↦ step _ hargs)
    (fun _ ↦ step _ (List.forall_mem_nil _)) (fun _ _ ↦ step _ (List.forall_mem_nil _))
    (List.forall_mem_nil _) (fun _ _ htree htrees ↦ List.forall_mem_cons.2 ⟨htree, htrees⟩) tree

theorem occurs_iff : Occurs node tree ↔ node = tree ∨ OccursBelow node tree := by
  constructor
  · intro h
    cases h with
    | self => exact .inl rfl
    | body h => exact .inr ⟨_, List.mem_singleton_self _, h⟩
    | arg harg h => exact .inr ⟨_, harg, h⟩
  · rintro (rfl | ⟨child, hchild, h⟩)
    · exact .self node
    · cases tree with
      | define name params body span =>
        obtain rfl := List.mem_singleton.1 hchild
        exact .body h
      | call name args span => exact .arg hchild h
      | var name => cases hchild
      | int value span => cases hchild

theorem mem_preorder_iff : node ∈ tree.preorder ↔ Occurs node tree := by
  induction tree using children_induction with
  | step tree ih =>
    rw [preorder_eq_cons, List.mem_cons, occurs_iff, descendants, preorders_eq_flatMap, List.mem_flatMap]
    exact or_congr_right (exists_congr fun child ↦ and_congr_right fun hchild ↦ ih child hchild)

theorem mem_descendants_iff : node ∈ tree.descendants ↔ OccursBelow node tree := by
  rw [descendants, preorders_eq_flatMap, List.mem_flatMap]
  exact exists_congr fun child ↦ and_congr_right fun _ ↦ mem_preorder_iff

section Generating

variable {α β : Type} {nodes others : List Tree}

/-- Some nodes are gone through: the first definition among them is the error, and without one there is
none. -/
inductive Reports (nodes : List Tree) : Except GenerateError α → Prop where
  | nothing {x : α} (h : nodes.find? isDefine = none) : Reports nodes (.ok x)
  | first {node : Tree} (h : nodes.find? isDefine = some node) :
      Reports nodes (.error (.unexpectedNode .define node.span))

theorem Reports.of_find?_eq {result : Except GenerateError α} (h : Reports others result)
    (heq : nodes.find? isDefine = others.find? isDefine) : Reports nodes result := by
  cases h with
  | nothing h => exact .nothing (heq.trans h)
  | first h => exact .first (heq.trans h)

theorem Reports.bind {result : Except GenerateError α} {next : α → Except GenerateError β}
    (h : Reports nodes result) (hnext : ∀ x, Reports others (next x)) :
    Reports (nodes ++ others) (result >>= next) := by
  cases h with
  | @nothing x h =>
    apply (hnext x).of_find?_eq
    rw [List.find?_append, h, Option.none_or]
  | first h =>
    apply Reports.first
    rw [List.find?_append, h, Option.some_or]

theorem Reports.map {result : Except GenerateError α} (h : Reports nodes result) (f : α → β) :
    Reports nodes (result >>= fun x ↦ .ok (f x)) := by
  have hnothing (x : α) : Reports [] (Except.ok (f x)) := .nothing rfl
  have hbind := h.bind hnothing
  rwa [List.append_nil] at hbind

theorem Reports.cons {result : Except GenerateError α} (h : Reports nodes result)
    (htree : tree.isDefine = false) : Reports (tree :: nodes) result :=
  h.of_find?_eq (List.find?_cons_of_neg (by simp [htree]))

theorem Reports.exists_ok_iff {result : Except GenerateError α} (h : Reports nodes result) :
    (∃ x, result = .ok x) ↔ ∀ node ∈ nodes, node.shape ≠ .define := by
  have hnone : nodes.find? isDefine = none ↔ ∀ node ∈ nodes, node.shape ≠ .define := by
    simp only [List.find?_eq_none, isDefine, decide_eq_true_eq, ne_eq]
  rw [← hnone]
  cases h with
  | @nothing x h => exact ⟨fun _ ↦ h, fun _ ↦ ⟨x, rfl⟩⟩
  | first h => simp [h]

theorem Reports.exists_first {result : Except GenerateError α} (h : Reports nodes result)
    (hnode : node ∈ nodes) (hshape : node.shape = .define) :
    ∃ before first after, nodes = before ++ first :: after ∧
      (∀ other ∈ before, other.shape ≠ .define) ∧ first.shape = .define ∧
      result = .error (.unexpectedNode .define first.span) := by
  cases h with
  | nothing h =>
    have hnot := List.find?_eq_none.1 h node hnode
    simp [isDefine, hshape] at hnot
  | @first first h =>
    obtain ⟨hdefine, before, after, hnodes, hbefore⟩ := List.find?_eq_some_iff_append.1 h
    refine ⟨before, first, after, hnodes, fun other hother ↦ ?_, of_decide_eq_true hdefine, rfl⟩
    simpa [isDefine] using hbefore other hother

mutual

theorem reports_toExpression : ∀ tree : Tree, Reports tree.preorder tree.toExpression
  | .define name params body span => by
    rw [preorder, toExpression]
    exact .first (List.find?_cons_of_pos rfl)
  | .call name args span => by
    rw [preorder, toExpression]
    exact ((reports_toExpressions args).map _).cons rfl
  | .var name => by
    rw [preorder, toExpression]
    exact .nothing rfl
  | .int value span => by
    rw [preorder, toExpression]
    exact .nothing rfl

theorem reports_toExpressions : ∀ trees : List Tree, Reports (preorders trees) (toExpressions trees)
  | [] => by
    rw [preorders, toExpressions]
    exact .nothing rfl
  | tree :: trees => by
    rw [preorders, toExpressions]
    exact (reports_toExpression tree).bind fun first ↦ (reports_toExpressions trees).map _

end

/-- The root may be a definition, and everything below it is gone through. -/
theorem reports_toJavaScript (tree : Tree) : Reports tree.descendants tree.toJavaScript := by
  cases tree with
  | define name params body span =>
    rw [descendants, children, preorders, preorders, List.append_nil, toJavaScript]
    exact (reports_toExpression body).map _
  | call name args span =>
    rw [descendants, children, toJavaScript, toExpression]
    · exact (reports_toExpressions args).map _
    · simp
  | var name => exact .nothing rfl
  | int value span => exact .nothing rfl

end Generating

/-- A tree is generated exactly if no definition occurs below its root.  Otherwise the error names a
definition and has the span of the one that is listed first below the root. -/
theorem toJavaScript_reports_first_misplaced (tree : Tree) :
    ((∃ text, tree.toJavaScript = .ok text) ↔
      ∀ node, OccursBelow node tree → node.shape ≠ .define) ∧
    ((∃ node, OccursBelow node tree ∧ node.shape = .define) →
      ∃ before node after shape, tree.descendants = before ++ node :: after ∧
        (∀ other ∈ before, other.shape ≠ .define) ∧ node.shape = .define ∧ shape.name = "def" ∧
        tree.toJavaScript = .error (.unexpectedNode shape node.span)) := by
  have hreports := reports_toJavaScript tree
  constructor
  · rw [hreports.exists_ok_iff]
    exact forall_congr' fun node ↦ imp_congr_left mem_descendants_iff
  · rintro ⟨node, hnode, hshape⟩
    obtain ⟨before, first, after, hnodes, hbefore, hfirst, herror⟩ :=
      hreports.exists_first (mem_descendants_iff.2 hnode) hshape
    exact ⟨before, first, after, .define, hnodes, hbefore, hfirst, rfl, herror⟩

/-- Of the definitions below `def h() f(g(x, def a() def c() 1 end end), def b() 2 end) end` the first one is
reported, though another one is nearer to the root. -/
theorem toJavaScript_reports_first_misplaced_deep :
    let deepest := Tree.define ⟨"c", ⟨27, 28⟩⟩ [] (.int "1" ⟨31, 32⟩) ⟨23, 36⟩
    let deep := Tree.define ⟨"a", ⟨19, 20⟩⟩ [] deepest ⟨15, 40⟩
    let near := Tree.define ⟨"b", ⟨47, 48⟩⟩ [] (.int "2" ⟨51, 52⟩) ⟨43, 56⟩
    let tree := Tree.define ⟨"h", ⟨4, 5⟩⟩ []
      (.call ⟨"f", ⟨8, 9⟩⟩
        [.call ⟨"g", ⟨10, 11⟩⟩ [.var ⟨"x", ⟨12, 13⟩⟩, deep] ⟨10, 41⟩, near] ⟨8, 57⟩) ⟨0, 61⟩
    (OccursBelow near tree ∧ near.shape = .define) ∧
      tree.toJavaScript = .error (.unexpectedNode .define deep.span) ∧
      ∃ before node after shape, tree.descendants = before ++ node :: after ∧
        (∀ other ∈ before, other.shape ≠ .define) ∧ node.shape = .define ∧ shape.name = "def" ∧
        tree.toJavaScript = .error (.unexpectedNode shape node.span) := by
  intro deepest deep near tree
  have hnear : OccursBelow near tree := ⟨_, List.mem_singleton_self _, .arg (by simp) (.self near)⟩
  exact ⟨⟨hnear, rfl⟩, rfl, (toJavaScript_reports_first_misplaced tree).2 ⟨near, hnear, rfl⟩⟩

end OneDef.Tree
