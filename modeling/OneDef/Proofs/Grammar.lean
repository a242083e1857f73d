import OneDef.Tree.Parser

/-!
# The grammar of definitions

A definition is `'def' name '(' [name (',' name)*] ')' body 'end'`, and a body is an integer, a name, or
`name '(' [body (',' body)*] ')'`.  The grammar relates a list of tokens to the tree that it is; the
texts and spans of the tree are those of the tokens.

The reader agrees with every phrase of the grammar: it stops right behind the phrase, with its tree.
A body that is a lone name is the one phrase that needs a token behind it to be recognized.
-/

namespace OneDef.Grammar

open OneDef.Parser

section Relation

variable {α : Type}

/-- The items of a list behind its first one, each behind a comma. -/
inductive Others (Item : List Token → α → Prop) : List Token → List α → Prop where
  | nil : Others Item [] []
  | cons {comma : Token} {ts us : List Token} {x : α} {xs : List α} (hcomma : comma.kind = .comma)
      (hitem : Item ts x) (hothers : Others Item us xs) : Others Item (comma :: (ts ++ us)) (x :: xs)

/-- No items, or some with commas between them. -/
inductive Items (Item : List Token → α → Prop) : List Token → List α → Prop where
  | nil : Items Item [] []
  | cons {ts us : List Token} {x : α} {xs : List α} (hitem : Item ts x)
      (hothers : Others Item us xs) : Items Item (ts ++ us) (x :: xs)

inductive Name : List Token → Ident → Prop where
  | name {token : Token} (h : token.kind = .identifier) : Name [token] (ident token)

inductive Body : List Token → Tree → Prop where
  | integer {token : Token} (h : token.kind = .integer) :
      Body [token] (.int (Numeral.canonical token.text) token.span)
  | call {name opening closing : Token} {ts : List Token} {args : List Tree}
      (hname : name.kind = .identifier) (hopening : opening.kind = .openParen)
      (hargs : Items Body ts args) (hclosing : closing.kind = .closeParen) :
      Body (name :: opening :: (ts ++ [closing]))
        (.call (ident name) args (name.span.join closing.span))
  | var {name : Token} (h : name.kind = .identifier) : Body [name] (.var (ident name))

inductive Definition : List Token → Tree → Prop where
  | define {first name opening closing last : Token} {ps ts : List Token} {params : List Ident}
      {body : Tree} (hfirst : first.kind = .defWord) (hname : name.kind = .identifier)
      (hopening : opening.kind = .openParen) (hparams : Items Name ps params)
      (hclosing : closing.kind = .closeParen) (hbody : Body ts body) (hlast : last.kind = .endWord) :
      Definition (first :: name :: opening :: (ps ++ closing :: (ts ++ [last])))
        (.define (ident name) params body (first.span.join last.span))

/-- A beginning of a phrase: with some continuation it is a whole one. -/
def Begins (Phrase : List Token → α → Prop) (ts : List Token) : Prop :=
  ∃ more x, Phrase (ts ++ more) x

theorem Begins.of_append {Phrase : List Token → α → Prop} {ts us : List Token}
    (h : Begins Phrase (ts ++ us)) : Begins Phrase ts := by
  obtain ⟨more, x, hx⟩ := h
  exact ⟨us ++ more, x, by rwa [← List.append_assoc]⟩

end Relation

/-- A list of tokens can be continued to a definition. -/
def Viable (ts : List Token) : Prop := Begins Definition ts

section Lists

variable {α β : Type} {Item : List Token → α → Prop} {Item' : List Token → β → Prop} {f : Token → Token}
  {g : α → β} {ts : List Token} {x : α} {xs : List α}

theorem Others.map (h : Others Item ts xs) (hkind : ∀ token, (f token).kind = token.kind)
    (hitem : ∀ us x, Item us x → Item' (us.map f) (g x)) : Others Item' (ts.map f) (xs.map g) := by
  induction h with
  | nil => exact .nil
  | @cons comma _ _ _ _ hcomma h hothers ih =>
    rw [List.map_cons, List.map_append]
    exact .cons ((hkind comma).trans hcomma) (hitem _ _ h) ih

theorem Items.map (h : Items Item ts xs) (hkind : ∀ token, (f token).kind = token.kind)
    (hitem : ∀ us x, Item us x → Item' (us.map f) (g x)) : Items Item' (ts.map f) (xs.map g) := by
  cases h with
  | nil => exact .nil
  | cons h hothers =>
    rw [List.map_append]
    exact .cons (hitem _ _ h) (hothers.map hkind hitem)

theorem Others.exists_segment (h : Others Item ts xs) (hx : x ∈ xs) : ∃ us, us <:+: ts ∧ Item us x := by
  induction h with
  | nil => simp at hx
  | @cons comma us vs y ys hcomma hitem hothers ih =>
    rcases List.mem_cons.1 hx with rfl | hx
    · exact ⟨us, ⟨[comma], vs, by simp⟩, hitem⟩
    · obtain ⟨ws, hws, hitem'⟩ := ih hx
      have hsuffix : vs <:+ comma :: (us ++ vs) := ⟨comma :: us, rfl⟩
      exact ⟨ws, hws.trans hsuffix.isInfix, hitem'⟩

theorem Items.exists_segment (h : Items Item ts xs) (hx : x ∈ xs) : ∃ us, us <:+: ts ∧ Item us x := by
  cases h with
  | nil => simp at hx
  | @cons us vs y ys hitem hothers =>
    rcases List.mem_cons.1 hx with rfl | hx
    · exact ⟨us, (List.prefix_append us vs).isInfix, hitem⟩
    · obtain ⟨ws, hws, hitem'⟩ := hothers.exists_segment hx
      exact ⟨ws, hws.trans (List.suffix_append us vs).isInfix, hitem'⟩

end Lists

/-- Induction on the derivation of a body, with the arguments of a call as a list. -/
theorem Body.induction {motive : List Token → Tree → Prop} {ts : List Token} {tree : Tree}
    (integer : ∀ {token : Token}, token.kind = .integer →
      motive [token] (.int (Numeral.canonical token.text) token.span))
    (call : ∀ {name opening closing : Token} {ts : List Token} {args : List Tree},
      name.kind = .identifier → opening.kind = .openParen → Items motive ts args →
      closing.kind = .closeParen → motive (name :: opening :: (ts ++ [closing]))
        (.call (ident name) args (name.span.join closing.span)))
    (var : ∀ {name : Token}, name.kind = .identifier → motive [name] (.var (ident name)))
    (h : Body ts tree) : motive ts tree :=
  @Body.rec (fun ts tree _ ↦ motive ts tree) (fun ts args _ ↦ Items motive ts args)
    (fun ts args _ ↦ Others motive ts args) integer
    (fun hname hopening _ hclosing hargs ↦ call hname hopening hargs hclosing) var
    .nil (fun _ _ hitem hothers ↦ .cons hitem hothers)
    .nil (fun hcomma _ _ hitem hothers ↦ .cons hcomma hitem hothers) ts tree h

section Reading

variable {tree tree' : Tree} {closing : Token} {ts us rest : List Token}

/-- The tokens behind a body tell that it is complete.  Only a lone name depends on them. -/
def Settled (tree : Tree) (rest : List Token) : Prop :=
  tree.shape = .var → ∃ next more, rest = next :: more ∧ next.kind ≠ .openParen

theorem settled_cons {next : Token} (h : next.kind ≠ .openParen) : Settled tree (next :: rest) :=
  fun _ ↦ ⟨next, rest, rfl, h⟩

theorem Others.settled {args : List Tree} (h : Others Body us args)
    (hclosing : closing.kind = .closeParen) (rest : List Token) :
    Settled tree (us ++ closing :: rest) := by
  cases h with
  | nil => exact settled_cons (by simp [hclosing])
  | cons hcomma _ _ => exact settled_cons (by simp [hcomma])

theorem Body.starts (h : Body ts tree) :
    ∃ first others, ts = first :: others ∧ (first.kind = .integer ∨ first.kind = .identifier) := by
  cases h with
  | integer h => exact ⟨_, _, rfl, .inl h⟩
  | call hname _ _ _ => exact ⟨_, _, rfl, .inr hname⟩
  | var h => exact ⟨_, _, rfl, .inr h⟩

theorem Others.moreParams_append {params : List Ident} (h : Others Name us params)
    (hclosing : closing.kind = .closeParen) :
    moreParams (us ++ closing :: rest) = .ok (params, rest) := by
  induction h with
  | nil => exact moreParams_close hclosing
  | cons hcomma hitem hothers ih =>
    obtain ⟨hname⟩ := hitem
    rw [List.cons_append, List.append_assoc, List.singleton_append, moreParams_next hcomma hname, ih]
    rfl

theorem Items.params_append {ps : List Ident} (h : Items Name ts ps)
    (hclosing : closing.kind = .closeParen) :
    params (ts ++ closing :: rest) = .ok (ps, rest) := by
  cases h with
  | nil => exact params_close hclosing
  | cons hitem hothers =>
    obtain ⟨hname⟩ := hitem
    rw [List.append_assoc, List.singleton_append, params_first hname,
      hothers.moreParams_append hclosing]
    rfl

-- Induction on the derivation, for every stack of open calls: arguments are read with one call more.
mutual

theorem Body.body_append : ∀ {ts : List Token} {tree : Tree}, Body ts tree →
    ∀ (calls : List OpenCall) {rest : List Token}, Settled tree rest →
      body calls (ts ++ rest) = resume calls tree rest
  | _, _, .integer h, calls, rest, _ => body_integer h
  | _, _, .call hname hopening hargs hclosing, calls, rest, _ => by
    rw [List.cons_append, List.cons_append, List.append_assoc]
    exact hargs.body_append calls hname hopening hclosing
  | _, _, .var h, calls, rest, hrest => by
    obtain ⟨next, more, rfl, hnext⟩ := hrest rfl
    exact body_var h hnext

theorem Items.body_append : ∀ {ts : List Token} {args : List Tree}, Items Body ts args →
    ∀ (calls : List OpenCall) {name opening closing : Token} {rest : List Token},
      name.kind = .identifier → opening.kind = .openParen → closing.kind = .closeParen →
      body calls (name :: opening :: (ts ++ (closing :: rest))) =
        resume calls (.call (ident name) args (name.span.join closing.span)) rest
  | _, _, .nil, calls, name, opening, closing, rest, hname, hopening, hclosing =>
    body_call_empty hname hopening hclosing
  | _, _, @Items.cons _ _ ts us tree args hitem hothers, calls, name, opening, closing, rest, hname,
      hopening, hclosing => by
    have hopened : body calls (name :: opening :: (ts ++ (us ++ closing :: rest))) =
        body (⟨ident name, []⟩ :: calls) (ts ++ (us ++ closing :: rest)) := by
      obtain ⟨first, others, rfl, hfirst⟩ := hitem.starts
      exact body_call hname hopening (by rcases hfirst with h | h <;> simp [h])
    rw [List.append_assoc]
    calc
      _ = body (⟨ident name, []⟩ :: calls) (ts ++ (us ++ closing :: rest)) := hopened
      _ = resume (⟨ident name, []⟩ :: calls) tree (us ++ closing :: rest) :=
        hitem.body_append _ (hothers.settled hclosing rest)
      _ = _ := hothers.resume_append calls hclosing

theorem Others.resume_append : ∀ {us : List Token} {args : List Tree}, Others Body us args →
    ∀ (calls : List OpenCall) {pending : OpenCall} {tree : Tree} {closing : Token}
      {rest : List Token}, closing.kind = .closeParen →
      resume (pending :: calls) tree (us ++ closing :: rest) =
        resume calls (.call pending.name (pending.args.reverse ++ tree :: args)
          (pending.name.span.join closing.span)) rest
  | _, _, .nil, calls, pending, tree, closing, rest, hclosing => by
    rw [List.nil_append, resume_close hclosing]
    simp [OpenCall.close, OpenCall.push]
  | _, _, @Others.cons _ _ comma ts us arg args hcomma hitem hothers, calls, pending, tree, closing,
      rest, hclosing => by
    rw [List.cons_append, List.append_assoc]
    calc
      _ = body (pending.push tree :: calls) (ts ++ (us ++ closing :: rest)) := resume_comma hcomma
      _ = resume (pending.push tree :: calls) arg (us ++ closing :: rest) :=
        hitem.body_append _ (hothers.settled hclosing rest)
      _ = _ := hothers.resume_append calls hclosing
      _ = _ := by simp [OpenCall.push]

end

theorem Body.unique (h : Body ts tree) (h' : Body ts tree') : tree = tree' := by
  -- with a keyword behind it the body is read, and reading gives one tree
  have hsettled (tree : Tree) : Settled tree [⟨.endWord, "end", Span.emptyAt 0⟩] :=
    settled_cons (by simp)
  have hread := h.body_append [] (hsettled tree)
  rw [h'.body_append [] (hsettled tree'), resume_nil, resume_nil] at hread
  exact (Prod.mk.inj (Except.ok.inj hread)).1.symm

/-- A body that is not a lone name is read as a whole. -/
theorem Body.parseExpression (h : Body ts tree) (hshape : tree.shape ≠ .var) :
    Tree.parseExpression ts = .ok tree := by
  have hread := h.body_append [] (show Settled tree [] from fun hvar ↦ absurd hvar hshape)
  rw [List.append_nil, resume_nil] at hread
  rw [Tree.parseExpression, hread]

/-- A definition at the front of the tokens is read, whatever stands behind it. -/
theorem Definition.definition_append (h : Definition ts tree) (rest : List Token) :
    definition (ts ++ rest) = .ok (tree, rest) := by
  cases h with
  | @define _ _ _ _ last _ ts _ tree hfirst hname hopening hparams hclosing hbody hlast =>
    have hend : body [] (ts ++ last :: rest) = .ok (tree, last :: rest) := by
      rw [hbody.body_append [] (settled_cons (by simp [hlast])), resume_nil]
    simp only [definition, List.cons_append, List.append_assoc, List.nil_append,
      expect_found hfirst, expect_found hname, expect_found hopening, hparams.params_append hclosing,
      hend, expect_found hlast, bind, Except.bind]
    rfl

/-- Definitions do not begin one another, and none has two trees. -/
theorem Definition.unique_of_prefix {front front' : List Token} {tree tree' : Tree}
    (h : Definition front tree) (h' : Definition front' tree') (hts : front <+: ts)
    (hts' : front' <+: ts) : front = front' ∧ tree = tree' := by
  obtain ⟨rest, rfl⟩ := hts
  obtain ⟨rest', heq⟩ := hts'
  have hread := h.definition_append rest
  rw [← heq, h'.definition_append rest', Except.ok.injEq, Prod.mk.injEq] at hread
  obtain ⟨rfl, rfl⟩ := hread
  exact ⟨(List.append_cancel_right heq).symm, rfl⟩

end Reading

end OneDef.Grammar
