import OneDef.Proofs.Grammar

/-!
# What reading comes to

Reading ends in one of three ways, and each says something about the grammar.  A tree is the tree of
the tokens that were read.  When the input ends too early, the expected kind of token goes on with it.
When a token is refused, the expected kind goes on with the tokens in front of it, and whatever stands
behind the refused token does not matter.

Outcomes compose along a sequence of reads.  For bodies they follow from an invariant of the stack of
open calls: together the calls hold exactly the tokens that were read and not yet made into a tree.
-/

namespace OneDef.Grammar

open OneDef.Parser

section Composition

variable {α β : Type}

inductive Outcome (Phrase : List Token → α → Prop)
    (read : List Token → Except Failure (α × List Token)) (ts : List Token) : Prop where
  /-- A phrase was read.  At most the first token behind it was looked at. -/
  | ok (front : List Token) {rest : List Token} {x : α} (hts : ts = front ++ rest)
      (hphrase : Phrase front x)
      (hread : ∀ more, more.head? = rest.head? → read (front ++ more) = .ok (x, more))
  | ended {kind : Kind} {rest : List Token} (hread : read ts = Parser.ended kind rest)
      (hnext : ∀ token, token.kind = kind → Begins Phrase (ts ++ [token]))
  | refused (front : List Token) {rest : List Token} {found : Token} {kind : Kind}
      (hts : ts = front ++ found :: rest) (hkind : found.kind ≠ kind)
      (hnext : ∀ token, token.kind = kind → Begins Phrase (front ++ [token]))
      (hread : ∀ more, read (front ++ found :: more) = Parser.refused kind found more)

theorem Begins.imp {Phrase Phrase' : List Token → α → Prop} {ts front : List Token}
    (h : Begins Phrase ts) (himp : ∀ ts x, Phrase ts x → Phrase' (front ++ ts) x) :
    Begins Phrase' (front ++ ts) := by
  obtain ⟨more, x, hx⟩ := h
  exact ⟨more, x, by rw [List.append_assoc]; exact himp _ _ hx⟩

/-- Reading some tokens and going on in a way that depends on the next token only. -/
theorem Outcome.after {Phrase Phrase' : List Token → α → Prop}
    {read read' : List Token → Except Failure (α × List Token)} {ts : List Token}
    (h : Outcome Phrase read ts) (front : List Token)
    (hread : ∀ us, us.head? = ts.head? → read' (front ++ us) = read us)
    (himp : ∀ ts x, Phrase ts x → Phrase' (front ++ ts) x) :
    Outcome Phrase' read' (front ++ ts) := by
  cases h with
  | ok front' hts hphrase hok =>
    refine .ok (front ++ front') (by rw [hts, ← List.append_assoc]) (himp _ _ hphrase) fun more hmore ↦ ?_
    rw [List.append_assoc, hread _ (by simp [hts, hmore]), hok more hmore]
  | ended hended hnext =>
    refine .ended ((hread ts rfl).trans hended) fun token htoken ↦ ?_
    rw [List.append_assoc]
    exact (hnext token htoken).imp himp
  | refused front' hts hkind hnext hrefused =>
    refine .refused (front ++ front') (by rw [hts, ← List.append_assoc]) hkind
      (fun token htoken ↦ ?_) fun more ↦ ?_
    · rw [List.append_assoc]
      exact (hnext token htoken).imp himp
    · rw [List.append_assoc, hread _ (by simp [hts]), hrefused more]

theorem Outcome.imp {Phrase Phrase' : List Token → α → Prop}
    {read : List Token → Except Failure (α × List Token)} {ts : List Token}
    (h : Outcome Phrase read ts) (himp : ∀ ts x, Phrase ts x → Phrase' ts x) :
    Outcome Phrase' read ts :=
  h.after [] (fun _ _ ↦ rfl) himp

/-- Every outcome is as it should be, and there is a phrase at all. -/
structure Reads (read : List Token → Except Failure (α × List Token))
    (Phrase : List Token → α → Prop) : Prop where
  outcome : ∀ ts, Outcome Phrase read ts
  begins : Begins Phrase []

/-- A phrase, then one that may depend on it. -/
def Sequence (First : List Token → α → Prop) (Second : α → List Token → β → Prop)
    (ts : List Token) (y : β) : Prop :=
  ∃ front x back, ts = front ++ back ∧ First front x ∧ Second x back y

theorem Sequence.begins {First : List Token → α → Prop} {Second : α → List Token → β → Prop}
    {ts : List Token} (h : Begins First ts) (hsecond : ∀ x, Begins (Second x) []) :
    Begins (Sequence First Second) ts := by
  obtain ⟨more, x, hx⟩ := h
  obtain ⟨back, y, hy⟩ := hsecond x
  exact ⟨more ++ back, y, ts ++ more, x, back, (List.append_assoc ..).symm, hx, hy⟩

theorem Outcome.bind {First : List Token → α → Prop} {Second : α → List Token → β → Prop}
    {read : List Token → Except Failure (α × List Token)}
    {next : α → List Token → Except Failure (β × List Token)} {ts : List Token}
    (h : Outcome First read ts) (hnext : ∀ x, Reads (next x) (Second x)) :
    Outcome (Sequence First Second) (fun ts ↦ read ts >>= fun found ↦ next found.1 found.2) ts := by
  cases h with
  | @ok front rest x hts hfirst hread =>
    have hsecond (back : List Token) (y : β) (hy : Second x back y) :
        Sequence First Second (front ++ back) y := ⟨front, x, back, rfl, hfirst, hy⟩
    rw [hts]
    refine ((hnext x).outcome rest).after front (fun us hus ↦ ?_) hsecond
    rw [hread us hus]
    rfl
  | @ended kind rest hread hbegins =>
    have hended : (read ts >>= fun found ↦ next found.1 found.2) = Parser.ended kind rest := by
      rw [hread]
      rfl
    exact .ended hended fun token htoken ↦
      Sequence.begins (hbegins token htoken) fun x ↦ (hnext x).begins
  | refused front hts hkind hbegins hread =>
    refine .refused front hts hkind (fun token htoken ↦
      Sequence.begins (hbegins token htoken) fun x ↦ (hnext x).begins) fun more ↦ ?_
    rw [hread]
    rfl

theorem Reads.bind {First : List Token → α → Prop} {Second : α → List Token → β → Prop}
    {read : List Token → Except Failure (α × List Token)}
    {next : α → List Token → Except Failure (β × List Token)}
    (h : Reads read First) (hnext : ∀ x, Reads (next x) (Second x)) :
    Reads (fun ts ↦ read ts >>= fun found ↦ next found.1 found.2) (Sequence First Second) where
  outcome ts := (h.outcome ts).bind hnext
  begins := Sequence.begins h.begins fun x ↦ (hnext x).begins

/-- No tokens, which stand for a given value. -/
def Nothing (x : α) (ts : List Token) (y : α) : Prop := ts = [] ∧ y = x

theorem reads_nothing (x : α) : Reads (fun ts ↦ .ok (x, ts)) (Nothing x) where
  outcome _ := .ok [] rfl ⟨rfl, rfl⟩ fun _ _ ↦ rfl
  begins := ⟨[], x, rfl, rfl⟩

end Composition

/-- Some token of a kind. -/
def sample (kind : Kind) : Token := ⟨kind, "", Span.emptyAt 0⟩

@[simp] theorem kind_sample (kind : Kind) : (sample kind).kind = kind := rfl

inductive Single (kind : Kind) : List Token → Token → Prop where
  | single {token : Token} (h : token.kind = kind) : Single kind [token] token

theorem reads_expect (kind : Kind) : Reads (expect kind) (Single kind) where
  outcome ts := by
    have hnext (token : Token) (htoken : token.kind = kind) : Begins (Single kind) [token] :=
      ⟨[], token, .single htoken⟩
    cases ts with
    | nil => exact .ended rfl hnext
    | cons token rest =>
      by_cases h : token.kind = kind
      · exact .ok [token] rfl (.single h) fun _ _ ↦ expect_found h
      · exact .refused [] rfl h hnext fun _ ↦ expect_refused h
  begins := ⟨[sample kind], sample kind, .single rfl⟩

section Parameters

/-- A phrase with the parenthesis that closes it. -/
def Closed {α : Type} (Phrase : List Token → α → Prop) (ts : List Token) (x : α) : Prop :=
  ∃ front closing, closing.kind = .closeParen ∧ ts = front ++ [closing] ∧ Phrase front x

theorem closed_nil {α : Type} {Phrase : List Token → α → Prop} {closing : Token} {x : α}
    (hphrase : Phrase [] x) (h : closing.kind = .closeParen) : Closed Phrase [closing] x :=
  ⟨[], closing, h, rfl, hphrase⟩

theorem Closed.after {α : Type} {Phrase Phrase' : List Token → α → Prop} {ts : List Token} {x y : α}
    (h : Closed Phrase ts x) (front : List Token)
    (himp : ∀ us, Phrase us x → Phrase' (front ++ us) y) : Closed Phrase' (front ++ ts) y := by
  obtain ⟨us, closing, hclosing, rfl, hphrase⟩ := h
  exact ⟨front ++ us, closing, hclosing, (List.append_assoc ..).symm, himp us hphrase⟩

theorem closed_others_cons {comma name : Token} {ts : List Token} {others : List Ident}
    (hcomma : comma.kind = .comma) (hname : name.kind = .identifier)
    (h : Closed (Others Name) ts others) :
    Closed (Others Name) (comma :: name :: ts) (ident name :: others) :=
  h.after [comma, name] fun _ hothers ↦ .cons hcomma (.name hname) hothers

theorem closed_items_cons {name : Token} {ts : List Token} {others : List Ident}
    (hname : name.kind = .identifier) (h : Closed (Others Name) ts others) :
    Closed (Items Name) (name :: ts) (ident name :: others) :=
  h.after [name] fun _ hothers ↦ .cons (.name hname) hothers

theorem outcome_moreParams (ts : List Token) : Outcome (Closed (Others Name)) moreParams ts := by
  have hclose (token : Token) (h : token.kind = .closeParen) :
      Begins (Closed (Others Name)) [token] := ⟨[], [], closed_nil .nil h⟩
  have hname (comma token : Token) (hcomma : comma.kind = .comma) (h : token.kind = .identifier) :
      Begins (Closed (Others Name)) [comma, token] :=
    ⟨[sample .closeParen], _, closed_others_cons hcomma h (closed_nil .nil rfl)⟩
  induction ts using moreParams.induct with
  | case1 =>
    exact .ended rfl fun token h ↦
      Begins.of_append (show Begins _ ([token] ++ [sample .identifier]) from hname token _ h rfl)
  | case2 token hcomma => exact .ended (moreParams_last_comma hcomma) (hname token · hcomma)
  | case3 comma hcomma param rest hparam ih =>
    refine (ih.bind fun others ↦ reads_nothing (ident param :: others)).after [comma, param]
      (fun us _ ↦ moreParams_next hcomma hparam) ?_
    rintro _ _ ⟨front, others, _, rfl, hothers, rfl, rfl⟩
    rw [List.append_nil]
    exact closed_others_cons hcomma hparam hothers
  | case4 comma hcomma param rest hparam =>
    exact .refused [comma] rfl hparam (hname comma · hcomma) fun more ↦
      moreParams_not_name hcomma hparam
  | case5 token rest hclosing =>
    exact .ok [token] rfl (closed_nil .nil hclosing) fun more _ ↦
      moreParams_close hclosing
  | case6 token rest hcomma hclosing =>
    exact .refused [] rfl hclosing hclose fun more ↦ moreParams_refused hcomma hclosing

theorem reads_params : Reads params (Closed (Items Name)) where
  outcome ts := by
    have hclose (token : Token) (h : token.kind = .closeParen) :
        Begins (Closed (Items Name)) [token] := ⟨[], [], closed_nil .nil h⟩
    cases ts with
    | nil =>
      exact .ended rfl fun token h ↦
        ⟨[sample .closeParen], _, closed_items_cons h (closed_nil .nil rfl)⟩
    | cons token rest =>
      by_cases hname : token.kind = .identifier
      · refine ((outcome_moreParams rest).bind fun others ↦
          reads_nothing (ident token :: others)).after [token]
          (fun us _ ↦ params_first hname) ?_
        rintro _ _ ⟨front, others, _, rfl, hothers, rfl, rfl⟩
        rw [List.append_nil]
        exact closed_items_cons hname hothers
      · by_cases hclosing : token.kind = .closeParen
        · exact .ok [token] rfl (closed_nil .nil hclosing) fun more _ ↦
            params_close hclosing
        · exact .refused [] rfl hclosing hclose fun more ↦
            params_refused hname hclosing
  begins := ⟨[sample .closeParen], [], closed_nil .nil rfl⟩

end Parameters

section Bodies

variable {calls : List OpenCall} {pending : OpenCall} {tree : Tree} {read ts : List Token}

/-- The tokens of an open call so far: its name, the parenthesis, and each argument with the comma
behind it. -/
inductive Opened : OpenCall → List Token → Prop where
  | opening {name opening : Token} (hname : name.kind = .identifier)
      (hopening : opening.kind = .openParen) : Opened ⟨ident name, []⟩ [name, opening]
  | comma {pending : OpenCall} {comma : Token} {read ts : List Token} {arg : Tree}
      (hopened : Opened pending read) (harg : Body ts arg) (hcomma : comma.kind = .comma) :
      Opened (pending.push arg) (read ++ (ts ++ [comma]))

/-- The tokens of all open calls so far, with those of the innermost one last. -/
inductive Stacked : List OpenCall → List Token → Prop where
  | nil : Stacked [] []
  | cons {calls : List OpenCall} {pending : OpenCall} {outer inner : List Token}
      (hstacked : Stacked calls outer) (hopened : Opened pending inner) :
      Stacked (pending :: calls) (outer ++ inner)

theorem Opened.body_others {closing : Token} {us : List Token} {arg : Tree} {args : List Tree}
    (h : Opened pending read) (harg : Body ts arg) (hothers : Others Body us args)
    (hclosing : closing.kind = .closeParen) :
    Body (read ++ (ts ++ (us ++ [closing]))) (.call pending.name (pending.args.reverse ++ arg :: args)
      (pending.name.span.join closing.span)) := by
  induction h generalizing ts us arg args with
  | opening hname hopening =>
    have hcall := Body.call hname hopening (.cons harg hothers) hclosing
    rwa [List.append_assoc] at hcall
  | comma hopened harg' hcomma ih =>
    have hcall := ih harg' (.cons hcomma harg hothers)
    simpa [OpenCall.push] using hcall

theorem Opened.body_close {closing : Token} (h : Opened pending read) (harg : Body ts tree)
    (hclosing : closing.kind = .closeParen) :
    Body (read ++ (ts ++ [closing])) ((pending.push tree).close closing) := by
  have hcall := h.body_others harg .nil hclosing
  simpa [OpenCall.push, OpenCall.close] using hcall

/-- Closing all open calls behind a body makes a body of everything. -/
theorem Stacked.begins (h : Stacked calls read) (hbody : Body ts tree) :
    Begins Body (read ++ ts) := by
  induction h generalizing ts tree with
  | nil => exact ⟨[], tree, by simpa using hbody⟩
  | cons hstacked hopened ih =>
    have hclosed := hopened.body_close hbody (kind_sample .closeParen)
    have hbegins := ih hclosed
    rw [← List.append_assoc, ← List.append_assoc] at hbegins
    exact hbegins.of_append

theorem Stacked.eq_nil (h : Stacked [] read) : read = [] := by
  cases h
  rfl

theorem Stacked.opening {name opening : Token} (h : Stacked calls read)
    (hname : name.kind = .identifier) (hopening : opening.kind = .openParen) :
    Stacked (⟨ident name, []⟩ :: calls) (read ++ [name, opening]) :=
  .cons h (.opening hname hopening)

theorem Stacked.comma {comma : Token} (h : Stacked (pending :: calls) read) (harg : Body ts tree)
    (hcomma : comma.kind = .comma) :
    Stacked (pending.push tree :: calls) (read ++ (ts ++ [comma])) := by
  cases h with
  | cons hstacked hopened =>
    rw [List.append_assoc]
    exact .cons hstacked (.comma hopened harg hcomma)

theorem Stacked.close (h : Stacked (pending :: calls) read) :
    ∃ outer inner, read = outer ++ inner ∧ Stacked calls outer ∧ Opened pending inner := by
  cases h with
  | cons hstacked hopened => exact ⟨_, _, rfl, hstacked, hopened⟩

/-- The bodies that go on behind the tokens of the open calls. -/
def Behind (read ts : List Token) (tree : Tree) : Prop := Body (read ++ ts) tree

theorem behind_append {us : List Token} (h : Behind (read ++ ts) us tree) :
    Behind read (ts ++ us) tree := by
  rwa [Behind, ← List.append_assoc]

theorem behind_of_begins (h : Begins Body (read ++ ts)) : Begins (Behind read) ts := by
  obtain ⟨more, result, hresult⟩ := h
  exact ⟨more, result, by rwa [Behind, ← List.append_assoc]⟩

theorem Stacked.begins_behind (h : Stacked calls read) (hbody : Body ts tree) :
    Begins (Behind read) ts := behind_of_begins (h.begins hbody)

-- Induction along the run.  The invariant says which tokens the open calls hold; a complete body that
-- is handed on stands right behind them.
theorem outcome_body_resume :
    (∀ calls ts read, Stacked calls read → Outcome (Behind read) (body calls) ts) ∧
      ∀ calls tree ts read us, Stacked calls read → Body us tree →
        Outcome (Behind (read ++ us)) (resume calls tree) ts := by
  refine body.mutual_induct
    (fun calls ts ↦ ∀ read, Stacked calls read → Outcome (Behind read) (body calls) ts)
    (fun calls tree ts ↦ ∀ read us, Stacked calls read → Body us tree →
      Outcome (Behind (read ++ us)) (resume calls tree) ts)
    ?nothing ?integer ?lastName ?lastOpening ?callEmpty ?call ?var ?notBody
    ?done ?ended ?comma ?close ?notArgument
  case nothing =>
    intro calls read hread
    exact .ended body_end fun token h ↦ hread.begins_behind (.integer h)
  case integer =>
    intro calls token rest h ih read hread
    exact (ih read [token] hread (.integer h)).after [token] (fun us _ ↦ body_integer h)
      fun us tree ↦ behind_append
  case lastName =>
    intro calls token h read hread
    refine .ended (body_last_name h) fun opening hopening ↦ ?_
    have hcall := Body.call h hopening .nil (kind_sample .closeParen)
    exact Begins.of_append (hread.begins_behind hcall)
  case lastOpening =>
    intro calls token h next hnext read hread
    exact .ended (body_last_open h hnext) fun closing hclosing ↦
      hread.begins_behind (.call h hnext .nil hclosing)
  case callEmpty =>
    intro calls token h next hnext first rest hfirst ih read hread
    exact (ih read [token, next, first] hread (.call h hnext .nil hfirst)).after _
      (fun us _ ↦ body_call_empty h hnext hfirst) fun us tree ↦ behind_append
  case call =>
    intro calls token h next hnext first rest hfirst ih read hread
    refine (ih (read ++ [token, next]) (hread.opening h hnext)).after [token, next]
      (fun us hus ↦ ?_) fun us tree ↦ behind_append
    obtain ⟨more, rfl⟩ := List.head?_eq_some_iff.1 hus
    exact body_call h hnext hfirst
  case var =>
    intro calls token h next rest hnext ih read hread
    refine (ih read [token] hread (.var h)).after [token] (fun us hus ↦ ?_)
      fun us tree ↦ behind_append
    obtain ⟨more, rfl⟩ := List.head?_eq_some_iff.1 hus
    exact body_var h hnext
  case notBody =>
    intro calls token rest hinteger hname read hread
    exact .refused [] rfl hname (fun other h ↦ hread.begins_behind (.var h)) fun more ↦
      body_refused hinteger hname
  case done =>
    intro ts tree read us hread hbody
    obtain rfl := hread.eq_nil
    exact .ok [] rfl (by simpa [Behind] using hbody) fun more _ ↦ resume_nil
  case ended =>
    intro tree pending calls read us hread hbody
    refine .ended resume_end fun comma hcomma ↦ ?_
    have hstacked := hread.comma hbody hcomma
    have hbegins := (hstacked.begins (.var (kind_sample .identifier))).of_append
    apply behind_of_begins
    rwa [List.append_assoc]
  case comma =>
    intro tree pending calls token rest h ih read us hread hbody
    refine (ih _ (hread.comma hbody h)).after [token] (fun us _ ↦ resume_comma h) fun us tree hus ↦ ?_
    simpa [Behind] using hus
  case close =>
    intro tree pending calls token rest h ih read us hread hbody
    obtain ⟨outer, inner, rfl, houter, hinner⟩ := hread.close
    refine (ih outer _ houter (hinner.body_close hbody h)).after [token] (fun us _ ↦ resume_close h)
      fun us tree hus ↦ ?_
    simpa [Behind] using hus
  case notArgument =>
    intro tree pending calls token rest hcomma hclose read us hread hbody
    obtain ⟨outer, inner, rfl, houter, hinner⟩ := hread.close
    refine .refused [] rfl hclose (fun other h ↦ ?_) fun more ↦ resume_refused hcomma hclose
    have hbegins := houter.begins (hinner.body_close hbody h)
    apply behind_of_begins
    rwa [List.append_assoc, List.append_assoc]

theorem reads_body : Reads (body []) Body where
  outcome ts := outcome_body_resume.1 [] ts [] .nil
  begins := ⟨[sample .integer], _, .integer rfl⟩

end Bodies

/-- The tree of a definition from the trees of its parts, read one after the other. -/
theorem definition_of_sequence {ts : List Token} {tree : Tree}
    (h : Sequence (Single .defWord) (fun first ↦ Sequence (Single .identifier) fun name ↦
      Sequence (Single .openParen) fun _ ↦ Sequence (Closed (Items Name)) fun params ↦
      Sequence Body fun body ↦ Sequence (Single .endWord) fun last ↦
        Nothing (.define (ident name) params body (first.span.join last.span))) ts tree) :
    Definition ts tree := by
  obtain ⟨_, first, _, rfl, ⟨hfirst⟩, h⟩ := h
  obtain ⟨_, name, _, rfl, ⟨hname⟩, h⟩ := h
  obtain ⟨_, opening, _, rfl, ⟨hopening⟩, h⟩ := h
  obtain ⟨_, params, _, rfl, ⟨ps, closing, hclosing, rfl, hparams⟩, h⟩ := h
  obtain ⟨us, body, _, rfl, hbody, h⟩ := h
  obtain ⟨_, last, _, rfl, ⟨hlast⟩, rfl, rfl⟩ := h
  have hdefinition := Definition.define hfirst hname hopening hparams hclosing hbody hlast
  simpa using hdefinition

theorem reads_definition : Reads definition Definition := by
  have hreads := (reads_expect .defWord).bind fun first ↦ (reads_expect .identifier).bind fun name ↦
    (reads_expect .openParen).bind fun _ ↦ reads_params.bind fun params ↦ reads_body.bind fun body ↦
    (reads_expect .endWord).bind fun last ↦
      reads_nothing (Tree.define (ident name) params body (first.span.join last.span))
  constructor
  · intro ts
    exact (hreads.outcome ts).imp fun _ _ ↦ definition_of_sequence
  · obtain ⟨more, tree, h⟩ := hreads.begins
    exact ⟨more, tree, definition_of_sequence h⟩

/-- A token that was refused could not go on with the tokens in front of it. -/
theorem not_viable_of_refused {front rest : List Token} {found : Token} {kind : Kind}
    (h : ∀ more, definition (front ++ found :: more) = refused kind found more) :
    ¬Viable (front ++ found :: rest) := by
  rintro ⟨more, tree, htree⟩
  have hread := htree.definition_append []
  simp only [List.append_nil, List.append_assoc, List.cons_append] at hread
  rw [h] at hread
  cases hread

end OneDef.Grammar
