import OneDef.Proofs.Outcome

/-!
# What the reading of an expression comes to

An expression is a body that all of the tokens are.  It is read exactly if the grammar has it, with one
exception: a lone name could still become a call, so the input is said to end too early.  This happens at
the very end of the tokens only, since a name among the arguments of a call has a token behind it.

A token is trailing if the tokens in front of it are a body that it does not go on with.  There is at most
one such place.  In all remaining cases a token is refused or missing.
-/

namespace OneDef.Grammar

open OneDef.Parser

section Results

variable {ts rest : List Token} {tree : Tree} {kind : Kind} {found : Token}

theorem parseExpression_of_ok (h : body [] ts = .ok (tree, [])) : Tree.parseExpression ts = .ok tree := by
  rw [Tree.parseExpression, h]

theorem parseExpression_of_extra (h : body [] ts = .ok (tree, found :: rest)) :
    Tree.parseExpression ts = .error (.trailingToken found.kind found.span) := by
  rw [Tree.parseExpression, h]

theorem parseExpression_of_ended (h : body [] ts = ended kind rest) :
    Tree.parseExpression ts = .error (.unexpectedEnd (some kind) (endSpan ts)) := by
  rw [Tree.parseExpression, h]
  rfl

theorem parseExpression_of_refused (h : body [] ts = refused kind found rest) :
    Tree.parseExpression ts = .error (.unexpectedToken kind found.kind found.span) := by
  rw [Tree.parseExpression, h]
  rfl

end Results

section LoneNames

variable {ts : List Token} {tree : Tree} {token : Token}

def IsLoneName (ts : List Token) : Prop := ∃ token, token.kind = .identifier ∧ ts = [token]

theorem parseExpression_name (h : token.kind = .identifier) :
    Tree.parseExpression [token] = .error (.unexpectedEnd (some .openParen) token.span.behind) :=
  parseExpression_of_ended (body_last_name h)

/-- Among bodies, the lone names are the variables. -/
theorem Body.isLoneName_iff (h : Body ts tree) : IsLoneName ts ↔ tree.shape = .var := by
  cases h with
  | integer h =>
    refine ⟨fun hlone ↦ ?_, fun hshape ↦ by cases hshape⟩
    obtain ⟨token, htoken, heq⟩ := hlone
    rw [(List.cons.inj heq).1, htoken] at h
    cases h
  | call _ _ _ _ =>
    refine ⟨fun hlone ↦ ?_, fun hshape ↦ by cases hshape⟩
    obtain ⟨token, -, heq⟩ := hlone
    cases (List.cons.inj heq).2
  | @var name h => exact ⟨fun _ ↦ rfl, fun _ ↦ ⟨name, h, rfl⟩⟩

theorem Body.parseExpression_of_not_loneName (h : Body ts tree) (hlone : ¬IsLoneName ts) :
    Tree.parseExpression ts = .ok tree :=
  h.parseExpression fun hshape ↦ hlone (h.isLoneName_iff.2 hshape)

end LoneNames

section Trailing

variable {ts : List Token} {count other : Nat}

/-- There is a token of a kind at a place. -/
def KindAt (ts : List Token) (place : Nat) (kind : Kind) : Prop :=
  ts[place]?.map Token.kind = some kind

/-- So many tokens from the front are a body, and the token behind them does not begin its arguments. -/
structure Trails (ts : List Token) (count : Nat) : Prop where
  pos : 0 < count
  lt : count < ts.length
  body : ∃ tree, Body (ts.take count) tree
  not_call : ¬(count = 1 ∧ KindAt ts 0 .identifier ∧ KindAt ts 1 .openParen)

/-- Tokens with a trailing one among them, split at that token. -/
theorem trails_iff : Trails ts count ↔ ∃ front extra rest tree, ts = front ++ extra :: rest ∧
    front.length = count ∧ Body front tree ∧ ¬(IsLoneName front ∧ extra.kind = .openParen) := by
  constructor
  · intro h
    obtain ⟨front, extra, rest, rfl, rfl⟩ : ∃ front extra rest, ts = front ++ extra :: rest ∧
        front.length = count := by
      refine ⟨ts.take count, ts.get ⟨count, h.lt⟩, ts.drop (count + 1), ?_, ?_⟩
      · rw [List.get_eq_getElem, ← List.drop_eq_getElem_cons h.lt, List.take_append_drop]
      · exact List.length_take_of_le (Nat.le_of_lt h.lt)
    obtain ⟨tree, hbody⟩ := h.body
    rw [List.take_left] at hbody
    refine ⟨front, extra, rest, tree, rfl, rfl, hbody, ?_⟩
    rintro ⟨⟨name, hname, rfl⟩, hopening⟩
    exact h.not_call ⟨rfl, congrArg some hname, congrArg some hopening⟩
  · rintro ⟨front, extra, rest, tree, rfl, rfl, hbody, hnot⟩
    constructor
    case pos =>
      obtain ⟨first, others, rfl, -⟩ := hbody.starts
      exact Nat.succ_pos _
    case lt => simp
    case body => exact ⟨tree, by rwa [List.take_left]⟩
    case not_call =>
      rintro ⟨hlength, hname, hopening⟩
      obtain ⟨name, rfl⟩ := List.length_eq_one_iff.1 hlength
      exact hnot ⟨⟨name, Option.some.inj hname, rfl⟩, Option.some.inj hopening⟩

/-- Reading stops in front of a trailing token. -/
theorem Trails.body_eq (h : Trails ts count) : ∃ tree, Parser.body [] ts = .ok (tree, ts.drop count) := by
  obtain ⟨front, extra, rest, tree, rfl, rfl, hbody, hnot⟩ := trails_iff.1 h
  have hsettled : Settled tree (extra :: rest) := fun hshape ↦
    ⟨extra, rest, rfl, fun hopening ↦ hnot ⟨hbody.isLoneName_iff.2 hshape, hopening⟩⟩
  have hread := hbody.body_append [] hsettled
  rw [resume_nil] at hread
  exact ⟨tree, by rw [hread, List.drop_left]⟩

theorem Trails.unique (h : Trails ts count) (h' : Trails ts other) : count = other := by
  obtain ⟨tree, hread⟩ := h.body_eq
  obtain ⟨tree', hread'⟩ := h'.body_eq
  rw [hread, Except.ok.injEq, Prod.mk.injEq] at hread'
  have hlength := congrArg List.length hread'.2
  rw [List.length_drop, List.length_drop] at hlength
  have hlt := h.lt
  have hlt' := h'.lt
  omega

theorem Trails.parseExpression (h : Trails ts count) :
    Tree.parseExpression ts = .error (.trailingToken (ts.get ⟨count, h.lt⟩).kind
      (ts.get ⟨count, h.lt⟩).span) := by
  obtain ⟨tree, hread⟩ := h.body_eq
  rw [List.drop_eq_getElem_cons h.lt] at hread
  exact parseExpression_of_extra hread

end Trailing

section Cases

variable {ts : List Token} {tree : Tree} {kind : Kind} {span : Span}

/-- The four ways in which reading an expression can end. -/
theorem parseExpression_cases (ts : List Token) :
    (∃ tree, Body ts tree ∧ Tree.parseExpression ts = .ok tree) ∨ (∃ count, Trails ts count) ∨
      (∃ expected span, Tree.parseExpression ts = .error (.unexpectedEnd (some expected) span)) ∨
      ∃ expected found span, Tree.parseExpression ts = .error (.unexpectedToken expected found span) := by
  cases reads_body.outcome ts with
  | @ok front rest tree hts hbody hread =>
    subst hts
    cases rest with
    | nil =>
      have hok := parseExpression_of_ok (hread [] rfl)
      rw [List.append_nil] at hok ⊢
      exact .inl ⟨tree, hbody, hok⟩
    | cons extra rest =>
      refine .inr (.inl ⟨front.length, trails_iff.2 ⟨front, extra, rest, tree, rfl, rfl, hbody, ?_⟩⟩)
      rintro ⟨⟨name, hname, rfl⟩, hopening⟩
      -- only the token behind the body was looked at, and with no more than that the call is unfinished
      have hends := hread [extra] rfl
      rw [List.singleton_append, body_last_open hname hopening] at hends
      cases hends
  | ended hread _ => exact .inr (.inr (.inl ⟨_, _, parseExpression_of_ended hread⟩))
  | refused front hts _ _ hread =>
    rw [hts]
    exact .inr (.inr (.inr ⟨_, _, _, parseExpression_of_refused (hread _)⟩))

theorem parseExpression_eq_ok_iff :
    Tree.parseExpression ts = .ok tree ↔ Body ts tree ∧ ¬IsLoneName ts := by
  constructor
  · intro h
    have hlone : ¬IsLoneName ts := by
      rintro ⟨token, htoken, rfl⟩
      rw [parseExpression_name htoken] at h
      cases h
    obtain ⟨read, hbody, hread⟩ | ⟨count, htrails⟩ | ⟨_, _, hread⟩ | ⟨_, _, _, hread⟩ :=
      parseExpression_cases ts
    · rw [hread, Except.ok.injEq] at h
      exact ⟨h ▸ hbody, hlone⟩
    · simp [htrails.parseExpression] at h
    · simp [hread] at h
    · simp [hread] at h
  · rintro ⟨hbody, hlone⟩
    exact hbody.parseExpression_of_not_loneName hlone

theorem parseExpression_eq_trailingToken_iff :
    Tree.parseExpression ts = .error (.trailingToken kind span) ↔ ∃ count, Trails ts count ∧
      ∃ hlt : count < ts.length, ts[count].kind = kind ∧ ts[count].span = span := by
  constructor
  · intro h
    obtain ⟨_, _, hread⟩ | ⟨count, htrails⟩ | ⟨_, _, hread⟩ | ⟨_, _, _, hread⟩ :=
      parseExpression_cases ts
    · simp [hread] at h
    · rw [htrails.parseExpression] at h
      cases h
      exact ⟨count, htrails, htrails.lt, rfl, rfl⟩
    · simp [hread] at h
    · simp [hread] at h
  · rintro ⟨count, htrails, hlt, rfl, rfl⟩
    exact htrails.parseExpression

/-- Tokens that are neither an expression nor one with something behind it. -/
theorem parseExpression_of_neither (hbody : IsLoneName ts ∨ ¬∃ tree, Body ts tree)
    (htrails : ¬∃ count, Trails ts count) :
    (∃ expected found span, Tree.parseExpression ts = .error (.unexpectedToken expected found span)) ∨
      ∃ expected span, Tree.parseExpression ts = .error (.unexpectedEnd (some expected) span) := by
  obtain ⟨tree, _, hread⟩ | h | h | h := parseExpression_cases ts
  · obtain ⟨hread, hlone⟩ := parseExpression_eq_ok_iff.1 hread
    exact (hbody.resolve_left hlone ⟨tree, hread⟩).elim
  · exact absurd h htrails
  · exact .inr h
  · exact .inl h

end Cases

/-- An expression is read exactly if all of the tokens are a body and not a lone name, which is reported as
the end of the input.  A token is reported as trailing exactly if it is the one behind a body, where the name
of a call is not taken for a body, and there is at most one such place.  Otherwise a token is refused or
missing. -/
theorem parseExpression_accepts_exactly_bodies (ts : List Token) :
    (∀ tree, Tree.parseExpression ts = .ok tree ↔ Body ts tree ∧ ¬IsLoneName ts) ∧
    (∀ token, token.kind = .identifier → ts = [token] →
      Tree.parseExpression ts = .error (.unexpectedEnd (some .openParen) token.span.behind)) ∧
    (∀ kind span, Tree.parseExpression ts = .error (.trailingToken kind span) ↔
      ∃ count, Trails ts count ∧ ∃ hlt : count < ts.length, ts[count].kind = kind ∧ ts[count].span = span) ∧
    (∀ count count', Trails ts count → Trails ts count' → count = count') ∧
    ((IsLoneName ts ∨ ¬∃ tree, Body ts tree) → (¬∃ count, Trails ts count) →
      (∃ expected found span,
        Tree.parseExpression ts = .error (.unexpectedToken expected found span)) ∨
      ∃ expected span, Tree.parseExpression ts = .error (.unexpectedEnd (some expected) span)) := by
  refine ⟨fun tree ↦ parseExpression_eq_ok_iff, ?_, fun kind span ↦ parseExpression_eq_trailingToken_iff,
    fun _ _ ↦ Trails.unique, parseExpression_of_neither⟩
  rintro token htoken rfl
  exact parseExpression_name htoken

/-- `f` and `f(` are unfinished, `f()` is an expression, and in `f()(` the second parenthesis is trailing. -/
theorem parseExpression_accepts_exactly_bodies_each :
    let name : Token := ⟨.identifier, "f", ⟨0, 1⟩⟩
    let opening : Token := ⟨.openParen, "(", ⟨1, 2⟩⟩
    let call : List Token := [name, opening, ⟨.closeParen, ")", ⟨2, 3⟩⟩]
    let twice : List Token := call ++ [⟨.openParen, "(", ⟨3, 4⟩⟩]
    let tree := Tree.call ⟨"f", ⟨0, 1⟩⟩ [] ⟨0, 3⟩
    Tree.parseExpression [name] = .error (.unexpectedEnd (some .openParen) ⟨1, 1⟩) ∧
    (Body call tree ∧ ¬IsLoneName call ∧ Tree.parseExpression call = .ok tree) ∧
    (Trails twice 3 ∧ (∀ count, Trails twice count → count = 3) ∧
      Tree.parseExpression twice = .error (.trailingToken .openParen ⟨3, 4⟩)) ∧
    (¬∃ tree, Body [name, opening] tree) ∧ (¬∃ count, Trails [name, opening] count) ∧
      ((∃ expected found span, Tree.parseExpression [name, opening] =
          .error (.unexpectedToken expected found span)) ∨
        ∃ expected span, Tree.parseExpression [name, opening] =
          .error (.unexpectedEnd (some expected) span)) := by
  intro name opening call twice tree
  have hbody : Body call tree := .call rfl rfl .nil rfl
  have hlone : ¬IsLoneName call := by simp [hbody.isLoneName_iff, tree, Tree.shape]
  have htrails : Trails twice 3 := by
    refine trails_iff.2 ⟨call, _, [], tree, rfl, rfl, hbody, fun h ↦ hlone h.1⟩
  have hunfinished : Tree.parseExpression [name, opening] =
      .error (.unexpectedEnd (some .closeParen) ⟨2, 2⟩) := rfl
  have hnot : ¬∃ tree, Body [name, opening] tree := by
    rintro ⟨tree, h⟩
    have hname : ¬IsLoneName [name, opening] := by simp [IsLoneName]
    simp [h.parseExpression_of_not_loneName hname] at hunfinished
  have hnone : ¬∃ count, Trails [name, opening] count := by
    rintro ⟨count, h⟩
    simp [h.parseExpression] at hunfinished
  have htwice := parseExpression_accepts_exactly_bodies twice
  exact ⟨(parseExpression_accepts_exactly_bodies [name]).2.1 name rfl rfl,
    ⟨hbody, hlone, ((parseExpression_accepts_exactly_bodies call).1 tree).2 ⟨hbody, hlone⟩⟩,
    ⟨htrails, fun count h ↦ htwice.2.2.2.1 count 3 h htrails,
      (htwice.2.2.1 _ _).2 ⟨3, htrails, htrails.lt, rfl, rfl⟩⟩,
    hnot, hnone, (parseExpression_accepts_exactly_bodies [name, opening]).2.2.2.2 (.inr hnot) hnone⟩

end OneDef.Grammar
