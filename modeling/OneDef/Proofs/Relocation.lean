import OneDef.Proofs.Subtrees

/-!
# Reading tokens at other places

No decision of the reader depends on where a token stands.  Reading tokens whose offsets were changed, in
whatever way, gives the same tree or the same failure with its offsets changed in that way.

Reads are put together one after the other, so the statement is made for a pair of reads and composes along
a sequence of them.  For bodies it is an induction along the run, with the open calls changed as well.
-/

namespace OneDef

def ParseError.mapOffsets (f : Nat → Nat) : ParseError → ParseError
  | unexpectedToken expected found span => .unexpectedToken expected found (span.mapOffsets f)
  | unexpectedEnd expected span => .unexpectedEnd expected (span.mapOffsets f)
  | trailingToken found span => .trailingToken found (span.mapOffsets f)

namespace Parser

variable {α β : Type} {f : Nat → Nat}

def Fault.mapOffsets (f : Nat → Nat) : Fault → Fault
  | endOfInput expected => .endOfInput expected
  | unexpected expected found => .unexpected expected (found.mapOffsets f)

def Failure.mapOffsets (f : Nat → Nat) (failure : Failure) : Failure :=
  ⟨failure.fault.mapOffsets f, failure.rest.map (Token.mapOffsets f)⟩

def OpenCall.mapOffsets (f : Nat → Nat) (pending : OpenCall) : OpenCall :=
  ⟨pending.name.mapOffsets f, pending.args.map (Tree.mapOffsets f)⟩

/-- What was read, with the value changed as given and all offsets in the rest changed. -/
def mapRead (f : Nat → Nat) (g : α → β) :
    Except Failure (α × List Token) → Except Failure (β × List Token)
  | .ok (x, rest) => .ok (g x, rest.map (Token.mapOffsets f))
  | .error failure => .error (failure.mapOffsets f)

/-- The second read does with changed tokens what the first does with the tokens as they are. -/
def Follows (f : Nat → Nat) (g : α → β) (read : List Token → Except Failure (α × List Token))
    (read' : List Token → Except Failure (β × List Token)) : Prop :=
  ∀ ts, read' (ts.map (Token.mapOffsets f)) = mapRead f g (read ts)

theorem Follows.bind {γ δ : Type} {g : α → β} {h : γ → δ}
    {read : List Token → Except Failure (α × List Token)}
    {read' : List Token → Except Failure (β × List Token)}
    {next : α → List Token → Except Failure (γ × List Token)}
    {next' : β → List Token → Except Failure (δ × List Token)}
    (hread : Follows f g read read') (hnext : ∀ x y, y = g x → Follows f h (next x) (next' y)) :
    Follows f h (fun ts ↦ read ts >>= fun found ↦ next found.1 found.2)
      (fun ts ↦ read' ts >>= fun found ↦ next' found.1 found.2) := by
  intro ts
  change (read' (ts.map (Token.mapOffsets f)) >>= fun found ↦ next' found.1 found.2) =
    mapRead f h (read ts >>= fun found ↦ next found.1 found.2)
  rw [hread ts]
  cases read ts with
  | error failure => rfl
  | ok found => exact hnext found.1 (g found.1) rfl found.2

theorem follows_ok {g : α → β} {x : α} {y : β} (h : y = g x) :
    Follows f g (fun ts ↦ .ok (x, ts)) fun ts ↦ .ok (y, ts) := by
  subst h
  exact fun _ ↦ rfl

theorem follows_expect (kind : Kind) : Follows f (Token.mapOffsets f) (expect kind) (expect kind) := by
  intro ts
  cases ts with
  | nil => rfl
  | cons token rest =>
    by_cases h : token.kind = kind
    · rw [expect_found h]
      exact expect_found h
    · rw [expect_refused h]
      exact expect_refused h

section Parameters

theorem follows_moreParams : Follows f (List.map (Ident.mapOffsets f)) moreParams moreParams := by
  intro ts
  induction ts using moreParams.induct with
  | case1 => rfl
  | case2 token hcomma =>
    rw [moreParams_last_comma hcomma]
    exact moreParams_last_comma hcomma
  | case3 comma hcomma param rest hparam ih =>
    rw [moreParams_next hcomma hparam]
    calc
      moreParams (comma.mapOffsets f :: param.mapOffsets f :: rest.map (Token.mapOffsets f))
        = moreParams (rest.map (Token.mapOffsets f)) >>= fun found ↦
          .ok (ident (param.mapOffsets f) :: found.1, found.2) := moreParams_next hcomma hparam
      _ = _ := by
        rw [ih]
        cases moreParams rest <;> rfl
  | case4 comma hcomma param rest hparam =>
    rw [moreParams_not_name hcomma hparam]
    exact moreParams_not_name hcomma hparam
  | case5 token rest hclosing =>
    rw [moreParams_close hclosing]
    exact moreParams_close hclosing
  | case6 token rest hcomma hclosing =>
    rw [moreParams_refused hcomma hclosing]
    exact moreParams_refused hcomma hclosing

theorem follows_params : Follows f (List.map (Ident.mapOffsets f)) params params := by
  intro ts
  cases ts with
  | nil => rfl
  | cons token rest =>
    by_cases hname : token.kind = .identifier
    · rw [params_first hname]
      calc
        params (token.mapOffsets f :: rest.map (Token.mapOffsets f))
          = moreParams (rest.map (Token.mapOffsets f)) >>= fun found ↦
            .ok (ident (token.mapOffsets f) :: found.1, found.2) := params_first hname
        _ = _ := by
          rw [follows_moreParams rest]
          cases moreParams rest <;> rfl
    · by_cases hclosing : token.kind = .closeParen
      · rw [params_close hclosing]
        exact params_close hclosing
      · rw [params_refused hname hclosing]
        exact params_refused hname hclosing

end Parameters

section Bodies

theorem mapOffsets_close (pending : OpenCall) (token : Token) :
    (pending.close token).mapOffsets f = (pending.mapOffsets f).close (token.mapOffsets f) := by
  unfold OpenCall.close
  rw [Tree.mapOffsets, Tree.mapAllOffsets_eq_map, List.map_reverse]
  rfl

-- Induction along the run: each step looks at kinds only, which are the same in both runs.
theorem follows_body_resume (f : Nat → Nat) :
    (∀ calls ts, body (calls.map (OpenCall.mapOffsets f)) (ts.map (Token.mapOffsets f)) =
      mapRead f (Tree.mapOffsets f) (body calls ts)) ∧
    ∀ calls tree ts, resume (calls.map (OpenCall.mapOffsets f)) (tree.mapOffsets f)
      (ts.map (Token.mapOffsets f)) = mapRead f (Tree.mapOffsets f) (resume calls tree ts) := by
  refine body.mutual_induct
    (fun calls ts ↦ body (calls.map (OpenCall.mapOffsets f)) (ts.map (Token.mapOffsets f)) =
      mapRead f (Tree.mapOffsets f) (body calls ts))
    (fun calls tree ts ↦ resume (calls.map (OpenCall.mapOffsets f)) (tree.mapOffsets f)
      (ts.map (Token.mapOffsets f)) = mapRead f (Tree.mapOffsets f) (resume calls tree ts))
    ?nothing ?integer ?lastName ?lastOpening ?callEmpty ?call ?var ?notBody
    ?done ?ended ?comma ?close ?notArgument
  case nothing =>
    intro calls
    rfl
  case integer =>
    intro calls token rest h ih
    rw [Tree.mapOffsets] at ih
    rw [body_integer h, ← ih]
    exact body_integer h
  case lastName =>
    intro calls token h
    rw [body_last_name h]
    exact body_last_name h
  case lastOpening =>
    intro calls token h next hnext
    rw [body_last_open h hnext]
    exact body_last_open h hnext
  case callEmpty =>
    intro calls token h next hnext first rest hfirst ih
    rw [mapOffsets_close] at ih
    rw [body_call_empty h hnext hfirst, ← ih]
    exact body_call_empty h hnext hfirst
  case call =>
    intro calls token h next hnext first rest hfirst ih
    rw [body_call h hnext hfirst, ← ih]
    exact body_call h hnext hfirst
  case var =>
    intro calls token h next rest hnext ih
    rw [Tree.mapOffsets] at ih
    rw [body_var h hnext, ← ih]
    exact body_var h hnext
  case notBody =>
    intro calls token rest hinteger hname
    rw [body_refused hinteger hname]
    exact body_refused hinteger hname
  case done =>
    intro ts tree
    rw [resume_nil]
    exact resume_nil
  case ended =>
    intro tree pending calls
    rfl
  case comma =>
    intro tree pending calls token rest h ih
    rw [resume_comma h, ← ih]
    exact resume_comma h
  case close =>
    intro tree pending calls token rest h ih
    rw [mapOffsets_close] at ih
    rw [resume_close h, ← ih]
    exact resume_close h
  case notArgument =>
    intro tree pending calls token rest hcomma hclose
    rw [resume_refused hcomma hclose]
    exact resume_refused hcomma hclose

theorem follows_body : Follows f (Tree.mapOffsets f) (body []) (body []) :=
  (follows_body_resume f).1 []

end Bodies

theorem follows_definition : Follows f (Tree.mapOffsets f) definition definition := by
  have hreads := (follows_expect .defWord).bind fun first first' hfirst ↦
    (follows_expect .identifier).bind fun name name' hname ↦
    (follows_expect .openParen).bind fun _ _ _ ↦
    follows_params.bind fun params params' hparams ↦
    follows_body.bind fun body body' hbody ↦
    (follows_expect .endWord).bind fun last last' hlast ↦
      follows_ok (g := Tree.mapOffsets f)
        (x := .define (ident name) params body (first.span.join last.span))
        (y := .define (ident name') params' body' (first'.span.join last'.span))
        (by rw [hfirst, hname, hparams, hbody, hlast, Tree.mapOffsets]; rfl)
  exact hreads

/-- The end of the input moves with the last token.  Without a token it lies at the beginning. -/
theorem endSpan_map (hzero : f 0 = 0) (ts : List Token) :
    endSpan (ts.map (Token.mapOffsets f)) = (endSpan ts).mapOffsets f := by
  unfold endSpan
  rw [List.getLast?_map]
  cases ts.getLast? with
  | none =>
    change (⟨0, 0⟩ : Span) = ⟨f 0, f 0⟩
    rw [hzero]
  | some token => rfl

theorem toError_mapOffsets (failure : Failure) (endOfInput : Span) :
    (failure.mapOffsets f).toError (endOfInput.mapOffsets f) =
      (failure.toError endOfInput).mapOffsets f := by
  obtain ⟨fault, rest⟩ := failure
  cases fault <;> rfl

end Parser

namespace Tree

variable {f : Nat → Nat}

theorem parse_map (hzero : f 0 = 0) (ts : List Token) :
    parse (ts.map (Token.mapOffsets f)) =
      ((parse ts).map (mapOffsets f)).mapError (ParseError.mapOffsets f) := by
  unfold parse parseFront
  rw [Parser.follows_definition ts, Parser.endSpan_map hzero]
  cases Parser.definition ts with
  | error failure => exact congrArg Except.error (Parser.toError_mapOffsets failure _)
  | ok found => rfl

theorem parseExpression_map (hzero : f 0 = 0) (ts : List Token) :
    parseExpression (ts.map (Token.mapOffsets f)) =
      ((parseExpression ts).map (mapOffsets f)).mapError (ParseError.mapOffsets f) := by
  unfold parseExpression
  rw [Parser.follows_body ts, Parser.endSpan_map hzero]
  cases Parser.body [] ts with
  | error failure => exact congrArg Except.error (Parser.toError_mapOffsets failure _)
  | ok found =>
    obtain ⟨tree, rest⟩ := found
    cases rest <;> rfl

end Tree

end OneDef
