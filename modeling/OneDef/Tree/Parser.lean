import OneDef.Error
import OneDef.Numeral

/-!
# Reading trees from tokens

A definition is `def name(p, …) body end`, and a body is an integer, a name, or a name applied to
bodies.  Reading goes through the tokens once, from left to right.  The calls whose closing
parenthesis has not come yet wait on a stack, so each step consumes a token and the recursion is on
the tokens.

A name in a body is a variable only if the token behind it is known not to open an argument list, so
a name that is the very last token is reported as the end of the input.

A failed read tells which tokens it left: all from the offending one on.
-/

namespace OneDef.Parser

/-- Why reading cannot go on: the kind of token that would have let it, and what stood there. -/
inductive Fault where
  | endOfInput (expected : Kind)
  | unexpected (expected : Kind) (found : Token)
  deriving DecidableEq

structure Failure where
  fault : Fault
  rest : List Token
  deriving DecidableEq

/-- A value with the tokens behind it, or a failure. -/
abbrev Result (α : Type) := Except Failure (α × List Token)

def ended {α : Type} (expected : Kind) (rest : List Token) : Result α :=
  .error ⟨.endOfInput expected, rest⟩

def refused {α : Type} (expected : Kind) (found : Token) (rest : List Token) : Result α :=
  .error ⟨.unexpected expected found, found :: rest⟩

def ident (token : Token) : Ident := ⟨token.text, token.span⟩

def expect (kind : Kind) : List Token → Result Token
  | [] => ended kind []
  | token :: rest => if token.kind = kind then .ok (token, rest) else refused kind token rest

/-- The parameters behind one that was just read, with the closing parenthesis. -/
def moreParams : List Token → Except Failure (List Ident × List Token)
  | [] => ended .comma []
  | token :: rest =>
    match token.kind with
    | .comma =>
      match rest with
      | [] => ended .identifier []
      | param :: rest =>
        if param.kind = .identifier then do
          let (others, rest) ← moreParams rest
          return (ident param :: others, rest)
        else refused .identifier param rest
    | .closeParen => .ok ([], rest)
    | _ => refused .closeParen token rest

/-- The parameters behind the opening parenthesis, with the closing one. -/
def params : List Token → Except Failure (List Ident × List Token)
  | [] => ended .identifier []
  | token :: rest =>
    match token.kind with
    | .identifier => do
      let (others, rest) ← moreParams rest
      return (ident token :: others, rest)
    | .closeParen => .ok ([], rest)
    | _ => refused .closeParen token rest

/-- A call whose arguments are being read, the latest first. -/
structure OpenCall where
  name : Ident
  args : List Tree

namespace OpenCall

def push (pending : OpenCall) (arg : Tree) : OpenCall := ⟨pending.name, arg :: pending.args⟩

def close (pending : OpenCall) (token : Token) : Tree :=
  .call pending.name pending.args.reverse (pending.name.span.join token.span)

end OpenCall

mutual

/-- Reads a body, then goes on with the innermost open call. -/
def body (calls : List OpenCall) : List Token → Result Tree
  | [] => ended .integer []
  | token :: rest =>
    match token.kind with
    | .integer => resume calls (.int (Numeral.canonical token.text) token.span) rest
    | .identifier =>
      match rest with
      | [] => ended .openParen [token]
      | next :: rest =>
        if next.kind = .openParen then
          match rest with
          | [] => ended .closeParen []
          | first :: rest =>
            if first.kind = .closeParen then
              resume calls (OpenCall.close ⟨ident token, []⟩ first) rest
            else body (⟨ident token, []⟩ :: calls) (first :: rest)
        else resume calls (.var (ident token)) (next :: rest)
    | _ => refused .identifier token rest

/-- Goes on behind a complete body: it is the result, or the latest argument of the innermost
open call. -/
def resume (calls : List OpenCall) (tree : Tree) (tokens : List Token) : Result Tree :=
  match calls with
  | [] => .ok (tree, tokens)
  | pending :: calls =>
    match tokens with
    | [] => ended .comma []
    | token :: rest =>
      match token.kind with
      | .comma => body (pending.push tree :: calls) rest
      | .closeParen => resume calls ((pending.push tree).close token) rest
      | _ => refused .closeParen token rest

end

section Steps

variable {calls : List OpenCall} {pending : OpenCall} {tree : Tree}
  {token next first : Token} {rest : List Token}

-- Each step holds by computation as soon as the kind of the token is known.

theorem expect_found {kind : Kind} (h : token.kind = kind) :
    expect kind (token :: rest) = .ok (token, rest) := if_pos h

theorem expect_refused {kind : Kind} (h : token.kind ≠ kind) :
    expect kind (token :: rest) = refused kind token rest := if_neg h

theorem moreParams_next (h : token.kind = .comma) (hnext : next.kind = .identifier) :
    moreParams (token :: next :: rest) =
      moreParams rest >>= fun found ↦ .ok (ident next :: found.1, found.2) := by
  obtain ⟨kind, text, span⟩ := token
  cases h
  exact if_pos hnext

theorem moreParams_last_comma (h : token.kind = .comma) :
    moreParams [token] = ended .identifier [] := by
  obtain ⟨kind, text, span⟩ := token
  cases h
  rfl

theorem moreParams_not_name (h : token.kind = .comma) (hnext : next.kind ≠ .identifier) :
    moreParams (token :: next :: rest) = refused .identifier next rest := by
  obtain ⟨kind, text, span⟩ := token
  cases h
  exact if_neg hnext

theorem moreParams_close (h : token.kind = .closeParen) :
    moreParams (token :: rest) = .ok ([], rest) := by
  obtain ⟨kind, text, span⟩ := token
  cases h
  rfl

theorem moreParams_refused (hcomma : token.kind ≠ .comma) (hclose : token.kind ≠ .closeParen) :
    moreParams (token :: rest) = refused .closeParen token rest := by
  obtain ⟨kind, text, span⟩ := token
  cases kind with
  | comma => exact absurd rfl hcomma
  | closeParen => exact absurd rfl hclose
  | defWord | endWord | identifier | integer | openParen => rfl

theorem params_first (h : token.kind = .identifier) :
    params (token :: rest) =
      moreParams rest >>= fun found ↦ .ok (ident token :: found.1, found.2) := by
  obtain ⟨kind, text, span⟩ := token
  cases h
  rfl

theorem params_close (h : token.kind = .closeParen) : params (token :: rest) = .ok ([], rest) := by
  obtain ⟨kind, text, span⟩ := token
  cases h
  rfl

theorem params_refused (hname : token.kind ≠ .identifier) (hclose : token.kind ≠ .closeParen) :
    params (token :: rest) = refused .closeParen token rest := by
  obtain ⟨kind, text, span⟩ := token
  cases kind with
  | identifier => exact absurd rfl hname
  | closeParen => exact absurd rfl hclose
  | defWord | endWord | integer | openParen | comma => rfl

theorem body_end : body calls [] = ended .integer [] := rfl

theorem body_integer (h : token.kind = .integer) :
    body calls (token :: rest) =
      resume calls (.int (Numeral.canonical token.text) token.span) rest := by
  obtain ⟨kind, text, span⟩ := token
  cases h
  rfl

theorem body_last_name (h : token.kind = .identifier) :
    body calls [token] = ended .openParen [token] := by
  obtain ⟨kind, text, span⟩ := token
  cases h
  rfl

theorem body_var (h : token.kind = .identifier) (hnext : next.kind ≠ .openParen) :
    body calls (token :: next :: rest) = resume calls (.var (ident token)) (next :: rest) := by
  -- the rest of the tokens is looked at twice, and computation stops at the unknown calls
  rw [body.eq_def]
  simp only [h, if_neg hnext]

theorem body_last_open (h : token.kind = .identifier) (hnext : next.kind = .openParen) :
    body calls [token, next] = ended .closeParen [] := by
  obtain ⟨kind, text, span⟩ := token
  cases h
  exact if_pos hnext

theorem body_call_empty (h : token.kind = .identifier) (hnext : next.kind = .openParen)
    (hfirst : first.kind = .closeParen) :
    body calls (token :: next :: first :: rest) =
      resume calls (OpenCall.close ⟨ident token, []⟩ first) rest := by
  obtain ⟨kind, text, span⟩ := token
  cases h
  exact (if_pos hnext).trans (if_pos hfirst)

theorem body_call (h : token.kind = .identifier) (hnext : next.kind = .openParen)
    (hfirst : first.kind ≠ .closeParen) :
    body calls (token :: next :: first :: rest) =
      body (⟨ident token, []⟩ :: calls) (first :: rest) := by
  obtain ⟨kind, text, span⟩ := token
  cases h
  exact (if_pos hnext).trans (if_neg hfirst)

theorem body_refused (hinteger : token.kind ≠ .integer) (hname : token.kind ≠ .identifier) :
    body calls (token :: rest) = refused .identifier token rest := by
  obtain ⟨kind, text, span⟩ := token
  cases kind with
  | integer => exact absurd rfl hinteger
  | identifier => exact absurd rfl hname
  | defWord | endWord | openParen | closeParen | comma => rfl

theorem resume_nil {tokens : List Token} : resume [] tree tokens = .ok (tree, tokens) := by
  cases tokens <;> rfl

theorem resume_end : resume (pending :: calls) tree [] = ended .comma [] := rfl

theorem resume_comma (h : token.kind = .comma) :
    resume (pending :: calls) tree (token :: rest) = body (pending.push tree :: calls) rest := by
  obtain ⟨kind, text, span⟩ := token
  cases h
  rfl

theorem resume_close (h : token.kind = .closeParen) :
    resume (pending :: calls) tree (token :: rest) =
      resume calls ((pending.push tree).close token) rest := by
  obtain ⟨kind, text, span⟩ := token
  cases h
  rfl

theorem resume_refused (hcomma : token.kind ≠ .comma) (hclose : token.kind ≠ .closeParen) :
    resume (pending :: calls) tree (token :: rest) = refused .closeParen token rest := by
  obtain ⟨kind, text, span⟩ := token
  cases kind with
  | comma => exact absurd rfl hcomma
  | closeParen => exact absurd rfl hclose
  | defWord | endWord | identifier | integer | openParen => rfl

end Steps

/-- Reads a definition from the front of the tokens. -/
def definition (tokens : List Token) : Except Failure (Tree × List Token) := do
  let (opening, tokens) ← expect .defWord tokens
  let (name, tokens) ← expect .identifier tokens
  let (_, tokens) ← expect .openParen tokens
  let (params, tokens) ← params tokens
  let (body, tokens) ← body [] tokens
  let (closing, tokens) ← expect .endWord tokens
  return (.define (ident name) params body (opening.span.join closing.span), tokens)

/-- The empty span behind the last token, at the beginning if there is none. -/
def endSpan (tokens : List Token) : Span :=
  match tokens.getLast? with
  | none => Span.emptyAt 0
  | some token => token.span.behind

/-- The error that a failure is when the input ends at a span. -/
def Failure.toError (failure : Failure) (endOfInput : Span) : ParseError :=
  match failure.fault with
  | .endOfInput expected => .unexpectedEnd (some expected) endOfInput
  | .unexpected expected found => .unexpectedToken expected found.kind found.span

end OneDef.Parser

namespace OneDef.Tree

/-- The definition at the front of the tokens, and the tokens behind it. -/
def parseFront (tokens : List Token) : Except ParseError (Tree × List Token) :=
  (Parser.definition tokens).mapError (·.toError (Parser.endSpan tokens))

/-- The definition at the front of the tokens, whatever stands behind it. -/
def parse (tokens : List Token) : Except ParseError Tree := (parseFront tokens).map Prod.fst

/-- The body that the tokens are, with nothing behind it. -/
def parseExpression (tokens : List Token) : Except ParseError Tree :=
  match Parser.body [] tokens with
  | .ok (tree, []) => .ok tree
  | .ok (_, extra :: _) => .error (.trailingToken extra.kind extra.span)
  | .error failure => .error (failure.toError (Parser.endSpan tokens))

end OneDef.Tree
