import OneDef.Proofs.Outcome
import Mathlib.Order.Bounds.Basic

/-!
# What parsing accepts, and what its errors say

Parsing accepts the lists of tokens that begin with a definition of the grammar, and no others.  The
definition at the front is unique, and so is its tree.

An error is exact in the sense of valid prefixes.  All tokens in front of the one that is refused can be
continued to a definition, and with the refused one they no longer can.  The expected kind of an error is
always one that can stand at that place.
-/

namespace OneDef.Grammar

open OneDef.Parser

variable {ts rest : List Token} {tree : Tree} {kind : Kind} {found : Token}

theorem parse_of_ok (h : definition ts = .ok (tree, rest)) : Tree.parse ts = .ok tree := by
  rw [Tree.parse, Tree.parseFront, h]
  rfl

theorem parse_of_ended (h : definition ts = ended kind rest) :
    Tree.parse ts = .error (.unexpectedEnd (some kind) (endSpan ts)) := by
  rw [Tree.parse, Tree.parseFront, h]
  rfl

theorem parse_of_refused (h : definition ts = refused kind found rest) :
    Tree.parse ts = .error (.unexpectedToken kind found.kind found.span) := by
  rw [Tree.parse, Tree.parseFront, h]
  rfl

theorem Definition.parse_of_prefix {front : List Token} (h : Definition front tree)
    (hts : front <+: ts) : Tree.parse ts = .ok tree := by
  obtain ⟨rest, rfl⟩ := hts
  exact parse_of_ok (h.definition_append rest)

theorem exists_definition_of_parse (h : Tree.parse ts = .ok tree) :
    ∃ front, front <+: ts ∧ Definition front tree := by
  cases reads_definition.outcome ts with
  | @ok front rest found hts hdefinition hread =>
    rw [hts, parse_of_ok (hread rest rfl), Except.ok.injEq] at h
    obtain rfl := h
    exact ⟨front, ⟨rest, hts.symm⟩, hdefinition⟩
  | ended hread _ => simp [parse_of_ended hread] at h
  | refused front hts _ _ hread =>
    rw [hts] at h
    simp [parse_of_refused (hread _)] at h

/-- Parsing succeeds exactly on the tokens that begin with a definition of the grammar, and gives the
tree of the derivation.  Among the beginnings of the tokens at most one is a definition, with one tree. -/
theorem parse_accepts_exactly_grammar (ts : List Token) :
    (∀ tree, Tree.parse ts = .ok tree ↔ ∃ front, front <+: ts ∧ Definition front tree) ∧
      ∀ front front' tree tree', front <+: ts → front' <+: ts → Definition front tree →
        Definition front' tree' → front = front' ∧ tree = tree' := by
  refine ⟨fun tree ↦ ⟨exists_definition_of_parse, ?_⟩, ?_⟩
  · rintro ⟨front, hfront, hdefinition⟩
    exact hdefinition.parse_of_prefix hfront
  · intro front front' tree tree' hfront hfront' h h'
    exact h.unique_of_prefix h' hfront hfront'

/-- The offset behind the last token; zero if there is none. -/
def endOffset (ts : List Token) : Nat := (ts.getLast?.map fun token ↦ token.span.stop).getD 0

theorem endSpan_eq (ts : List Token) : endSpan ts = ⟨endOffset ts, endOffset ts⟩ := by
  unfold endSpan endOffset
  cases ts.getLast? <;> rfl

/-- No beginning of the tokens is a definition. -/
def Unfinished (ts : List Token) : Prop := ∀ front tree, front <+: ts → ¬Definition front tree

theorem unfinished_of_error {error : ParseError} (h : Tree.parse ts = .error error) :
    Unfinished ts := by
  intro front tree hfront hdefinition
  rw [hdefinition.parse_of_prefix hfront] at h
  cases h

theorem Unfinished.parse_of_viable (h : Unfinished ts) (hviable : Viable ts) :
    ∃ kind, Tree.parse ts =
        .error (.unexpectedEnd (some kind) ⟨endOffset ts, endOffset ts⟩) ∧
      ∀ token, token.kind = kind → Viable (ts ++ [token]) := by
  cases reads_definition.outcome ts with
  | ok front hts hdefinition _ => exact absurd hdefinition (h front _ ⟨_, hts.symm⟩)
  | @ended kind _ hread hnext =>
    refine ⟨kind, ?_, hnext⟩
    rw [parse_of_ended hread, endSpan_eq]
  | refused front hts _ _ hread =>
    rw [hts] at hviable
    exact absurd hviable (not_viable_of_refused hread)

theorem isLeast_not_viable {front : List Token} (hfront : Viable front)
    (hfound : ¬Viable (front ++ [found])) :
    IsLeast {i | ¬Viable ((front ++ found :: rest).take (i + 1))} front.length := by
  constructor
  · change ¬Viable ((front ++ found :: rest).take (front.length + 1))
    rwa [List.take_length_add_append]
  · intro i hi
    by_contra hlt
    have hle : i + 1 ≤ front.length := by omega
    change ¬Viable ((front ++ found :: rest).take (i + 1)) at hi
    rw [List.take_append_of_le_length hle] at hi
    rw [← List.take_append_drop (i + 1) front] at hfront
    exact hi hfront.of_append

theorem Unfinished.parse_of_not_viable (h : Unfinished ts) (hviable : ¬Viable ts) :
    ∃ i, ∃ hi : i < ts.length, IsLeast {i | ¬Viable (ts.take (i + 1))} i ∧
      ∃ kind, Tree.parse ts = .error (.unexpectedToken kind ts[i].kind ts[i].span) ∧
        kind ≠ ts[i].kind ∧ ∀ token, token.kind = kind → Viable (ts.take i ++ [token]) := by
  cases reads_definition.outcome ts with
  | ok front hts hdefinition _ => exact absurd hdefinition (h front _ ⟨_, hts.symm⟩)
  | @ended kind _ hread hnext =>
    exact absurd (hnext (sample kind) rfl).of_append hviable
  | @refused front rest found kind hts hkind hnext hread =>
    subst hts
    have hfront : Viable front := (hnext (sample kind) rfl).of_append
    have hi : front.length < (front ++ found :: rest).length := by simp
    have hget : (front ++ found :: rest)[front.length] = found := by simp
    refine ⟨front.length, hi, isLeast_not_viable hfront (not_viable_of_refused hread), kind, ?_⟩
    rw [hget, List.take_left]
    exact ⟨parse_of_refused (hread rest), hkind.symm, hnext⟩

theorem parse_ne_trailingToken (ts : List Token) (kind : Kind) (span : Span) :
    Tree.parse ts ≠ .error (.trailingToken kind span) := by
  intro h
  cases reads_definition.outcome ts with
  | ok front hts _ hread => simp [hts, parse_of_ok (hread _ rfl)] at h
  | ended hread _ => simp [parse_of_ended hread] at h
  | refused front hts _ _ hread => simp [hts, parse_of_refused (hread _)] at h

/-- Tokens without a definition at their front either can be continued to one, and then parsing asks at
the end of the input for a kind that goes on, or their first token that cannot be continued is reported,
with a kind that could have stood in its place.  Nothing is ever reported as trailing. -/
theorem parse_error_is_exact (ts : List Token) :
    (Unfinished ts →
      (Viable ts → ∃ kind, Tree.parse ts =
          .error (.unexpectedEnd (some kind) ⟨endOffset ts, endOffset ts⟩) ∧
        ∀ token, token.kind = kind → Viable (ts ++ [token])) ∧
      (¬Viable ts → ∃ i, ∃ hi : i < ts.length, IsLeast {i | ¬Viable (ts.take (i + 1))} i ∧
        ∃ kind, Tree.parse ts = .error (.unexpectedToken kind ts[i].kind ts[i].span) ∧
          kind ≠ ts[i].kind ∧ ∀ token, token.kind = kind → Viable (ts.take i ++ [token]))) ∧
      ∀ kind span, Tree.parse ts ≠ .error (.trailingToken kind span) :=
  ⟨fun h ↦ ⟨h.parse_of_viable, h.parse_of_not_viable⟩, parse_ne_trailingToken ts⟩

/-- The tokens of `def f(`. -/
def openedParameters : List Token :=
  [⟨.defWord, "def", ⟨0, 3⟩⟩, ⟨.identifier, "f", ⟨4, 5⟩⟩, ⟨.openParen, "(", ⟨5, 6⟩⟩]

/-- `def f(` can be continued, and `def f(,` cannot. -/
theorem parse_error_is_exact_opened_parameters :
    let ts := openedParameters ++ [⟨.comma, ",", ⟨6, 7⟩⟩]
    (Unfinished openedParameters ∧ Viable openedParameters ∧
      ∃ kind, Tree.parse openedParameters = .error (.unexpectedEnd (some kind) ⟨6, 6⟩) ∧
        ∀ token, token.kind = kind → Viable (openedParameters ++ [token])) ∧
      Unfinished ts ∧ ¬Viable ts ∧
        ∃ i, ∃ hi : i < ts.length, IsLeast {i | ¬Viable (ts.take (i + 1))} i ∧
          ∃ kind, Tree.parse ts = .error (.unexpectedToken kind ts[i].kind ts[i].span) ∧
            kind ≠ ts[i].kind ∧ ∀ token, token.kind = kind → Viable (ts.take i ++ [token]) := by
  intro ts
  have hended : Unfinished openedParameters :=
    unfinished_of_error (show _ = Except.error (.unexpectedEnd (some .identifier) ⟨6, 6⟩) from rfl)
  have hviable : Viable openedParameters :=
    ⟨[sample .closeParen, sample .integer, sample .endWord], _,
      .define rfl rfl rfl .nil rfl (.integer rfl) rfl⟩
  have hrefused : Unfinished ts :=
    unfinished_of_error (show _ = Except.error (.unexpectedToken .closeParen .comma ⟨6, 7⟩) from rfl)
  have hread (more : List Token) : definition (openedParameters ++ ⟨.comma, ",", ⟨6, 7⟩⟩ :: more) =
      refused .closeParen ⟨.comma, ",", ⟨6, 7⟩⟩ more := rfl
  have hnot : ¬Viable ts := not_viable_of_refused hread
  exact ⟨⟨hended, hviable, ((parse_error_is_exact _).1 hended).1 hviable⟩, hrefused, hnot,
    ((parse_error_is_exact ts).1 hrefused).2 hnot⟩

end OneDef.Grammar
