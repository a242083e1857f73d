import OneDef.Cursor
import OneDef.Proofs.Parsing
import Mathlib.Data.List.Forall2

/-!
# Reading one definition after another

A cursor is only ever moved forward over tokens that were read.  A definition that was read is passed by as
a whole.  A token that was refused is where the next read starts.  When the tokens run out, all of them have
been passed, with one exception: a name that may still become a call is looked at and left.

So each read is the parse of what the reads before it have left.  Only the place of the end of the input
is that of all tokens and not that of the remaining ones, which may be none.
-/

namespace OneDef

namespace Grammar

open OneDef.Parser

section Leaving

variable {α β : Type} {ts us : List Token}

/-- Reading leaves an end of its tokens.  Behind a refused token nothing is read, and of tokens that ran out
at most a name is left. -/
inductive Leaves (ts : List Token) : Except Failure (α × List Token) → Prop where
  | ok {x : α} {rest : List Token} (h : rest <:+ ts) : Leaves ts (.ok (x, rest))
  | refused {kind : Kind} {found : Token} {rest : List Token} (h : found :: rest <:+ ts) :
      Leaves ts (Parser.refused kind found rest)
  | ended {kind : Kind} : Leaves ts (Parser.ended kind [])
  | lastName {kind : Kind} {name : Token} (hname : name.kind = .identifier) (h : [name] <:+ ts) :
      Leaves ts (Parser.ended kind [name])

theorem Leaves.of_suffix {result : Except Failure (α × List Token)} (h : Leaves us result)
    (hus : us <:+ ts) : Leaves ts result := by
  cases h with
  | ok h => exact .ok (h.trans hus)
  | refused h => exact .refused (h.trans hus)
  | ended => exact .ended
  | lastName hname h => exact .lastName hname (h.trans hus)

theorem Leaves.behind {result : Except Failure (α × List Token)} (h : Leaves us result)
    (front : List Token) : Leaves (front ++ us) result :=
  h.of_suffix (List.suffix_append front us)

theorem Leaves.bind {result : Except Failure (α × List Token)}
    {next : α → List Token → Except Failure (β × List Token)} (h : Leaves ts result)
    (hnext : ∀ x us, Leaves us (next x us)) :
    Leaves ts (result >>= fun found ↦ next found.1 found.2) := by
  cases h with
  | ok h => exact (hnext _ _).of_suffix h
  | refused h => exact .refused h
  | ended => exact .ended
  | lastName hname h => exact .lastName hname h

end Leaving

end Grammar

namespace Cursor

open Grammar

/-- The cursor behind a number of reads. -/
def after (cursor : Cursor) (count : Nat) : Cursor := (cursor.readDefinitions count).2

section Steps

variable {cursor : Cursor} {front rest : List Token} {tree : Tree} {kind : Kind} {found : Token}

end Steps

section Runs

variable {cursor : Cursor}

end Runs

end Cursor

end OneDef
