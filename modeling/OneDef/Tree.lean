import OneDef.Span

/-!
# Syntax trees

A tree is a definition, a call, a variable or an integer.  A definition is only meaningful at the
root, but the type admits one anywhere.
-/

namespace OneDef

/-- A name as it was read, with the place it was read from. -/
structure Ident where
  text : String
  span : Span
  deriving DecidableEq

inductive Tree where
  | define (name : Ident) (params : List Ident) (body : Tree) (span : Span)
  | call (name : Ident) (args : List Tree) (span : Span)
  | var (name : Ident)
  | int (value : String) (span : Span)

/-- What a tree is at its root. -/
inductive Shape where
  | define
  | call
  | var
  | int
  deriving DecidableEq

def Shape.name : Shape → String
  | define => "def"
  | call => "call"
  | var => "var"
  | int => "int"

namespace Tree

def shape : Tree → Shape
  | define .. => .define
  | call .. => .call
  | var .. => .var
  | int .. => .int

def span : Tree → Span
  | define _ _ _ span => span
  | call _ _ span => span
  | var name => name.span
  | int _ span => span

mutual

def decEq : (s t : Tree) → Decidable (s = t)
  | .define n ps b sp, .define n' ps' b' sp' =>
    match decEq b b' with
    | isTrue hb => decidable_of_iff (n = n' ∧ ps = ps' ∧ sp = sp') (by simp [hb])
    | isFalse hb => isFalse (by simp [hb])
  | .call n as sp, .call n' as' sp' =>
    match decEqAll as as' with
    | isTrue ha => decidable_of_iff (n = n' ∧ sp = sp') (by simp [ha])
    | isFalse ha => isFalse (by simp [ha])
  | .var n, .var n' => decidable_of_iff (n = n') (by simp)
  | .int v sp, .int v' sp' => decidable_of_iff (v = v' ∧ sp = sp') (by simp)
  | .define .., .call .. => isFalse (by simp)
  | .define .., .var .. => isFalse (by simp)
  | .define .., .int .. => isFalse (by simp)
  | .call .., .define .. => isFalse (by simp)
  | .call .., .var .. => isFalse (by simp)
  | .call .., .int .. => isFalse (by simp)
  | .var .., .define .. => isFalse (by simp)
  | .var .., .call .. => isFalse (by simp)
  | .var .., .int .. => isFalse (by simp)
  | .int .., .define .. => isFalse (by simp)
  | .int .., .call .. => isFalse (by simp)
  | .int .., .var .. => isFalse (by simp)

def decEqAll : (ss ts : List Tree) → Decidable (ss = ts)
  | [], [] => isTrue rfl
  | [], _ :: _ => isFalse (by simp)
  | _ :: _, [] => isFalse (by simp)
  | s :: ss, t :: ts =>
    match decEq s t, decEqAll ss ts with
    | isTrue h, isTrue hs => isTrue (by simp [h, hs])
    | isFalse h, _ => isFalse (by simp [h])
    | _, isFalse hs => isFalse (by simp [hs])

end

instance : DecidableEq Tree := decEq

end Tree

end OneDef
