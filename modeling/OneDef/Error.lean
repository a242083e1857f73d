import OneDef.Token
import OneDef.Tree
import OneDef.Text.Quoted

/-!
# Errors

Each error is a cause: what was met, what would have been right, and where.  Its wording is one
function of the cause.

Work on a source may also go on forever, which is no error: nobody is told.  A verdict keeps the two
apart.
-/

namespace OneDef

inductive LexError where
  /-- No token starts at the remaining text. -/
  | noMatch (remainder : String) (span : Span)
  deriving DecidableEq

inductive ParseError where
  | unexpectedToken (expected found : Kind) (span : Span)
  | unexpectedEnd (expected : Option Kind) (span : Span)
  /-- An expression is complete, and more follows. -/
  | trailingToken (found : Kind) (span : Span)
  deriving DecidableEq

inductive GenerateError where
  | unexpectedNode (shape : Shape) (span : Span)
  deriving DecidableEq

/-- A failure of reading or writing. -/
inductive IoError where
  /-- A failure in its own words. -/
  | failed (text : String)
  | notUtf8
  /-- A writer took no bytes though some were offered. -/
  | writeZero
  /-- A failure reported by the operating system. -/
  | system (code : Nat) (text : String)
  deriving DecidableEq

inductive CompileError where
  | lex (error : LexError)
  | parse (error : ParseError)
  | generate (error : GenerateError)
  | io (error : IoError)
  deriving DecidableEq

namespace LexError

def message : LexError → String
  | noMatch remainder _ => "couldn't match token on " ++ Text.quote remainder

def span : LexError → Span
  | noMatch _ span => span

end LexError

namespace ParseError

def message : ParseError → String
  | unexpectedToken expected found _ =>
    "expected token " ++ expected.name ++ " but got " ++ found.name
  | unexpectedEnd none _ => "unexpected end of input"
  | unexpectedEnd (some expected) _ => "unexpected end of input, expected " ++ expected.name
  | trailingToken found _ => "unexpected token " ++ found.name ++ " after expression"

def span : ParseError → Span
  | unexpectedToken _ _ span => span
  | unexpectedEnd _ span => span
  | trailingToken _ span => span

end ParseError

namespace GenerateError

def message : GenerateError → String
  | unexpectedNode shape _ => "unexpected node type " ++ shape.name

def span : GenerateError → Span
  | unexpectedNode _ span => span

end GenerateError

namespace IoError

def message : IoError → String
  | failed text => text
  | notUtf8 => "stream did not contain valid UTF-8"
  | writeZero => "failed to write whole buffer"
  | system code text => text ++ " (os error " ++ toString code ++ ")"

end IoError

namespace CompileError

def message : CompileError → String
  | lex error => error.message
  | parse error => error.message
  | generate error => error.message
  | io error => "i/o error: " ++ error.message

/-- Where the error lies in the source; reading and writing have no place there. -/
def span? : CompileError → Option Span
  | lex error => some error.span
  | parse error => some error.span
  | generate error => some error.span
  | io _ => none

end CompileError

/-- What comes of work on a source. -/
inductive Verdict (ε α : Type) where
  | ok (value : α)
  | error (error : ε)
  /-- The work never ends. -/
  | endless
  deriving DecidableEq

namespace Verdict

variable {ε δ α β : Type}

def map (f : α → β) : Verdict ε α → Verdict ε β
  | ok value => ok (f value)
  | error cause => error cause
  | endless => endless

def mapError (f : ε → δ) : Verdict ε α → Verdict δ α
  | ok value => ok value
  | error cause => error (f cause)
  | endless => endless

/-- Work that goes on from the value of other work. -/
def bind : Verdict ε α → (α → Verdict ε β) → Verdict ε β
  | ok value, next => next value
  | error cause, _ => error cause
  | endless, _ => endless

instance : Monad (Verdict ε) where
  pure := ok
  bind := bind

/-- Work that always ends. -/
def ofExcept : Except ε α → Verdict ε α
  | .ok value => ok value
  | .error cause => error cause

section Maps

variable {f : α → β} {g : ε → δ} {verdict : Verdict ε α}

theorem map_eq_ok_iff {value : β} : verdict.map f = ok value ↔ ∃ a, verdict = ok a ∧ f a = value := by
  cases verdict <;> simp [map]

theorem map_eq_error_iff {cause : ε} : verdict.map f = error cause ↔ verdict = error cause := by
  cases verdict <;> simp [map]

theorem map_eq_endless_iff : verdict.map f = endless ↔ verdict = endless := by
  cases verdict <;> simp [map]

theorem mapError_eq_error_iff {cause : δ} :
    verdict.mapError g = error cause ↔ ∃ e, verdict = error e ∧ g e = cause := by
  cases verdict <;> simp [mapError]

theorem mapError_eq_endless_iff : verdict.mapError g = endless ↔ verdict = endless := by
  cases verdict <;> simp [mapError]

end Maps

end Verdict

end OneDef
