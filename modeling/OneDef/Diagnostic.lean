import OneDef.Error
import OneDef.LineMap

/-!
# Diagnostics

An error is shown in one line of its own, and a second line says where it lies, if it has a place.
-/

namespace OneDef.Diagnostic

/-- The line that points at a span of a source. -/
def location (source : String) (span : Span) : String :=
  let position := (LineMap.ofSource source).position span.start
  "  --> <input>:" ++ toString position.line ++ ":" ++ toString position.column ++
    " [" ++ toString span.start ++ ".." ++ toString span.stop ++ "]\n"

def render (source : String) (error : CompileError) : String :=
  "error: " ++ error.message ++ "\n" ++
    match error.span? with
    | some span => location source span
    | none => ""

end OneDef.Diagnostic
