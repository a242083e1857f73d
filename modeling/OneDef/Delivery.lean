import OneDef.Channel
import OneDef.Program

/-!
# Compiling from a reader to a writer

The source is read completely before it is compiled, and nothing is written unless it compiles.
-/

namespace OneDef

/-- Compiles what the reader gives and sends the program, ended by a line feed, to the writer. -/
def deliver (reader : Reader) (writer : Writer) : Sent (Verdict CompileError Unit) :=
  match reader.text with
  | .error error => ⟨[], 0, 0, .error (.io error)⟩
  | .ok source =>
    match compile source with
    | .error error => ⟨[], 0, 0, .error error⟩
    | .endless => ⟨[], 0, 0, .endless⟩
    | .ok program =>
      let sent := writer.send (program ++ "\n")
      ⟨sent.taken, sent.writes, sent.flushes, .ofExcept (sent.result.mapError .io)⟩

end OneDef
