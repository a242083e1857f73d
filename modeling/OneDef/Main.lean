import OneDef.Command.Session

/-!
# The command

The program of `Session` in the surroundings that the system provides.
-/

namespace OneDef.Shell

/-- A failure of the system as the library describes failures. -/
def systemError : IO.Error → IoError
  | .noFileOrDirectory _ code details => .system code.toNat details
  | .inappropriateType _ code details => .system code.toNat details
  | .resourceExhausted _ code details => .system code.toNat details
  | .permissionDenied _ code details => .system code.toNat details
  | error => .failed (toString error)

/-- An action's failure as a value. -/
def attempt {α : Type} (action : IO α) : IO (Except IoError α) := do
  try
    return .ok (← action)
  catch error =>
    return .error (systemError error)

def readFile (path : String) : IO (List UInt8) := do
  let handle ← IO.FS.Handle.mk path .read
  return (← handle.readBinToEnd).data.toList

def printBytes (bytes : List UInt8) : IO Unit := do
  let stdout ← IO.getStdout
  stdout.write ⟨bytes.toArray⟩
  stdout.flush

/-- The files, the standard output and the standard error of the system. -/
def surroundings : Session.Surroundings IO where
  read path := attempt (readFile path)
  deliver source := do
    let sent := deliver (.ofBytes (encodeText source)) .plain
    match sent.result with
    | .ok _ => return .ofExcept ((← attempt (printBytes sent.taken)).mapError .io)
    | failure => return failure
  print text := attempt (printBytes (encodeText text))
  save path text := attempt (IO.FS.writeFile path text)
  complain text := IO.eprint text

end OneDef.Shell

open OneDef in
def main (words : List String) : IO UInt32 := do
  let setting ← IO.getEnv "RUST_LOG"
  let verbosity := (setting.bind Verbosity.ofName?).getD Verbosity.standard
  match ← Shell.surroundings.run verbosity words with
  | some status => return status.toUInt32
  | none =>
    repeat IO.sleep 1000
    return 1
