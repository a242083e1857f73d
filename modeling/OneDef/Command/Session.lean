import OneDef.Command.Help
import OneDef.Command.Options
import OneDef.Delivery
import OneDef.Diagnostic
import OneDef.FileSystem
import OneDef.Log
import OneDef.View

/-!
# Sessions

A session is one run of the command.  What it does is decided from the command line and the bytes of
the source file before anything is written: `respond` says which report ends the run, which text
goes where, or which source is compiled to standard output.

Carrying this out takes surroundings: files to read and to save, a standard output and a standard error.
There is one program for all of them.  `run` is this program on a file system and a writer, with account
kept of what it does.
-/

namespace OneDef

namespace Stage

/-- What a stage prints of a source. -/
def render (stage : Stage) (source : String) : Verdict CompileError String :=
  let map := LineMap.ofSource source
  match stage with
  | js => compile source
  | src => normalize source
  | tokens =>
    ((lex source).mapError .lex).map fun tokens ↦
      (Json.array (tokens.map fun token ↦ (map.viewToken token).toJson)).render
  | ast => (parseSource source).map fun tree ↦ (map.viewTree tree).toJson.render

/-- The events of printing a stage. -/
def log (stage : Stage) (source : String) : List Event :=
  match stage with
  | js => Log.compile source
  | tokens => Log.lex source
  | ast | src => Log.parse source

end Stage

namespace Session

/-- How a run ends once the source has been looked at. -/
inductive Action where
  /-- Nothing is written but a report on standard error. -/
  | stop (report : String)
  /-- The stage never ends, and nothing is written. -/
  | endless
  /-- A source is compiled to standard output. -/
  | deliver (source : String)
  /-- A text goes to standard output. -/
  | print (text : String)
  /-- A text goes to a file. -/
  | save (path : String) (text : String)

structure Response where
  events : List Event
  action : Action

def started (options : Options) : Event :=
  ⟨.debug, "defc", "starting", [("args", options.describe)]⟩

def saved (path : String) (text : String) : Event :=
  ⟨.info, "defc", "wrote output", [("path", path), ("bytes", toString text.utf8ByteSize)]⟩

def cannotRead (path : String) (error : IoError) : String :=
  "error: cannot read " ++ path ++ ": " ++ error.message ++ "\n"

def cannotSave (path : String) (error : IoError) : String :=
  "error: cannot write " ++ path ++ ": " ++ error.message ++ "\n"

def cannotPrint (error : IoError) : String :=
  "error: cannot write stdout: " ++ error.message ++ "\n"

/-- Where the text of a stage goes. -/
def deposit (output : Option String) (text : String) : Action :=
  match output with
  | some path => .save path text
  | none => .print text

/-- What is done about a source.  A program for standard output is delivered; every other text is made
first and then goes to its place. -/
def emit (options : Options) (source : String) : Action :=
  match options.stage, options.output with
  | .js, none => .deliver source
  | stage, output =>
    match stage.render source with
    | .ok text => deposit output (text ++ "\n")
    | .error error => .stop (Diagnostic.render source error)
    | .endless => .endless

/-- What is done about a source file, given what reading it came to. -/
def respond (options : Options) (contents : Except IoError (List UInt8)) : Response :=
  match contents.bind decodeText with
  | .error error => ⟨[started options], .stop (cannotRead options.source error)⟩
  | .ok source => ⟨started options :: options.stage.log source, emit options source⟩

def usage : UsageError → String
  | .invalidValue => "error: invalid value\n"
  | .unknownArgument => "error: unexpected argument\n"
  | .tooManyValues => "error: unexpected value\n"
  | .argumentConflict => "error: an argument cannot be used multiple times\n"

/-- What a run can do. -/
structure Surroundings (m : Type → Type) where
  /-- Reads the file that a path names. -/
  read (path : String) : m (Except IoError (List UInt8))
  /-- Compiles a source to standard output. -/
  deliver (source : String) : m (Verdict CompileError Unit)
  /-- Sends a text to standard output. -/
  print (text : String) : m (Except IoError Unit)
  /-- Replaces or creates the file that a path names. -/
  save (path text : String) : m (Except IoError Unit)
  /-- Writes a text to standard error. -/
  complain (text : String) : m Unit

namespace Surroundings

variable {m : Type → Type} [Monad m] (world : Surroundings m)

def fail (report : String) : m (Option Nat) := do
  world.complain report
  return some 1

/-- Carries out an action.  The result is the exit status, which a run that never ends does not have. -/
def act (verbosity : Verbosity) : Action → m (Option Nat)
  | .stop report => world.fail report
  | .endless => return none
  | .deliver source => do
    match ← world.deliver source with
    | .ok _ => return some 0
    | .error error => world.fail (Diagnostic.render source error)
    | .endless => return none
  | .print text => do
    match ← world.print text with
    | .ok _ => return some 0
    | .error error => world.fail (cannotPrint error)
  | .save path text => do
    match ← world.save path text with
    | .ok _ =>
      world.complain (logText verbosity [saved path text])
      return some 0
    | .error error => world.fail (cannotSave path error)

/-- Carries out a response. -/
def perform (verbosity : Verbosity) (response : Response) : m (Option Nat) := do
  world.complain (logText verbosity response.events)
  world.act verbosity response.action

/-- Help is printed as far as standard output takes it, which never fails. -/
def inform (text : String) : m (Option Nat) := do
  let _ ← world.print text
  return some 0

def runRequest (verbosity : Verbosity) : Request → m (Option Nat)
  | .shortHelp => world.inform Help.short
  | .longHelp => world.inform Help.long
  | .version => world.inform Help.version
  | .run options => do world.perform verbosity (respond options (← world.read options.source))

/-- One run of the command with the words behind its name. -/
def run (verbosity : Verbosity) (words : List String) : m (Option Nat) :=
  match Request.ofArguments words with
  | .ok request => world.runRequest verbosity request
  | .error error => do
    world.complain (usage error)
    return some 2

end Surroundings

/-- What a run has done so far. -/
structure Ledger where
  stdout : List UInt8
  stderr : String
  files : FileSystem

/-- A file system and a writer for standard output.  No run sends more than one text there, so the writer is
at its start. -/
def simulated (stdout : Writer) : Surroundings (StateM Ledger) where
  read path ledger := (ledger.files.read path, ledger)
  deliver source ledger :=
    let sent := OneDef.deliver (.ofBytes (encodeText source)) stdout
    (sent.result, { ledger with stdout := ledger.stdout ++ sent.taken })
  print text ledger :=
    let sent := stdout.send text
    (sent.result, { ledger with stdout := ledger.stdout ++ sent.taken })
  save path text ledger :=
    match ledger.files.write path (encodeText text) with
    | .ok after => (.ok (), { ledger with files := after })
    | .error error => (.error error, ledger)
  complain text ledger := ((), { ledger with stderr := ledger.stderr ++ text })

/-- What a run leaves behind.  A run that never ends has no exit status, and of a log that repeats itself
forever the report has the lines up to the first repetition. -/
structure Report extends Ledger where
  exit : Option Nat

/-- The report on a program that goes on from a ledger. -/
def report (ledger : Ledger) (program : StateM Ledger (Option Nat)) : Report :=
  let (exit, after) := program ledger
  ⟨after, exit⟩

def runRequest (files : FileSystem) (stdout : Writer) (verbosity : Verbosity) (request : Request) :
    Report :=
  report ⟨[], "", files⟩ ((simulated stdout).runRequest verbosity request)

def run (files : FileSystem) (stdout : Writer) (verbosity : Verbosity) (words : List String) :
    Report :=
  report ⟨[], "", files⟩ ((simulated stdout).run verbosity words)

end Session

end OneDef
