import OneDef.Text.Quoted

/-!
# Command lines

A command line has at most one operand, the source path, and options in any order.  Words are read
from left to right.  A value waits until the next word shows that it is complete, and is judged
then: an option that is unknown, an operand too many, or a value for an option that takes none is
reported first.
-/

namespace OneDef

/-- What is printed of a source. -/
inductive Stage where
  | js
  | tokens
  | ast
  | src
  deriving DecidableEq

namespace Stage

def name : Stage → String
  | js => "js"
  | tokens => "tokens"
  | ast => "ast"
  | src => "src"

def title : Stage → String
  | js => "Js"
  | tokens => "Tokens"
  | ast => "Ast"
  | src => "Src"

def ofName? (text : String) : Option Stage := [js, tokens, ast, src].find? (·.name = text)

end Stage

structure Options where
  source : String
  output : Option String
  stage : Stage
  deriving DecidableEq

/-- Options as the log shows them. -/
def Options.describe (options : Options) : String :=
  "Args \x7b source: " ++ Text.quote options.source ++ ", output: " ++
    (match options.output with
      | some path => "Some(" ++ Text.quote path ++ ")"
      | none => "None") ++
    ", emit: " ++ options.stage.title ++ " \x7d"

inductive UsageError where
  /-- A value is missing, empty or not among those allowed. -/
  | invalidValue
  | unknownArgument
  /-- A value is attached to an option that takes none. -/
  | tooManyValues
  /-- An option is given twice. -/
  | argumentConflict
  deriving DecidableEq

/-- What a command line asks for. -/
inductive Request where
  | run (options : Options)
  | shortHelp
  | longHelp
  | version
  deriving DecidableEq

namespace Request

/-- What a value on the command line is for. -/
inductive Slot where
  | source
  | output
  | stage
  deriving DecidableEq

/-- The meaning of one word in front of the separator. -/
inductive Word where
  /-- An option that takes a value, with the value if it is attached. -/
  | option (slot : Slot) (attached : Option String)
  | inform (request : Request)
  | refuse (error : UsageError)
  /-- From here on every word is an operand. -/
  | separator
  | plain (text : String)
  deriving DecidableEq

namespace Word

/-- An option that takes no value. -/
def flag (request : Request) : Option String → Word
  | none => .inform request
  | some _ => .refuse .tooManyValues

def ofLong (name : List Char) (attached : Option String) : Word :=
  if name = "output".toList then .option .output attached
  else if name = "emit".toList then .option .stage attached
  else if name = "help".toList then flag .longHelp attached
  else if name = "version".toList then flag .version attached
  else .refuse .unknownArgument

/-- A value behind a short option, with or without an equals sign. -/
def attachedShort : List Char → Option String
  | [] => none
  | '=' :: value => some (String.ofList value)
  | value => some (String.ofList value)

/-- A value behind a long option, which needs an equals sign. -/
def attachedLong : List Char → Option String
  | [] => none
  | _ :: value => some (String.ofList value)

def ofShort (letter : Char) (rest : List Char) : Word :=
  if letter = 'o' then .option .output (attachedShort rest)
  else if letter = 'h' then .inform .shortHelp
  else if letter = 'V' then .inform .version
  else .refuse .unknownArgument

def ofString (text : String) : Word :=
  match text.toList with
  | ['-', '-'] => .separator
  | '-' :: '-' :: rest =>
    ofLong (rest.takeWhile (· ≠ '=')) (attachedLong (rest.dropWhile (· ≠ '=')))
  | '-' :: letter :: rest => ofShort letter rest
  | _ => .plain text

end Word

/-- The values judged so far. -/
structure Given where
  source : Option String
  output : Option String
  stage : Option Stage
  deriving DecidableEq

/-- A value that is not judged yet, or that has still to come. -/
structure Pending where
  slot : Slot
  value : Option String
  deriving DecidableEq

namespace Given

def nothing : Given := ⟨none, none, none⟩

def put (given : Given) (slot : Slot) (value : String) : Except UsageError Given :=
  match slot with
  | .source => if value = "" then .error .invalidValue else .ok { given with source := value }
  | .output =>
    if given.output.isSome then .error .argumentConflict
    else if value = "" then .error .invalidValue
    else .ok { given with output := value }
  | .stage =>
    if given.stage.isSome then .error .argumentConflict
    else
      match Stage.ofName? value with
      | some stage => .ok { given with stage := stage }
      | none => .error .invalidValue

/-- Judges the value that is pending. -/
def settle (given : Given) : Option Pending → Except UsageError Given
  | none => .ok given
  | some ⟨_, none⟩ => .error .invalidValue
  | some ⟨slot, some value⟩ => given.put slot value

/-- Whether the operand has come. -/
def hasOperand (given : Given) : Option Pending → Bool
  | some ⟨.source, _⟩ => true
  | _ => given.source.isSome

def request (given : Given) : Request :=
  .run ⟨given.source.getD "test.src", given.output, given.stage.getD .js⟩

end Given

/-- Judges what is pending and takes an operand, of which there is one at most. -/
def operand (given : Given) (pending : Option Pending) : Except UsageError Given :=
  if given.hasOperand pending then .error .unknownArgument else given.settle pending

/-- Reads words that are all operands. -/
def ofOperands (given : Given) (pending : Option Pending) : List String → Except UsageError Request
  | [] => do return (← given.settle pending).request
  | text :: words => do ofOperands (← operand given pending) (some ⟨.source, some text⟩) words

/-- Reads words in front of the separator. -/
def ofWords (given : Given) (pending : Option Pending) : List String → Except UsageError Request
  | [] => do return (← given.settle pending).request
  | text :: words =>
    match Word.ofString text with
    | .refuse error => .error error
    | .inform request => do
      let _ ← given.settle pending
      return request
    | .separator => ofOperands given pending words
    | .option slot none => do ofWords (← given.settle pending) (some ⟨slot, none⟩) words
    | .option slot (some value) => do
      ofWords (← (← given.settle pending).put slot value) none words
    | .plain text =>
      match pending with
      | some ⟨slot, none⟩ => ofWords given (some ⟨slot, some text⟩) words
      | _ => do ofWords (← operand given pending) (some ⟨.source, some text⟩) words

/-- What the words behind the program's name ask for. -/
def ofArguments (words : List String) : Except UsageError Request := ofWords .nothing none words

end Request

end OneDef
