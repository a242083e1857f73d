import OneDef.Event
import OneDef.Program

/-!
# The log of a compilation

Each token is traced as it is read, also in front of a failure.  Completed steps are reported, and a
warning says that tokens behind a definition are ignored.
-/

namespace OneDef.Log

def lexTarget : String := "compiler::lexer"

def parseTarget : String := "compiler::parser::expr"

def programTarget : String := "compiler::driver"

def token (token : Token) : Event :=
  ⟨.trace, lexTarget, "token",
    [("kind", token.kind.name), ("text", token.text), ("start", toString token.span.start)]⟩

def lexed (tokens : List Token) : Event :=
  ⟨.debug, lexTarget, "tokenized source", [("count", toString tokens.length)]⟩

/-- The events of reading a source into tokens. -/
def scanning (scan : Scan) : List Event :=
  scan.tokens.map token ++
    match scan.ending with
    | .ok _ => [lexed scan.tokens]
    | _ => []

/-- The warning about tokens behind a definition, if there are any. -/
def ignored : List Token → List Event
  | [] => []
  | extra :: more =>
    [⟨.warn, parseTarget, "ignoring tokens after `end`",
      [("count", toString (extra :: more).length), ("start", toString extra.span.start)]⟩]

def parsed : Tree → List Event
  | .define name params _ _ =>
    [⟨.debug, parseTarget, "parsed definition",
      [("name", name.text), ("params", toString params.length)]⟩]
  | _ => []

/-- The events of reading a definition from tokens. -/
def reading (tokens : List Token) : List Event :=
  match Tree.parseFront tokens with
  | .ok (tree, rest) => ignored rest ++ parsed tree
  | .error _ => []

def generated (definition : String) : Event :=
  ⟨.debug, programTarget, "generated definition", [("len", toString definition.utf8ByteSize)]⟩

/-- The events of reading a source into tokens. -/
def lex (source : String) : List Event := scanning (scan source)

/-- The events of reading a source into a tree. -/
def parse (source : String) : List Event :=
  lex source ++
    match OneDef.lex source with
    | .ok tokens => reading tokens
    | _ => []

/-- The events of compiling a source. -/
def compile (source : String) : List Event :=
  parse source ++
    match generate source with
    | .ok definition => [generated definition]
    | _ => []

end OneDef.Log
