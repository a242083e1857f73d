import OneDef.Token.Scan
import OneDef.Tree.Parser
import OneDef.Tree.JavaScript

/-!
# Programs

A source is compiled to a complete JavaScript program: the addition that definitions may call, the
definition itself, and a call that shows its result.
-/

namespace OneDef

namespace Program

/-- The function that every program may call. -/
def addition : String := "function add(x,y) \x7b return x + y \x7d;"

/-- The call that runs the definition. -/
def trial : String := "console.log(f(1, 2));"

def assemble (definition : String) : String := addition ++ "\n" ++ definition ++ "\n" ++ trial

end Program

/-- The tree that a source is. -/
def parseSource (source : String) : Verdict CompileError Tree := do
  let tokens ← (lex source).mapError .lex
  .ofExcept ((Tree.parse tokens).mapError .parse)

/-- The JavaScript definition that a source is. -/
def generate (source : String) : Verdict CompileError String := do
  let tree ← parseSource source
  .ofExcept (tree.toJavaScript.mapError .generate)

def compile (source : String) : Verdict CompileError String :=
  (generate source).map Program.assemble

/-- A source in its normal layout. -/
def normalize (source : String) : Verdict CompileError String :=
  (parseSource source).map Tree.toSource

end OneDef
