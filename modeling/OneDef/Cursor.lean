import OneDef.Tree.Parser

/-!
# Token cursors

A cursor is a list of tokens with a position in it.  Reading definitions one after another moves the
position and never the tokens: a failed read leaves it at the token that was refused.
-/

namespace OneDef

structure Cursor where
  tokens : List Token
  position : Nat

namespace Cursor

/-- The tokens from the position on; none if it is past the end. -/
def remaining (cursor : Cursor) : List Token := cursor.tokens.drop cursor.position

def seek (cursor : Cursor) (position : Nat) : Cursor := ⟨cursor.tokens, position⟩

def append (cursor : Cursor) (tokens : List Token) : Cursor :=
  ⟨cursor.tokens ++ tokens, cursor.position⟩

def dropLast (cursor : Cursor) : Cursor := ⟨cursor.tokens.dropLast, cursor.position⟩

/-- Moves over the remaining tokens in front of `rest`, which is the end of them. -/
def advanceTo (cursor : Cursor) (rest : List Token) : Cursor :=
  cursor.seek (cursor.position + (cursor.remaining.length - rest.length))

/-- Reads the next definition.  The end of the input lies behind the last of all tokens. -/
def readDefinition (cursor : Cursor) : Except ParseError Tree × Cursor :=
  match Parser.definition cursor.remaining with
  | .ok (tree, rest) => (.ok tree, cursor.advanceTo rest)
  | .error failure =>
    (.error (failure.toError (Parser.endSpan cursor.tokens)), cursor.advanceTo failure.rest)

/-- Reads a number of definitions, each where the one before it left the cursor. -/
def readDefinitions (cursor : Cursor) : Nat → List (Except ParseError Tree) × Cursor
  | 0 => ([], cursor)
  | count + 1 =>
    let (first, cursor) := cursor.readDefinition
    let (others, cursor) := cursor.readDefinitions count
    (first :: others, cursor)

end Cursor

end OneDef
