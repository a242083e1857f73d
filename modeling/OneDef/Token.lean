import OneDef.Span

/-!
# Tokens

The seven kinds of token, each with the name it has in messages and listings, and tokens themselves:
a kind, the text read, and where it stood.
-/

namespace OneDef

inductive Kind where
  | defWord
  | endWord
  | identifier
  | integer
  | openParen
  | closeParen
  | comma
  deriving DecidableEq

namespace Kind

/-- Every kind, in the order in which a text is tried against them. -/
def all : List Kind :=
  [defWord, endWord, identifier, integer, openParen, closeParen, comma]

def name : Kind → String
  | defWord => "def"
  | endWord => "end"
  | identifier => "identifier"
  | integer => "integer"
  | openParen => "oparen"
  | closeParen => "cparen"
  | comma => "comma"

/-- Word kinds are made of letters or digits, so two of them need something in between. -/
def isWord : Kind → Bool
  | defWord | endWord | identifier | integer => true
  | openParen | closeParen | comma => false

theorem mem_all (kind : Kind) : kind ∈ all := by cases kind <;> decide

end Kind

structure Token where
  kind : Kind
  text : String
  span : Span
  deriving DecidableEq

def Token.is (token : Token) (kind : Kind) : Bool := token.kind = kind

end OneDef
