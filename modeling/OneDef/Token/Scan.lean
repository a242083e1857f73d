import OneDef.Error
import OneDef.Text.Size

/-!
# Cutting a text into tokens

A token is the first kind, in the order of `Kind.all`, whose pattern fits the front of the text.
A word must also end where no further word character follows, so `def1` is neither a keyword nor a
name.  Blank characters separate tokens and mean nothing else.

`scan` keeps the tokens read before a failure, and `lex` forgets them.
-/

namespace OneDef

/-- The front of a text taken as a token of a kind, and the text behind it. -/
structure Lexeme where
  kind : Kind
  text : List Char
  rest : List Char
  deriving DecidableEq

namespace Lexeme

def isBlank (c : Char) : Bool :=
  c = ' ' || c = '\t' || c = '\n' || c = '\x0b' || c = '\x0c' || c = '\r' || c = '\x00'

def isWordChar (c : Char) : Bool := c = '_' || c.isAlphanum

/-- A literal text at the front. -/
def literal? (word cs : List Char) : Option (List Char × List Char) :=
  if word.isPrefixOf cs then some (word, cs.drop word.length) else none

/-- The longest non-empty run of a class of characters at the front. -/
def run? (p : Char → Bool) (cs : List Char) : Option (List Char × List Char) :=
  if (cs.takeWhile p).isEmpty then none else some (cs.takeWhile p, cs.dropWhile p)

def pattern? : Kind → List Char → Option (List Char × List Char)
  | .defWord => literal? ['d', 'e', 'f']
  | .endWord => literal? ['e', 'n', 'd']
  | .identifier => run? Char.isAlpha
  | .integer => run? Char.isDigit
  | .openParen => literal? ['(']
  | .closeParen => literal? [')']
  | .comma => literal? [',']

/-- Whether a word may end in front of this text. -/
def endsWord : List Char → Bool
  | [] => true
  | c :: _ => !isWordChar c

def ofKind? (kind : Kind) (cs : List Char) : Option Lexeme :=
  match pattern? kind cs with
  | some (text, rest) => if !kind.isWord || endsWord rest then some ⟨kind, text, rest⟩ else none
  | none => none

/-- The token at the front of a text. -/
def first? (cs : List Char) : Option Lexeme := Kind.all.findSome? fun kind ↦ ofKind? kind cs

/-- The token that a lexeme is when it is met at an offset. -/
def token (lexeme : Lexeme) (offset : Nat) : Token where
  kind := lexeme.kind
  text := String.ofList lexeme.text
  span := Span.between offset (offset + Text.size lexeme.text)

theorem literal?_append {word cs : List Char} {text rest : List Char}
    (h : literal? word cs = some (text, rest)) : text = word ∧ text ++ rest = cs := by
  simp only [literal?] at h
  split at h
  · next hword =>
    obtain ⟨rfl, rfl⟩ := by simpa using h
    exact ⟨rfl, List.prefix_iff_eq_append.1 (List.isPrefixOf_iff_prefix.1 hword)⟩
  · simp at h

theorem run?_append {p : Char → Bool} {cs text rest : List Char}
    (h : run? p cs = some (text, rest)) : text ≠ [] ∧ text ++ rest = cs := by
  simp only [run?] at h
  split at h
  · simp at h
  · next hne =>
    obtain ⟨rfl, rfl⟩ := by simpa using h
    exact ⟨by simpa using hne, List.takeWhile_append_dropWhile⟩

theorem pattern?_append {kind : Kind} {cs text rest : List Char}
    (h : pattern? kind cs = some (text, rest)) : text ≠ [] ∧ text ++ rest = cs := by
  cases kind with
  | identifier | integer => exact run?_append h
  | defWord | endWord | openParen | closeParen | comma =>
    obtain ⟨rfl, happ⟩ := literal?_append h
    exact ⟨by simp, happ⟩

/-- A token takes a non-empty front of the text and leaves the rest. -/
theorem first?_append {cs : List Char} {lexeme : Lexeme} (h : first? cs = some lexeme) :
    lexeme.text ≠ [] ∧ lexeme.text ++ lexeme.rest = cs := by
  obtain ⟨kind, _, hkind⟩ := List.exists_of_findSome?_eq_some h
  simp only [ofKind?] at hkind
  split at hkind
  · next text rest hpattern =>
    split at hkind
    · cases hkind
      exact pattern?_append hpattern
    · simp at hkind
  · simp at hkind

theorem length_rest_lt {cs : List Char} {lexeme : Lexeme} (h : first? cs = some lexeme) :
    lexeme.rest.length < cs.length := by
  obtain ⟨hne, happ⟩ := first?_append h
  have hpos := List.length_pos_iff.2 hne
  rw [← happ, List.length_append]
  omega

end Lexeme

/-- The tokens read from a text, and how the reading ended. -/
structure Scan where
  tokens : List Token
  ending : Verdict LexError Unit
  deriving DecidableEq

namespace Scan

/-- Scans a text that stands at an offset of the source.

Reading goes on where the token's span says that it ends.  Past the largest offset the span ends too
early, and reading on from there meets the same text forever. -/
def ofText (offset : Nat) (cs : List Char) : Scan :=
  match cs with
  | [] => ⟨[], .ok ()⟩
  | c :: rest =>
    if Lexeme.isBlank c then ofText (offset + c.utf8Size) rest
    else
      match _ : Lexeme.first? (c :: rest) with
      | none =>
        let span := Span.between offset (offset + c.utf8Size)
        ⟨[], .error (.noMatch (String.ofList (c :: rest)) span)⟩
      | some lexeme =>
        let token := lexeme.token offset
        if token.span.stop = offset + Text.size lexeme.text then
          let scan := ofText token.span.stop lexeme.rest
          ⟨token :: scan.tokens, scan.ending⟩
        else ⟨[token], .endless⟩
termination_by cs.length
decreasing_by
  · simp
  · exact Lexeme.length_rest_lt (by assumption)

@[simp] theorem ofText_nil (offset : Nat) : ofText offset [] = ⟨[], .ok ()⟩ := by rw [ofText]

theorem ofText_blank {c : Char} {cs : List Char} (offset : Nat) (h : Lexeme.isBlank c) :
    ofText offset (c :: cs) = ofText (offset + c.utf8Size) cs := by
  rw [ofText, if_pos h]

theorem ofText_noMatch {c : Char} {cs : List Char} (offset : Nat) (hblank : ¬Lexeme.isBlank c)
    (h : Lexeme.first? (c :: cs) = none) :
    ofText offset (c :: cs) =
      ⟨[], .error (.noMatch (String.ofList (c :: cs))
        (Span.between offset (offset + c.utf8Size)))⟩ := by
  rw [ofText, if_neg hblank]
  split <;> simp_all

/-- As long as offsets are exact, reading goes on right behind each token. -/
theorem ofText_token {c : Char} {cs : List Char} {lexeme : Lexeme} {offset : Nat}
    (hblank : ¬Lexeme.isBlank c) (h : Lexeme.first? (c :: cs) = some lexeme)
    (hlimit : offset + Text.size lexeme.text ≤ Span.limit) :
    ofText offset (c :: cs) =
      let scan := ofText (offset + Text.size lexeme.text) lexeme.rest
      ⟨lexeme.token offset :: scan.tokens, scan.ending⟩ := by
  have hstop : (lexeme.token offset).span.stop = offset + Text.size lexeme.text :=
    Span.clamp_of_le hlimit
  rw [ofText, if_neg hblank]
  split
  · simp_all
  · next found hfound =>
    obtain rfl : found = lexeme := by simpa [h] using hfound.symm
    simp only [hstop, if_true]

/-- Behind a token that ends past the largest offset, reading never ends. -/
theorem ofText_endless {c : Char} {cs : List Char} {lexeme : Lexeme} {offset : Nat}
    (hblank : ¬Lexeme.isBlank c) (h : Lexeme.first? (c :: cs) = some lexeme)
    (hlimit : Span.limit < offset + Text.size lexeme.text) :
    ofText offset (c :: cs) = ⟨[lexeme.token offset], .endless⟩ := by
  have hstop : (lexeme.token offset).span.stop ≠ offset + Text.size lexeme.text := by
    have hle : (lexeme.token offset).span.stop ≤ Span.limit := Span.clamp_le _
    omega
  rw [ofText, if_neg hblank]
  split
  · simp_all
  · next found hfound =>
    obtain rfl : found = lexeme := by simpa [h] using hfound.symm
    simp only [if_neg hstop]

def result (scan : Scan) : Verdict LexError (List Token) := scan.ending.map fun _ ↦ scan.tokens

theorem result_eq_ok_iff {scan : Scan} {tokens : List Token} :
    scan.result = .ok tokens ↔ scan.ending = .ok () ∧ scan.tokens = tokens := by
  rw [result, Verdict.map_eq_ok_iff]
  exact ⟨fun ⟨_, hending, htokens⟩ ↦ ⟨hending, htokens⟩, fun h ↦ ⟨(), h⟩⟩

theorem result_eq_error_iff {scan : Scan} {error : LexError} :
    scan.result = .error error ↔ scan.ending = .error error :=
  Verdict.map_eq_error_iff

end Scan

def scan (source : String) : Scan := Scan.ofText 0 source.toList

def lex (source : String) : Verdict LexError (List Token) := (scan source).result

end OneDef
