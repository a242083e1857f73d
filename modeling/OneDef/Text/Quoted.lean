import OneDef.Text.Unprintable

/-!
# Quoted texts

A text shown in a message stands between double quotes.  Quotes and backslashes get a backslash,
four control characters have short names, and any other unprintable character is written by its code
point, so a quoted text never breaks the line it stands in.
-/

namespace OneDef.Text

/-- How a character is written in a quoted text. -/
def escapeChar (c : Char) : List Char :=
  if c = '"' then ['\\', '"']
  else if c = '\\' then ['\\', '\\']
  else if c = '\t' then ['\\', 't']
  else if c = '\n' then ['\\', 'n']
  else if c = '\r' then ['\\', 'r']
  else if c = '\x00' then ['\\', '0']
  else if isUnprintable c then ['\\', 'u', '\x7b'] ++ Nat.toDigits 16 c.toNat ++ ['\x7d']
  else [c]

def quote (text : String) : String :=
  String.ofList (['"'] ++ text.toList.flatMap escapeChar ++ ['"'])

end OneDef.Text
