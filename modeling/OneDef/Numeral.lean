/-!
# Numerals

Integer literals have no size limit, so they are kept as digits.  The kept form has no leading
zeros, which makes it unique for each number.
-/

namespace OneDef.Numeral

/-- Digits without their leading zeros; nothing but zeros leaves one zero. -/
def canonical (digits : String) : String :=
  match digits.toList.dropWhile (· = '0') with
  | [] => "0"
  | kept => String.ofList kept

end OneDef.Numeral
