/-!
# The size of a text

Offsets count bytes of the UTF-8 form of a text, while texts are read character by character.
-/

namespace OneDef.Text

/-- The number of bytes that characters take in UTF-8. -/
def size (cs : List Char) : Nat := cs.foldr (fun c rest ↦ c.utf8Size + rest) 0

@[simp] theorem size_nil : size [] = 0 := rfl

@[simp] theorem size_cons (c : Char) (cs : List Char) : size (c :: cs) = c.utf8Size + size cs := rfl

@[simp] theorem size_append (cs ds : List Char) : size (cs ++ ds) = size cs + size ds := by
  induction cs with
  | nil => simp
  | cons c cs ih => rw [List.cons_append, size_cons, ih, size_cons, Nat.add_assoc]

theorem length_le_size (cs : List Char) : cs.length ≤ size cs := by
  induction cs with
  | nil => simp
  | cons c cs ih =>
    have := c.utf8Size_pos
    simp only [List.length_cons, size_cons]
    omega

theorem size_utf8Encode (cs : List Char) : cs.utf8Encode.size = size cs := by
  induction cs with
  | nil => simp
  | cons c cs ih =>
    rw [List.utf8Encode_cons, ByteArray.size_append, ih, List.utf8Encode_singleton, size_cons]
    simp

/-- The size of a text is the size of its UTF-8 form. -/
theorem size_toList (text : String) : size text.toList = text.utf8ByteSize := by
  rw [← size_utf8Encode, ← String.toByteArray_ofList, String.ofList_toList,
    String.size_toByteArray]

end OneDef.Text
