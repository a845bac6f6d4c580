import DocContract.Text

/-!
# Texts as bytes

A text is stored and hashed as its UTF-8 bytes, character after character. `width` counts exactly
the bytes that `encode` writes.
-/

namespace DocContract.Text

/-- The UTF-8 bytes of a text. -/
def encode : Text → List UInt8
  | [] => []
  | c :: r => String.utf8EncodeChar c ++ encode r

/-- Joined texts are encoded one behind the other. -/
theorem encode_append (t u : Text) : encode (t ++ u) = encode t ++ encode u := by
  induction t with
  | nil => rfl
  | cons c r ih => simp [encode, ih]

/-- A text has as many bytes as it is wide. -/
theorem length_encode (t : Text) : (encode t).length = width t := by
  induction t with
  | nil => rfl
  | cons c r ih => simp [encode, width, ih] at *

/-- Every character starts at a byte of its own, so a text is no shorter in bytes. -/
theorem length_le_width (t : Text) : t.length ≤ width t := by
  induction t with
  | nil => simp [width]
  | cons c r ih =>
    have h : 0 < c.utf8Size := Char.utf8Size_pos c
    simp only [width, List.length_cons] at *
    omega

/-- A text without width is empty. -/
theorem eq_nil_of_width_eq_zero {t : Text} (h : width t = 0) : t = [] :=
  List.eq_nil_of_length_eq_zero (Nat.le_zero.mp (h ▸ length_le_width t))

end DocContract.Text
