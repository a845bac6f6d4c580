import DocContract.Text.Lowercase

/-!
# Case folding

Two characters are the same up to case when they fold to the same character. Folding is lower case,
except for the letters in `foldRuns`; the runs are `(first, last, shift)`. `caseVariants` turns the
folding around.
-/

namespace DocContract.Text

/-- The runs of code points whose folding is not their lower case. -/
def foldRuns : Array (Nat × Nat × Int) :=
  #[
    (0xB5, 0xB5, 775), (0x17F, 0x17F, -268), (0x345, 0x345, 116), (0x3C2, 0x3C2, 1),
    (0x3D0, 0x3D0, -30), (0x3D1, 0x3D1, -25), (0x3D5, 0x3D5, -15), (0x3D6, 0x3D6, -22),
    (0x3F0, 0x3F0, -54), (0x3F1, 0x3F1, -48), (0x3F5, 0x3F5, -64), (0x13A0, 0x13F5, 0),
    (0x13F8, 0x13FD, -8), (0x1C80, 0x1C80, -6222), (0x1C81, 0x1C81, -6221),
    (0x1C82, 0x1C82, -6212), (0x1C83, 0x1C84, -6210), (0x1C85, 0x1C85, -6211),
    (0x1C86, 0x1C86, -6204), (0x1C87, 0x1C87, -6180), (0x1C88, 0x1C88, 35267),
    (0x1E9B, 0x1E9B, -58), (0x1FBE, 0x1FBE, -7173), (0x1FD3, 0x1FD3, -7235),
    (0x1FE3, 0x1FE3, -7219), (0xAB70, 0xABBF, -38864), (0xFB05, 0xFB05, 1)]

/-- The folding of a code point. -/
def foldCodePoint (n : Nat) : Nat :=
  match foldRuns.find? fun r => r.1 ≤ n && n ≤ r.2.1 with
  | some (_, _, shift) => ((n : Int) + shift).toNat
  | none => lowerCodePoint n

/-- The code points that fold to the same as a given one: those that one of the runs moves to its
folding, and the folding itself. -/
def foldedWith (n : Nat) : List Nat :=
  let target := foldCodePoint n
  let sources := (lowerRuns.toList.map fun r => r.2.2.2) ++ (foldRuns.toList.map fun r => r.2.2)
  (target :: sources.map fun shift => ((target : Int) - shift).toNat).eraseDups.filter
    fun m => foldCodePoint m == target

/-- The characters that are the same up to case. -/
def caseVariants (c : Char) : List Char :=
  if c.toNat < 128 then
    [c.toLower, c.toUpper]
      ++ (if c.toLower == 's' then [Char.ofNat 0x17F] else [])
      ++ (if c.toLower == 'k' then [Char.ofNat 0x212A] else [])
  else (foldedWith c.toNat).map Char.ofNat

end DocContract.Text
