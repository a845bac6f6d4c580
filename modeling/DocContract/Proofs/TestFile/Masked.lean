import DocContract.Proofs.Text.Pieces
import DocContract.TestFile.Outline
import DocContract.Text.Utf8
import Mathlib.Data.List.Forall2

/-!
# What masking hides

Masking blanks the comments of a test file, as they are read from left to right, and leaves every
byte outside them and every newline as it is. The blanks never open anything and never join what
stood on both sides of a comment, so masked text has no comments left. What a comment says does not
bear on the outline.
-/

namespace DocContract

open Text

/-! ### Piece by piece -/

namespace Lexeme

private theorem mask_lineComment (t : Text) : mask .lineComment t
    = (cutLine t).1.flatMap blanked ++ mask .code (cutLine t).2 := by
  induction t with
  | nil => rfl
  | cons c r ih =>
    by_cases hc : c = '\n'
    · subst hc
      rfl
    · rw [mask, if_neg hc, ih, cutLine_cons hc, List.flatMap_cons, List.append_assoc]

private theorem mask_blockComment (t : Text) : mask .blockComment t
    = (cutComment t).1.flatMap blanked ++ mask .code (cutComment t).2 := by
  induction t with
  | nil => rfl
  | cons c r ih =>
    cases hclose : startsWith (c :: r) closeMark with
    | true =>
      obtain ⟨rest, hrest⟩ := startsWith_iff.mp hclose
      rw [← hrest]
      rfl
    | false =>
      have hopen : ∀ rest, c = '*' → r = '/' :: rest → False := by
        rintro rest rfl rfl
        cases hclose
      rw [mask, ih, cutComment_cons hclose, List.flatMap_cons, List.append_assoc]
      exact hopen

private theorem mask_literal (quote : Char) (t : Text) : mask (.literal quote) t
    = (cutLiteral quote t).1 ++ mask .code (cutLiteral quote t).2 := by
  fun_induction cutLiteral quote t with
  | case1 => rfl
  | case2 c r ih => rw [mask, ih]; rfl
  | case3 c r hslash hends =>
    rw [mask_literal_cons hslash, afterLiteral, if_pos hends]
    rfl
  | case4 c r hslash hgoes ih =>
    rw [mask_literal_cons hslash, afterLiteral, if_neg hgoes, ih]
    rfl

end Lexeme

/-- What stands for a piece when the comments are blanked. -/
def Piece.masked (p : Piece) : Text :=
  if p.isComment then p.text.flatMap Lexeme.blanked else p.text

/-- A piece that is no comment is not changed. -/
theorem Piece.masked_of_visible {p : Piece} (h : p.isComment = false) : p.masked = p.text := by
  rw [Piece.masked, h, if_neg Bool.false_ne_true]

/-- Comments are masked piece by piece. -/
theorem maskComments_eq_flatMap (t : Text) : maskComments t = (pieces t).flatMap Piece.masked := by
  unfold maskComments
  fun_induction pieces t with
  | case1 => rfl
  | case2 r ih =>
    rw [List.flatMap_cons, ← ih, Lexeme.mask, Lexeme.mask_lineComment]
    rfl
  | case3 r ih =>
    rw [List.flatMap_cons, ← ih, Lexeme.mask, Lexeme.mask_blockComment]
    rfl
  | case4 c r hline hblock hquote ih =>
    rw [List.flatMap_cons, ← ih, Lexeme.mask_code hline hblock, Lexeme.afterCode, if_pos hquote,
      Lexeme.mask_literal]
    rfl
  | case5 c r hline hblock hquote ih =>
    rw [List.flatMap_cons, ← ih, Lexeme.mask_code hline hblock, Lexeme.afterCode, if_neg hquote]
    rfl

/-! ### Byte by byte -/

/-- The byte of a newline. -/
def newlineByte : UInt8 := 10

/-- What stands for a byte of a comment. -/
def blankByte (b : UInt8) : UInt8 := if b = newlineByte then newlineByte else 32

/-- The bytes that stand for a piece when the comments are blanked. -/
def Piece.maskedBytes (p : Piece) : List UInt8 :=
  if p.isComment then (encode p.text).map blankByte else encode p.text

/-- Only a newline is written with the byte of a newline. -/
theorem ne_newlineByte_of_mem {c : Char} (hc : c ≠ '\n') {b : UInt8}
    (hb : b ∈ String.utf8EncodeChar c) : b ≠ newlineByte := by
  have hval : c.val.toNat ≠ 10 := fun h => hc (Char.ext (UInt32.toNat_inj.mp h))
  have hbyte : ∀ n, n % 256 ≠ 10 → UInt8.ofNat n ≠ newlineByte := fun n hn h => hn <| by
    rw [← UInt8.toNat_ofNat', h]
    rfl
  unfold String.utf8EncodeChar at hb
  dsimp only at hb
  -- A byte is that of an ASCII character, or has its highest bit set.
  split at hb
  · rw [List.mem_singleton.mp hb]
    exact hbyte _ (by omega)
  · split at hb
    · simp only [List.mem_cons, List.not_mem_nil, or_false] at hb
      rcases hb with rfl | rfl <;> exact hbyte _ (by omega)
    · split at hb
      · simp only [List.mem_cons, List.not_mem_nil, or_false] at hb
        rcases hb with rfl | rfl | rfl <;> exact hbyte _ (by omega)
      · simp only [List.mem_cons, List.not_mem_nil, or_false] at hb
        rcases hb with rfl | rfl | rfl | rfl <;> exact hbyte _ (by omega)

private theorem encode_replicate_space (n : Nat) :
    encode (List.replicate n ' ') = List.replicate n 32 := by
  induction n with
  | zero => rfl
  | succ n ih =>
    rw [List.replicate_succ, encode, ih]
    rfl

private theorem encode_blanked (c : Char) :
    encode (Lexeme.blanked c) = (String.utf8EncodeChar c).map blankByte := by
  unfold Lexeme.blanked
  split
  · next hc =>
    subst hc
    rfl
  · next hc =>
    have hblank : (String.utf8EncodeChar c).map blankByte
        = (String.utf8EncodeChar c).map fun _ => 32 :=
      List.map_congr_left fun b hb => if_neg (ne_newlineByte_of_mem hc hb)
    rw [encode_replicate_space, hblank, List.map_const', String.length_utf8EncodeChar]

private theorem encode_flatMap_blanked (t : Text) :
    encode (t.flatMap Lexeme.blanked) = (encode t).map blankByte := by
  induction t with
  | nil => rfl
  | cons c r ih =>
    rw [List.flatMap_cons, encode_append, encode, List.map_append, ih, encode_blanked]

private theorem Piece.encode_masked (p : Piece) : encode p.masked = p.maskedBytes := by
  unfold Piece.masked Piece.maskedBytes
  split
  · exact encode_flatMap_blanked p.text
  · rfl

private theorem encode_flatMap {α : Type} (f : α → Text) (xs : List α) :
    encode (xs.flatMap f) = xs.flatMap fun x => encode (f x) := by
  induction xs with
  | nil => rfl
  | cons x xs ih => rw [List.flatMap_cons, List.flatMap_cons, encode_append, ih]

/-- The bytes of masked text are those of the text, with the bytes of comments blanked. -/
theorem encode_maskComments (t : Text) :
    encode (maskComments t) = (pieces t).flatMap Piece.maskedBytes := by
  rw [maskComments_eq_flatMap, encode_flatMap]
  simp only [Piece.encode_masked]

/-- Masking keeps the newlines of a piece. -/
theorem Piece.newlines_maskedBytes (p : Piece) :
    p.maskedBytes.map (· == newlineByte) = (encode p.text).map (· == newlineByte) := by
  unfold Piece.maskedBytes
  split
  · rw [List.map_map]
    refine List.map_congr_left fun b _ => ?_
    unfold blankByte
    dsimp only [Function.comp]
    split
    · next hb => rw [hb]
    · next hb => rw [beq_eq_false_iff_ne.mpr hb]; rfl
  · rfl

/-- The newlines of masked text are those of the text. -/
theorem newlines_maskComments (t : Text) :
    (encode (maskComments t)).map (· == newlineByte) = (encode t).map (· == newlineByte) := by
  conv => rhs; rw [← joined_pieces t, Piece.joined, encode_flatMap]
  rw [encode_maskComments, List.map_flatMap, List.map_flatMap]
  simp only [Piece.newlines_maskedBytes]

private theorem length_encode_maskComments (t : Text) :
    (encode (maskComments t)).length = (encode t).length := by
  simpa using congrArg List.length (newlines_maskComments t)

private theorem getElem?_encode_maskComments (t : Text) (i : Nat) :
    (encode (maskComments t))[i]? = some newlineByte ↔ (encode t)[i]? = some newlineByte := by
  have hat : ∀ bs : List UInt8, bs[i]? = some newlineByte
      ↔ (bs.map (· == newlineByte))[i]? = some true := by
    intro bs
    rw [List.getElem?_map]
    cases bs[i]? <;> simp
  rw [hat, hat, newlines_maskComments]

/-! ### Masked text has no comments -/

namespace Lexeme

/-- Characters that open nothing stay. -/
theorem mask_plain {t : Text} (h : ∀ c ∈ t, isQuote c = false ∧ c ≠ '/') (r : Text) :
    mask .code (t ++ r) = t ++ mask .code r := by
  induction t with
  | nil => rfl
  | cons c t ih =>
    obtain ⟨⟨hc, hslash⟩, ht⟩ := List.forall_mem_cons.mp h
    have hnone : ∀ {d : Char} (u : Text), c = '/' → t ++ r = d :: u → False :=
      fun _ h => absurd h hslash
    rw [List.cons_append, mask_code hnone hnone, afterCode, hc, if_neg Bool.false_ne_true, ih ht]
    rfl

/-- Blanks of the code open nothing. -/
theorem mask_append_of_blanked {bs : Text} (h : ∀ b ∈ bs, b = ' ' ∨ b = '\n') (r : Text) :
    mask .code (bs ++ r) = bs ++ mask .code r := by
  refine mask_plain (fun b hb => ?_) r
  rcases h b hb with rfl | rfl
  · decide
  · decide

/-- What stands in place of a blanked character is spaces or its newline. -/
theorem eq_of_mem_blanked {b c : Char} (h : b ∈ blanked c) : b = ' ' ∨ b = '\n' := by
  unfold blanked at h
  split at h
  · exact .inr (List.mem_singleton.mp h)
  · exact .inl (List.eq_of_mem_replicate h)

/-- A literal stays a literal in front of other text, if something stood behind it before. -/
theorem mask_literal_append (quote : Char) (t : Text) {r : Text}
    (h : (cutLiteral quote t).2 = [] → r = []) :
    mask (.literal quote) ((cutLiteral quote t).1 ++ r)
      = (cutLiteral quote t).1 ++ mask .code r := by
  fun_induction cutLiteral quote t with
  | case1 =>
    rw [h rfl]
    rfl
  | case2 c t ih => exact congrArg ('\\' :: c :: ·) (ih h)
  | case3 c t hslash hends =>
    have hrest : ∀ d u, c = '\\' → r = d :: u → False := by
      rintro d u rfl rfl
      cases t with
      | nil => cases h rfl
      | cons e t => exact hslash e t rfl rfl
    rw [List.singleton_append, mask_literal_cons hrest, afterLiteral, if_pos hends]
    rfl
  | case4 c t hslash hgoes ih =>
    have hrest : ∀ d u, c = '\\' → (cutLiteral quote t).1 ++ r = d :: u → False := by
      rintro d u rfl hcons
      cases t with
      | nil =>
        rw [h rfl] at hcons
        cases hcons
      | cons e t => exact hslash e t rfl rfl
    rw [List.cons_append, mask_literal_cons hrest, afterLiteral, if_neg hgoes, ih h]
    rfl

end Lexeme

/-- A comment is blanked to spaces and newlines. -/
theorem Piece.eq_of_mem_masked {p : Piece} (h : p.isComment = true) {b : Char}
    (hb : b ∈ p.masked) : b = ' ' ∨ b = '\n' := by
  rw [Piece.masked, if_pos h] at hb
  obtain ⟨c, -, hc⟩ := List.mem_flatMap.mp hb
  exact Lexeme.eq_of_mem_blanked hc

/-- Masked text begins as the text does, or with a blank. -/
theorem head?_flatMap_masked {t : Text} {d : Char}
    (h : ((pieces t).flatMap Piece.masked).head? = some d) : d = ' ' ∨ t.head? = some d := by
  revert h
  fun_cases pieces t with
  | case1 => rintro ⟨⟩
  | case2 r => exact fun h => .inl (Option.some.inj h).symm
  | case3 r => exact fun h => .inl (Option.some.inj h).symm
  | case4 c r _ _ hquote => exact fun h => .inr h
  | case5 c r _ _ hquote => exact fun h => .inr h

/-- What stands for the pieces of a text is read as code and literals. -/
theorem mask_flatMap_masked (t : Text) :
    Lexeme.code.mask ((pieces t).flatMap Piece.masked) = (pieces t).flatMap Piece.masked := by
  fun_induction pieces t with
  | case1 => rfl
  | case2 r ih =>
    rw [List.flatMap_cons, Lexeme.mask_append_of_blanked fun b => Piece.eq_of_mem_masked rfl, ih]
  | case3 r ih =>
    rw [List.flatMap_cons, Lexeme.mask_append_of_blanked fun b => Piece.eq_of_mem_masked rfl, ih]
  | case4 c r hline hblock hquote ih =>
    have hslash : ∀ {d : Char} (u : Text), c = '/' →
        (cutLiteral c r).1 ++ (pieces (cutLiteral c r).2).flatMap Piece.masked = d :: u →
        False := by
      rintro d u rfl
      exact absurd hquote (by decide)
    have hrest : (cutLiteral c r).2 = []
        → (pieces (cutLiteral c r).2).flatMap Piece.masked = [] := by
      intro hnil
      rw [hnil, pieces]
      rfl
    have hliteral := Lexeme.mask_literal_append c r hrest
    rw [List.flatMap_cons, Piece.masked_of_visible rfl, List.cons_append,
      Lexeme.mask_code hslash hslash, Lexeme.afterCode, if_pos hquote, hliteral, ih]
  | case5 c r hline hblock hquote ih =>
    -- The text behind the character begins as before or with a blank, so it completes no mark.
    have hmark : ∀ d u, d ≠ ' ' → r.head? ≠ some d
        → (pieces r).flatMap Piece.masked = d :: u → False := by
      intro d u hd hhead hcons
      rcases head?_flatMap_masked (by rw [hcons]; rfl) with h | h
      · exact hd h
      · exact hhead h
    have hhead : ∀ {d}, (∀ u, c = '/' → r = d :: u → False) → c = '/' → r.head? ≠ some d := by
      intro d hnone hc hd
      obtain ⟨u, rfl⟩ := List.head?_eq_some_iff.mp hd
      exact hnone u hc rfl
    have hslash := fun u hc => hmark '/' u (by decide) (hhead hline hc)
    have hstar := fun u hc => hmark '*' u (by decide) (hhead hblock hc)
    rw [List.flatMap_cons, Piece.masked_of_visible rfl, List.singleton_append,
      Lexeme.mask_code hslash hstar, Lexeme.afterCode, if_neg hquote, ih]

/-- Masked text is masked to itself. -/
theorem maskComments_maskComments (t : Text) : maskComments (maskComments t) = maskComments t := by
  rw [maskComments_eq_flatMap t]
  exact mask_flatMap_masked t

/-! ### What a comment says -/

/-- The pieces are the same, or comments that are blanked alike. -/
def Piece.Alike (p q : Piece) : Prop :=
  p = q ∨ p.isComment = true ∧ q.isComment = true ∧ p.masked = q.masked

private theorem maskComments_congr {t u : Text}
    (h : List.Forall₂ Piece.Alike (pieces t) (pieces u)) : maskComments t = maskComments u := by
  rw [maskComments_eq_flatMap, maskComments_eq_flatMap]
  generalize pieces t = ps at h
  generalize pieces u = qs at h
  induction h with
  | nil => rfl
  | cons hpq _ ih =>
    rw [List.flatMap_cons, List.flatMap_cons, ih]
    rcases hpq with rfl | ⟨-, -, hmasked⟩
    · rfl
    · rw [hmasked]

/-- Masking blanks the bytes of comments and no others, keeps the length and the newlines, does
nothing to masked text, and so the outline is that of the masked text, whatever the comments say. -/
theorem maskComments_layout (t : Text) :
    (encode t = (pieces t).flatMap (fun p => encode p.text)
        ∧ encode (maskComments t) = (pieces t).flatMap Piece.maskedBytes)
      ∧ (encode (maskComments t)).length = (encode t).length
      ∧ (∀ i : Nat, (encode (maskComments t))[i]? = some newlineByte
          ↔ (encode t)[i]? = some newlineByte)
      ∧ maskComments (maskComments t) = maskComments t
      ∧ (∀ words, outline words (maskComments t) = outline words t)
      ∧ ∀ (u : Text) words, List.Forall₂ Piece.Alike (pieces t) (pieces u) →
          outline words u = outline words t := by
  refine ⟨⟨?_, encode_maskComments t⟩, length_encode_maskComments t,
    getElem?_encode_maskComments t, maskComments_maskComments t, fun words => ?_,
    fun u words h => ?_⟩
  · conv => lhs; rw [← joined_pieces t, Piece.joined, encode_flatMap]
  · rw [outline, maskComments_maskComments]
    rfl
  · rw [outline, ← maskComments_congr h]
    rfl

end DocContract
