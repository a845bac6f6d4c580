import DocContract.Json.Printer
import DocContract.Json.Token
import DocContract.Proofs.Text.Trim

/-!
# Literals read back

The reader of tokens undoes the printer on strings and natural numbers, whatever follows them. What
is printed holds no control character.
-/

namespace DocContract

namespace Text

/-! ### Decimal digits -/

/-- A number is written in digits. -/
theorem isDigit_of_mem_ofNat {n : Nat} {c : Char} (h : c ∈ ofNat n) : c.isDigit = true :=
  Nat.isDigit_of_mem_toDigits (by decide) (by decide) h

/-- A number has a digit. -/
theorem ofNat_ne_nil (n : Nat) : ofNat n ≠ [] := Nat.toDigits_ne_nil

/-- The digits of a number have its value. -/
theorem digitsValue_ofNat (n : Nat) : digitsValue (ofNat n) = n := by
  have h : digitsValue (ofNat n) = Nat.ofDigitChars 10 (Nat.toDigits 10 n) 0 := by
    unfold digitsValue ofNat
    rw [Nat.ofDigitChars_eq_foldl]
    congr 1
    funext value c
    rw [Nat.mul_comm]
  rw [h, Nat.ofDigitChars_ten_toDigits]

/-- Different numbers are written differently. -/
theorem ofNat_inj {m n : Nat} (h : ofNat m = ofNat n) : m = n := by
  have hvalue := congrArg digitsValue h
  rwa [digitsValue_ofNat, digitsValue_ofNat] at hvalue

/-- A number above zero does not begin with a zero. -/
theorem head?_ofNat_ne_zero {n : Nat} (hn : 0 < n) : (ofNat n).head? ≠ some '0' := by
  induction n using Nat.strongRecOn with
  | ind n ih =>
    unfold ofNat at ih ⊢
    by_cases hlt : n < 10
    · rw [Nat.toDigits_of_lt_base hlt, List.head?_cons]
      intro h
      have := Nat.digitChar_eq_zero.mp (Option.some.inj h)
      omega
    · have hfront := ih (n / 10) (by omega) (by omega)
      rw [Nat.toDigits_of_base_le (by decide) (by omega)]
      cases hd : Nat.toDigits 10 (n / 10) with
      | nil => exact absurd hd Nat.toDigits_ne_nil
      | cons c r =>
        rw [hd] at hfront
        exact hfront

/-- A hexadecimal digit has the value that it is written for. -/
theorem hexValue?_digitChar {n : Nat} (hn : n < 16) : hexValue? (Nat.digitChar n) = some n := by
  have h : ∀ m : Fin 16, hexValue? (Nat.digitChar m.val) = some m.val := by decide
  exact h ⟨n, hn⟩

end Text

namespace Json

open Text

namespace Token

/-! ### Numbers -/

private theorem isInteger_ofNat (n : Nat) : isInteger (ofNat n) = true := by
  have hd : ∀ c ∈ ofNat n, c.isDigit = true := fun c => isDigit_of_mem_ofNat
  cases ht : ofNat n with
  | nil => exact absurd ht (ofNat_ne_nil n)
  | cons c r =>
    rw [ht] at hd
    obtain ⟨hc, hr⟩ := List.forall_mem_cons.mp hd
    cases r with
    | nil => exact hc
    | cons d r =>
      have hn : 0 < n := by
        rcases Nat.eq_zero_or_pos n with rfl | h
        · cases ht
        · exact h
      have hz : c ≠ '0' := by
        have := head?_ofNat_ne_zero hn
        rw [ht] at this
        exact fun h => this (congrArg some h)
      simp [isInteger, hc, hz, List.all_eq_true.mpr hr]

/-- A number is read back from its digits. -/
theorem bare?_ofNat (n : Nat) : bare? (ofNat n) = some (.nat n) := by
  have hword : ∀ {word : Text} {c : Char}, c ∈ word → c.isDigit = false → ofNat n ≠ word := by
    intro word c hc hd h
    rw [← h] at hc
    rw [isDigit_of_mem_ofNat hc] at hd
    cases hd
  unfold bare?
  rw [if_neg (hword (c := 'n') (by decide) rfl), if_neg (hword (c := 't') (by decide) rfl),
    if_neg (hword (c := 'f') (by decide) rfl), if_pos (isInteger_ofNat n), digitsValue_ofNat]

/-- A digit belongs to a bare word. -/
theorem isBare_of_isDigit {c : Char} (h : c.isDigit = true) : isBare c = true := by
  have hne : ∀ {d : Char}, d.isDigit = false → c ≠ d := by
    rintro d hd rfl
    rw [h] at hd
    cases hd
  simp [isBare, isSpace, punctuation?, hne (d := ' ') rfl, hne (d := '\n') rfl,
    hne (d := '\t') rfl, hne (d := '\r') rfl, hne (d := '"') rfl, hne (d := '[') rfl,
    hne (d := ']') rfl, hne (d := '{') rfl, hne (d := '}') rfl, hne (d := ',') rfl,
    hne (d := ':') rfl]

/-! ### Strings -/

/-- Reading undoes the escape of a character. -/
theorem literalChar?_escapeChar (c : Char) (r : Text) :
    literalChar? (escapeChar c ++ r) = some (c, r) := by
  unfold escapeChar
  split
  · next h => rw [h]; rfl
  split
  · next h => rw [h]; rfl
  split
  · next h =>
    have hc : c = Char.ofNat 8 := by rw [← h, Char.ofNat_toNat]
    rw [hc]; rfl
  split
  · next h =>
    have hc : c = Char.ofNat 12 := by rw [← h, Char.ofNat_toNat]
    rw [hc]; rfl
  split
  · next h => rw [h]; rfl
  split
  · next h => rw [h]; rfl
  split
  · next h => rw [h]; rfl
  split
  · next h =>
    -- The number of the character is written in two digits behind two zeros.
    have hquad : hexQuad? ('0' :: '0' :: Nat.digitChar (c.toNat / 16)
        :: Nat.digitChar (c.toNat % 16) :: r) = some (c.toNat, r) := by
      have hzero : hexValue? '0' = some 0 := rfl
      simp only [hexQuad?, hzero, hexValue?_digitChar (show c.toNat / 16 < 16 by omega),
        hexValue?_digitChar (show c.toNat % 16 < 16 by omega)]
      congr 2
      omega
    change unicodeEscape? ('0' :: '0' :: Nat.digitChar (c.toNat / 16)
        :: Nat.digitChar (c.toNat % 16) :: r) = some (c, r)
    unfold unicodeEscape?
    simp only [hquad]
    rw [if_neg (by omega), if_neg (by omega), Char.ofNat_toNat]
  · next hquote hslash _ _ _ _ _ hctl =>
    simp [literalChar?, hslash, hctl]

/-- An escaped character does not begin with the closing quote. -/
theorem head?_escapeChar (c : Char) (r : Text) :
    ∃ d s, escapeChar c ++ r = d :: s ∧ d ≠ '"' := by
  unfold escapeChar
  split
  · exact ⟨_, _, rfl, by decide⟩
  · next hquote =>
    iterate 7
      split
      · exact ⟨_, _, rfl, by decide⟩
    exact ⟨c, r, rfl, hquote⟩

/-- Reading undoes the escapes of a literal and stops behind its closing quote. -/
theorem literal?_escaped (s r : Text) :
    literal? (s.flatMap escapeChar ++ '"' :: r) = some (s, r) := by
  induction s with
  | nil =>
    rw [List.flatMap_nil, List.nil_append, literal?]
    simp
  | cons c s ih =>
    rw [List.flatMap_cons, List.append_assoc]
    obtain ⟨d, t, heq, hd⟩ := head?_escapeChar c (s.flatMap escapeChar ++ '"' :: r)
    have hchar := literalChar?_escapeChar c (s.flatMap escapeChar ++ '"' :: r)
    rw [heq] at hchar ⊢
    rw [literal?, if_neg hd]
    split
    · next h =>
      rw [hchar] at h
      cases h
    · next c' r' h =>
      rw [hchar] at h
      cases h
      rw [ih]
      rfl

end Token

/-! ### Control characters -/

private theorem escapeChar_printable {c d : Char} (h : d ∈ escapeChar c) : 0x20 ≤ d.toNat := by
  have hhex : ∀ {n : Nat}, n < 16 → 0x20 ≤ (Nat.digitChar n).toNat := by
    intro n hn
    have h : ∀ m : Fin 16, 0x20 ≤ (Nat.digitChar m.val).toNat := by decide
    exact h ⟨n, hn⟩
  unfold escapeChar at h
  iterate 7
    split at h
    · exact Text.forall_mem_of_all (p := fun d => 0x20 ≤ d.toNat) (by decide) d h
  split at h
  · next hctl =>
    have h0 : 0x20 ≤ (Nat.digitChar (c.toNat / 16)).toNat := hhex (by omega)
    have h1 : 0x20 ≤ (Nat.digitChar (c.toNat % 16)).toNat := hhex (by omega)
    simp only [List.mem_cons, List.not_mem_nil, or_false] at h
    rcases h with rfl | rfl | rfl | rfl | rfl | rfl
    · decide
    · decide
    · decide
    · decide
    · exact h0
    · exact h1
  · next hctl =>
    rw [List.mem_singleton.mp h]
    omega

/-- A string is printed without control characters. -/
theorem printString_printable {s : Text} {d : Char} (h : d ∈ printString s) : 0x20 ≤ d.toNat := by
  rw [printString, List.mem_cons, List.mem_append, List.mem_singleton, List.mem_flatMap] at h
  rcases h with rfl | ⟨c, -, h⟩ | rfl
  · decide
  · exact escapeChar_printable h
  · decide

/-- A number is printed without control characters. -/
theorem ofNat_printable {n : Nat} {d : Char} (h : d ∈ Text.ofNat n) : 0x20 ≤ d.toNat := by
  have := isDigit_of_mem_ofNat h
  simp only [Char.isDigit, Bool.and_eq_true, decide_eq_true_eq] at this
  have hle := this.1
  change '0'.toNat ≤ d.toNat at hle
  have : '0'.toNat = 48 := rfl
  omega

end Json

end DocContract
