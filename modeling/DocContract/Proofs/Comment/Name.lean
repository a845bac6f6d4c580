import DocContract.Comment.Header
import DocContract.Proofs.Text.Lines

/-!
# Names

The characters of names and what they are not: no name holds a blank, and the sign that follows a
name in a header is none of its characters, so a name is read up to that sign.
-/

namespace DocContract.Text

/-- The code points of the blanks. -/
def blankCodes : List Nat :=
  List.range' 9 5 ++ [0x20, 0x85, 0xA0, 0x1680] ++ List.range' 0x2000 11
    ++ [0x2028, 0x2029, 0x202F, 0x205F, 0x3000]

private theorem toNat_mem_blankCodes {c : Char} (h : isBlank c = true) : c.toNat ∈ blankCodes := by
  simp only [isBlank, Bool.or_eq_true, Bool.and_eq_true, decide_eq_true_eq, beq_iff_eq] at h
  simp only [blankCodes, List.mem_append, List.mem_range'_1, List.mem_cons, List.not_mem_nil]
  omega

/-- The number lies outside the range. -/
def misses (n : Nat) (range : Nat × Nat) : Bool := n.blt range.1 || range.2.blt n

private theorem wordRanges_misses :
    (blankCodes.filter (128 ≤ ·)).all (fun n => wordRanges.toList.all (misses n)) = true := by
  decide +kernel

private theorem inRanges_of_misses {ranges : Array (Nat × Nat)} {n : Nat}
    (h : ranges.toList.all (misses n) = true) : inRanges ranges n = false := by
  rw [inRanges, ← Array.any_toList, List.any_eq_false]
  intro range hr
  have hm := List.all_eq_true.mp h range hr
  simp only [misses, Bool.or_eq_true, Nat.blt_eq] at hm
  simp only [Bool.and_eq_true, decide_eq_true_eq]
  omega

/-- No blank is a word character. -/
theorem isWord_of_isBlank {c : Char} (h : isBlank c = true) : isWord c = false := by
  have hc := toNat_mem_blankCodes h
  unfold isWord
  split
  · next hlt =>
    have hall : ∀ n ∈ blankCodes.filter (· < 128), isAsciiWord (Char.ofNat n) = false := by
      decide
    rw [← Char.ofNat_toNat c]
    exact hall _ (List.mem_filter.mpr ⟨hc, by simpa using hlt⟩)
  · next hge =>
    refine inRanges_of_misses (List.all_eq_true.mp wordRanges_misses _ ?_)
    exact List.mem_filter.mpr ⟨hc, by simpa using hge⟩

/-- A word character is not blank. -/
theorem isBlank_of_isWord {c : Char} (h : isWord c = true) : isBlank c = false := by
  cases hb : isBlank c with
  | false => rfl
  | true => rw [isWord_of_isBlank hb] at h; cases h

private theorem isBlank_of_isIdentTail {c : Char} (h : isIdentTail c = true) :
    isBlank c = false := by
  rw [isIdentTail, Bool.or_eq_true] at h
  rcases h with h | h
  · exact isBlank_of_isWord h
  · rw [beq_iff_eq.mp h]; decide

/-- A letter is a word character. -/
theorem isWord_of_isAlpha {c : Char} (h : c.isAlpha = true) : isWord c = true := by
  have hn : c.toNat < 128 := by
    have hcase : c.isUpper = true ∨ c.isLower = true := Bool.or_eq_true_iff.mp h
    have hupper : c.isUpper = true → c.toNat ≤ 90 := fun hu =>
      UInt32.le_iff_toNat_le.mp (of_decide_eq_true hu).2
    have hlower : c.isLower = true → c.toNat ≤ 122 := fun hl =>
      UInt32.le_iff_toNat_le.mp (of_decide_eq_true (Bool.and_eq_true_iff.mp hl).2)
    rcases hcase with hu | hl
    · have := hupper hu
      omega
    · have := hlower hl
      omega
  simp [isWord, hn, isAsciiWord, Char.isAlphanum, h]

private theorem isIdentTail_of_isIdentHead {c : Char} (h : isIdentHead c = true) :
    isIdentTail c = true := by
  simp only [isIdentHead, Bool.or_eq_true, beq_iff_eq] at h
  rcases h with (h | rfl) | rfl
  · simp [isIdentTail, isWord_of_isAlpha h]
  · decide
  · decide

end DocContract.Text

namespace DocContract.Header

open Text

/-! ### Identifiers -/

/-- The characters of an identifier are those that identifiers go on with. -/
theorem isIdentTail_of_mem {t : Text} (h : isIdentifier t = true) {c : Char} (hc : c ∈ t) :
    isIdentTail c = true := by
  cases t with
  | nil => cases hc
  | cons d r =>
    simp only [isIdentifier, Bool.and_eq_true, List.all_eq_true] at h
    rcases List.mem_cons.mp hc with rfl | hc
    · exact isIdentTail_of_isIdentHead h.1
    · exact h.2 c hc

/-- An identifier has a first character, of which only some can be. -/
theorem exists_identHead {t : Text} (h : isIdentifier t = true) :
    ∃ c r, t = c :: r ∧ isIdentHead c = true := by
  cases t with
  | nil => cases h
  | cons c r =>
    simp only [isIdentifier, Bool.and_eq_true] at h
    exact ⟨c, r, rfl, h.1⟩

/-! ### Segments and names -/

/-- A segment is what is left without its element mark, perhaps with the mark. -/
theorem dropElementMark_eq (segment : Text) :
    segment = dropElementMark segment ∨ segment = dropElementMark segment ++ ['[', ']'] := by
  unfold dropElementMark
  split
  · next r h =>
    right
    rw [← List.reverse_inj, h]
    simp
  · exact .inl rfl

private theorem isNameChar_of_mem_segment {segment : Text} (h : isSegment segment = true) {c : Char}
    (hc : c ∈ segment) : isNameChar c = true := by
  have hident : ∀ d ∈ dropElementMark segment, isNameChar d = true := fun d hd => by
    simp [isNameChar, isIdentTail_of_mem h hd]
  rcases dropElementMark_eq segment with he | he
  · rw [he] at hc
    exact hident c hc
  · rw [he] at hc
    rcases List.mem_append.mp hc with hc | hc
    · exact hident c hc
    · simp only [List.mem_cons, List.not_mem_nil, or_false] at hc
      rcases hc with rfl | rfl <;> decide

/-- A segment begins as an identifier does. -/
theorem segment_head {segment : Text} (h : isSegment segment = true) :
    ∃ c r, segment = c :: r ∧ isIdentHead c = true := by
  obtain ⟨c, r, hd, hc⟩ := exists_identHead h
  rcases dropElementMark_eq segment with he | he <;> rw [he, hd]
  · exact ⟨c, r, rfl, hc⟩
  · exact ⟨c, r ++ ['[', ']'], rfl, hc⟩

/-- The characters of a name are name characters. -/
theorem isNameChar_of_mem {name : Text} (h : isName name = true) {c : Char} (hc : c ∈ name) :
    isNameChar c = true := by
  rw [isName, List.all_eq_true] at h
  rw [← join_splitOn '.' name] at hc
  revert hc
  generalize splitOn '.' name = pieces at h
  intro hc
  induction pieces with
  | nil => cases hc
  | cons piece rest ih =>
    obtain ⟨hp, hr⟩ := List.forall_mem_cons.mp h
    by_cases hn : rest = []
    · subst hn
      exact isNameChar_of_mem_segment hp hc
    · rw [join_cons hn, List.mem_append, List.mem_append] at hc
      rcases hc with (hc | hc) | hc
      · exact isNameChar_of_mem_segment hp hc
      · rw [List.mem_singleton.mp hc]; decide
      · exact ih hr hc

/-- A name begins as an identifier does. -/
theorem name_head {name : Text} (h : isName name = true) :
    ∃ c r, name = c :: r ∧ isIdentHead c = true := by
  rw [isName, List.all_eq_true] at h
  obtain ⟨piece, pieces, hs⟩ := List.exists_cons_of_ne_nil (splitOn_ne_nil '.' name)
  obtain ⟨c, r, rfl, hc⟩ := segment_head (h piece (by rw [hs]; exact List.mem_cons_self))
  refine ⟨c, ?_⟩
  have hj := join_splitOn '.' name
  rw [hs] at hj
  cases pieces with
  | nil => exact ⟨r, hj.symm, hc⟩
  | cons u us => exact ⟨r ++ ['.'] ++ join ['.'] (u :: us), by rw [← hj]; rfl, hc⟩

/-- A name character is not blank. -/
theorem isBlank_of_isNameChar {c : Char} (h : isNameChar c = true) : isBlank c = false := by
  simp only [isNameChar, Bool.or_eq_true, beq_iff_eq] at h
  rcases h with ((h | rfl) | rfl) | rfl
  · exact isBlank_of_isIdentTail h
  all_goals decide

/-- A name is not empty. -/
theorem name_ne_nil {name : Text} (h : isName name = true) : name ≠ [] := by
  obtain ⟨c, r, rfl, -⟩ := name_head h
  simp

/-- A text whose characters are solid is tidy. -/
theorem isTidy_of_solid {t : Text} (h : ∀ c ∈ t, isBlank c = false) : IsTidy t := by
  refine .of_ends (fun c hc => h c (List.mem_of_mem_head? hc))
    (fun c hc => h c (List.mem_of_mem_getLast? hc)) fun hn => ?_
  exact absurd (h _ hn) (by decide)

/-- A name is tidy. -/
theorem isTidy_name {name : Text} (h : isName name = true) : IsTidy name :=
  isTidy_of_solid fun _ hc => isBlank_of_isNameChar (isNameChar_of_mem h hc)

/-- An identifier is tidy. -/
theorem isTidy_identifier {t : Text} (h : isIdentifier t = true) : IsTidy t :=
  isTidy_of_solid fun _ hc => isBlank_of_isIdentTail (isIdentTail_of_mem h hc)

end DocContract.Header
