import DocContract.Proofs.Comment.Expressible
import DocContract.Proofs.Text.Lines

/-!
# Snippets

The lines of a snippet lose their common indentation and the blanks at their ends. What remains can
be written between fences, and the lines of a snippet that can be written lose nothing.
-/

namespace DocContract

open Text

namespace Text

/-- Leading blanks are trimmed. -/
theorem trim_blanks_append {bs t : Text} (h : ∀ b ∈ bs, isBlank b = true) :
    trim (bs ++ t) = trim t := by
  rw [trim, trimStart_blanks_append h, ← trim]

/-- Trimming the start changes nothing for trimming. -/
theorem trim_trimStart (t : Text) : trim (trimStart t) = trim t := by
  rw [trim, trimStart_solid (startsSolid_trimStart t), ← trim]

/-- The lines of a text whose pieces end solid are the pieces, without an empty one at the end. -/
theorem rawLines_eq_lines {t : Text} (h : ∀ l ∈ rawLines t, EndsSolid l) :
    rawLines t = lines t ∨ rawLines t = lines t ++ [[]] := by
  rcases List.eq_nil_or_concat' (rawLines t) with hn | ⟨init, last, hl⟩
  · exact absurd hn (rawLines_ne_nil t)
  · have hinit : init.map dropReturn = init :=
      (List.map_congr_left fun l hm => dropReturn_solid (h l (by rw [hl]; simp [hm]))).trans
        (List.map_id _)
    rw [lines, hl, linesGo_append, hinit]
    cases last with
    | nil => exact .inr (by simp)
    | cons c r => exact .inl rfl

end Text

/-! ### Common indentation -/

private theorem dropBytes_zero (t : Text) : dropBytes 0 t = t := by rw [dropBytes]

/-- What is left without some bytes stands at the end of the text. -/
theorem dropBytes_suffix (n : Nat) (t : Text) : dropBytes n t <:+ t := by
  induction t generalizing n with
  | nil => cases n <;> simp [dropBytes]
  | cons c r ih =>
    cases n with
    | zero => rw [dropBytes_zero]
    | succ n =>
      rw [dropBytes]
      split
      · exact (ih _).trans (List.suffix_cons c r)
      · exact List.nil_suffix

/-- Bytes are taken off whole characters; what is taken off leading blanks leaves the rest, or
nothing when it would split one of them. -/
theorem dropBytes_blanks {n : Nat} {bs t : Text} (h : n ≤ width bs) :
    dropBytes n (bs ++ t) = []
      ∨ ∃ front rest, bs = front ++ rest ∧ width front = n ∧ dropBytes n (bs ++ t) = rest ++ t := by
  induction bs generalizing n with
  | nil =>
    obtain rfl : n = 0 := by simpa [width] using h
    exact .inr ⟨[], [], rfl, rfl, dropBytes_zero t⟩
  | cons b bs ih =>
    cases n with
    | zero => exact .inr ⟨[], b :: bs, rfl, rfl, dropBytes_zero _⟩
    | succ n =>
      rw [width] at h
      rw [List.cons_append, dropBytes]
      split
      · next hb =>
        have hle : n + 1 - b.utf8Size ≤ width bs := by omega
        rcases ih hle with h₀ | ⟨front, rest, rfl, hwidth, h₀⟩
        · exact .inl h₀
        · exact .inr ⟨b :: front, rest, rfl, by rw [width]; omega, h₀⟩
      · exact .inl rfl

/-- Dropping the bytes of a first part leaves the rest. -/
theorem dropBytes_width (bs t : Text) : dropBytes (width bs) (bs ++ t) = t := by
  induction bs with
  | nil => exact dropBytes_zero t
  | cons b bs ih =>
    have hpos : 0 < b.utf8Size := Char.utf8Size_pos b
    obtain ⟨n, hn⟩ : ∃ n, width (b :: bs) = n + 1 :=
      ⟨b.utf8Size - 1 + width bs, by rw [width]; omega⟩
    rw [hn, List.cons_append, dropBytes, ← hn, width, if_pos (by omega),
      show b.utf8Size + width bs - b.utf8Size = width bs by omega, ih]

/-- The common indentation is that of the least indented line, blank lines apart. -/
theorem commonIndent_spec {ls : List Text} (h : ∃ l ∈ ls, isBlankText l = false) :
    (∃ l ∈ ls, isBlankText l = false ∧ Text.indent l = commonIndent ls)
      ∧ ∀ l ∈ ls, isBlankText l = false → commonIndent ls ≤ Text.indent l := by
  obtain ⟨l, hl, hb⟩ := h
  have hmem : ∀ n, n ∈ (ls.filter fun l => !isBlankText l).map Text.indent ↔
      ∃ l ∈ ls, isBlankText l = false ∧ Text.indent l = n := by
    intro n
    simp [and_assoc]
  cases hns : (ls.filter fun l => !isBlankText l).map Text.indent with
  | nil =>
    have hin := (hmem _).mpr ⟨l, hl, hb, rfl⟩
    rw [hns] at hin
    cases hin
  | cons n ns =>
    have hcommon : (n :: ns).min? = some (commonIndent ls) := by
      rw [commonIndent, hns]
      rfl
    obtain ⟨hin, hle⟩ := List.min?_eq_some_iff.mp hcommon
    rw [← hns] at hin hle
    exact ⟨(hmem _).mp hin, fun l hl hb => hle _ ((hmem _).mpr ⟨l, hl, hb, rfl⟩)⟩

private theorem commonIndent_of_blank {ls : List Text} (h : ∀ l ∈ ls, isBlankText l = true) :
    commonIndent ls = 0 := by
  have hf : ls.filter (fun l => !isBlankText l) = [] := by
    rw [List.filter_eq_nil_iff]
    intro l hl
    simp [h l hl]
  rw [commonIndent, hf]
  rfl

private theorem commonIndent_append_nil (ls : List Text) :
    commonIndent (ls ++ [[]]) = commonIndent ls := by
  simp [commonIndent, isBlankText]

/-! ### Writing a snippet -/

namespace Snippet.IsWritable

variable {sn : Snippet} (h : sn.IsWritable)

include h

/-- The lines of a snippet are raw lines of it. -/
theorem mem_rawLines {l : Text} (hl : l ∈ lines sn.body) : l ∈ rawLines sn.body := by
  rcases rawLines_eq_lines h.endsSolid with he | he
  · rw [he]
    exact hl
  · rw [he]
    exact List.mem_append_left _ hl

/-- The lines of a snippet that can be written are its body again, but for a newline at its end. -/
theorem dedent_lines : dedent (lines sn.body) = join ['\n'] (lines sn.body) := by
  have hcommon : commonIndent (lines sn.body) = 0 := by
    rcases rawLines_eq_lines h.endsSolid with he | he
    · rw [← he]
      exact h.unindented
    · rw [← commonIndent_append_nil, ← he]
      exact h.unindented
  rw [dedent, hcommon]
  congr 1
  refine (List.map_congr_left fun l hl => ?_).trans (List.map_id _)
  rw [dropBytes_zero]
  exact trimEnd_solid (h.endsSolid l (h.mem_rawLines hl))

/-- A snippet is its joined lines unless it ends with a newline. -/
theorem join_lines_eq_self : join ['\n'] (lines sn.body) = sn.body ↔
    sn.body.getLast? ≠ some '\n' := by
  constructor
  · intro hj hlast
    obtain ⟨init, hinit⟩ := List.getLast?_eq_some_iff.mp hlast
    have hsolid : ∀ l ∈ rawLines init, EndsSolid l := fun l hl =>
      h.endsSolid l (by rw [hinit, rawLines_append]; exact List.mem_append_left _ hl)
    rw [hinit, join_lines_newline hsolid] at hj
    have := congrArg List.length hj
    simp at this
  · exact join_lines h.endsSolid

end Snippet.IsWritable

/-! ### Reading a snippet -/

/-- A line of a snippet without the common indentation and its trailing blanks. -/
def dedentLine (n : Nat) (l : Text) : Text := trimEnd (dropBytes n l)

/-- A blank line is empty once its indent is removed. -/
theorem dedentLine_blank {n : Nat} {l : Text} (h : isBlankText l = true) : dedentLine n l = [] := by
  rw [dedentLine, trimEnd_eq_nil, isBlankText, List.all_eq_true]
  intro c hc
  exact List.all_eq_true.mp h c ((dropBytes_suffix n l).mem hc)

/-- Nothing but blanks goes, or else the whole line. -/
theorem trim_dedentLine {n : Nat} {l : Text} (h : n ≤ Text.indent l) :
    dedentLine n l = [] ∨ trim (dedentLine n l) = trim l := by
  have hl := leadingBlanks_append_trimStart l
  rw [dedentLine, trim_trimEnd]
  rcases dropBytes_blanks (t := trimStart l) h with h₀ | ⟨front, rest, hblanks, -, h₀⟩ <;>
    rw [hl] at h₀
  · left
    rw [h₀]
    rfl
  · right
    have hrest : ∀ c ∈ rest, isBlank c = true := fun c hc =>
      isBlank_of_mem_leadingBlanks (hblanks ▸ List.mem_append_right front hc)
    rw [h₀, trim_blanks_append hrest, trim_trimStart]

/-- The least indented line is not indented any more, and still not blank. -/
theorem dedentLine_least (l : Text) : dedentLine (Text.indent l) l = trim l := by
  have hd := dropBytes_width (leadingBlanks l) (trimStart l)
  rw [leadingBlanks_append_trimStart] at hd
  rw [dedentLine, Text.indent, hd, ← trim]

private theorem indent_trim (l : Text) : Text.indent (trim l) = 0 := by
  have hl : leadingBlanks ([] ++ trim l) = [] :=
    leadingBlanks_blanks_append (by simp) (startsSolid_trim l)
  rw [List.nil_append] at hl
  rw [Text.indent, hl]
  rfl

private theorem isBlankText_trim (l : Text) : isBlankText (trim l) = isBlankText l := by
  rw [Bool.eq_iff_iff, ← trim_eq_nil, trim_trim, trim_eq_nil]

private theorem commonIndent_dedentLine (ls : List Text) :
    commonIndent (ls.map (dedentLine (commonIndent ls))) = 0 := by
  by_cases h : ∃ l ∈ ls, isBlankText l = false
  · obtain ⟨l, hl, hb, hind⟩ := (commonIndent_spec h).1
    have hleast : dedentLine (commonIndent ls) l = trim l := hind ▸ dedentLine_least l
    have hmem : trim l ∈ ls.map (dedentLine (commonIndent ls)) :=
      List.mem_map.mpr ⟨l, hl, hleast⟩
    have hblank : isBlankText (trim l) = false := by rw [isBlankText_trim, hb]
    have hle := (commonIndent_spec ⟨_, hmem, hblank⟩).2 _ hmem hblank
    rw [indent_trim] at hle
    exact Nat.le_zero.mp hle
  · apply commonIndent_of_blank
    intro l' hl'
    obtain ⟨l, hl, rfl⟩ := List.mem_map.mp hl'
    have hb : isBlankText l = true := by
      rw [← Bool.not_eq_false]
      exact fun hb => h ⟨l, hl, hb⟩
    rw [dedentLine_blank hb]
    rfl

/-- The snippet that is read from lines can be written. -/
theorem Snippet.isWritable_dedent {language : Text} {ls : List Text} (hl : IsTidy language)
    (hn : ∀ l ∈ ls, '\n' ∉ l) (hf : ∀ l ∈ ls, trim l ≠ fenceMark) :
    Snippet.IsWritable ⟨language, dedent ls⟩ := by
  have hfence : trim [] ≠ fenceMark := by decide
  by_cases hne : ls = []
  · subst hne
    have hraw : rawLines (dedent []) = [[]] := rfl
    exact ⟨hl, by simp [hraw], by simpa [hraw] using hfence, by rw [hraw]; rfl⟩
  · have hraw : rawLines (dedent ls) = ls.map (dedentLine (commonIndent ls)) := by
      apply splitOn_join (by simpa using hne)
      intro t ht hm
      obtain ⟨l, hl, rfl⟩ := List.mem_map.mp ht
      exact hn l hl ((dropBytes_suffix _ l).mem (mem_of_mem_trimEnd hm))
    refine ⟨hl, ?_, ?_, ?_⟩
    · intro t ht
      rw [hraw] at ht
      obtain ⟨l, -, rfl⟩ := List.mem_map.mp ht
      exact endsSolid_trimEnd _
    · intro t ht
      rw [hraw] at ht
      obtain ⟨l, hl, rfl⟩ := List.mem_map.mp ht
      by_cases hb : isBlankText l = true
      · rw [dedentLine_blank hb]
        exact hfence
      · have hle := (commonIndent_spec ⟨l, hl, Bool.eq_false_iff.mpr hb⟩).2 l hl
          (Bool.eq_false_iff.mpr hb)
        rcases trim_dedentLine hle with h₀ | h₀ <;> rw [h₀]
        · exact hfence
        · exact hf l hl
    · rw [hraw]
      exact commonIndent_dedentLine ls

end DocContract
