import DocContract.Proofs.Text.Lines
import DocContract.Proofs.Text.Trim

/-!
# Parts of a line at a column

A column is counted in bytes from one. A part of a text stands at a column when the bytes in front
of it are one less, and the parts of a part stand as far behind it as they begin in it.
-/

namespace DocContract.Text

/-- The width of joined texts is the sum of their widths. -/
theorem width_append (t u : Text) : width (t ++ u) = width t + width u := by
  induction t with
  | nil => simp [width]
  | cons c r ih =>
    simp only [List.cons_append, width, ih]
    omega

/-- A run of spaces is as wide as it is long. -/
theorem width_replicate_space (n : Nat) : width (List.replicate n ' ') = n := by
  induction n with
  | zero => rfl
  | succ n ih =>
    have hspace : ' '.utf8Size = 1 := rfl
    rw [List.replicate_succ, width, ih, hspace]
    omega

/-- The part stands in the line where the column says. -/
def StandsAt (line : Text) (column : Nat) (part : Text) : Prop :=
  ∃ before after, line = before ++ (part ++ after) ∧ width before + 1 = column

namespace StandsAt

variable {line part : Text} {column : Nat}

/-- A line stands at its first column. -/
theorem self (line : Text) : StandsAt line 1 line := ⟨[], [], by simp, rfl⟩

/-- What stands behind the beginning of a part. -/
theorem behind {before rest : Text} (h : StandsAt line column (before ++ rest)) :
    StandsAt line (column + width before) rest := by
  obtain ⟨front, back, rfl, rfl⟩ := h
  refine ⟨front ++ before, back, by simp, ?_⟩
  rw [width_append]
  omega

/-- Behind its first character a text stands as many bytes further as that one has. -/
theorem tail {c : Char} {rest : Text} (h : StandsAt line column (c :: rest)) :
    StandsAt line (column + c.utf8Size) rest :=
  @behind line column [c] rest h

/-- The beginning of a part stands where the part does. -/
theorem of_isPrefixOf {start : Text} (h : StandsAt line column part) (hs : start <+: part) :
    StandsAt line column start := by
  obtain ⟨front, back, rfl, rfl⟩ := h
  obtain ⟨rest, rfl⟩ := hs
  exact ⟨front, rest ++ back, by simp, rfl⟩

/-- The text of a part begins behind its blanks. -/
theorem trimStart (h : StandsAt line column part) :
    StandsAt line (column + indent part) (trimStart part) := by
  rw [← leadingBlanks_append_trimStart part] at h
  exact h.behind

/-- A part stands in a line as it does in the beginning of the line. -/
theorem of_line {line' : Text} (h : StandsAt line column part) (hl : line <+: line') :
    StandsAt line' column part := by
  obtain ⟨front, back, rfl, rfl⟩ := h
  obtain ⟨rest, rfl⟩ := hl
  exact ⟨front, back ++ rest, by simp, rfl⟩

/-- A part of a part, whose columns are both counted from one. -/
theorem trans {piece : Text} {inner : Nat} (h : StandsAt line column part)
    (hp : StandsAt part inner piece) : StandsAt line (column + inner - 1) piece := by
  obtain ⟨front, back, rfl, rfl⟩ := hp
  have := h.behind
  rw [show column + (width front + 1) - 1 = column + width front by omega]
  exact this.of_isPrefixOf (List.prefix_append _ _)

end StandsAt

/-! ### Lines of a text -/

/-- The part stands in the line of the text with the number, counted from one, at the column. -/
def HoldsAt (t : Text) (number column : Nat) (part : Text) : Prop :=
  ∃ i line, number = i + 1 ∧ (rawLines t)[i]? = some line ∧ StandsAt line column part

/-- The characters of a text up to the first blank. -/
def firstWord (t : Text) : Text := t.takeWhile fun c => !isBlank c

/-- A text that begins with a character other than a blank has a first word. -/
theorem firstWord_ne_nil {t : Text} (hne : t ≠ []) (h : StartsSolid t) : firstWord t ≠ [] := by
  cases t with
  | nil => exact absurd rfl hne
  | cons c r => simp [firstWord, startsSolid_cons.mp h]

/-- What follows a blank does not change the first word. -/
theorem firstWord_append_blank (t : Text) {c : Char} (hc : isBlank c = true) (r : Text) :
    firstWord (t ++ c :: r) = firstWord t := by
  induction t with
  | nil => simp [firstWord, hc]
  | cons d t ih =>
    cases hd : isBlank d with
    | true => simp [firstWord, hd]
    | false =>
      have : firstWord (t ++ c :: r) = firstWord t := ih
      simpa [firstWord, hd] using this

/-- The first word of a text stands at its start. -/
theorem firstWord_isPrefixOf (t : Text) : firstWord t <+: t := List.takeWhile_prefix _

end DocContract.Text
