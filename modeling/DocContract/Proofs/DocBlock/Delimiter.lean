import DocContract.DocBlock
import DocContract.Proofs.Text.Cut
import Mathlib.Data.List.Infix

/-!
# The closing delimiter

A comment ends where the closing delimiter stands for the first time. The delimiter does not reach
over the end of a line, so a text without one may be read line by line.
-/

namespace DocContract

open Text

/-- A text has no closer when none begins at its first character or in the rest. -/
theorem contains_closeMark_cons {c : Char} {r : Text} :
    contains (c :: r) closeMark = false
      ↔ ¬ (c = '*' ∧ ['/'] <+: r) ∧ contains r closeMark = false := by
  have hmark : closeMark = ['*', '/'] := rfl
  rw [contains, Bool.or_eq_false_iff, Bool.eq_false_iff, ne_eq, startsWith_iff, hmark,
    List.cons_prefix_cons, eq_comm (a := c)]

/-- A text without stars has no closer. -/
theorem contains_closeMark_of_not_mem {t : Text} (h : '*' ∉ t) : contains t closeMark = false := by
  induction t with
  | nil => rfl
  | cons c r ih =>
    refine contains_closeMark_cons.mpr ⟨fun hc => h ?_, ih fun hm => h (List.mem_cons_of_mem _ hm)⟩
    rw [hc.1]
    exact List.mem_cons_self

/-- A closing delimiter does not reach over a character that is none of its own. -/
theorem contains_closeMark_append {t u : Text} {c : Char} (hstar : c ≠ '*') (hslash : c ≠ '/')
    (ht : contains t closeMark = false) (hu : contains u closeMark = false) :
    contains (t ++ c :: u) closeMark = false := by
  induction t with
  | nil => exact contains_closeMark_cons.mpr ⟨fun h => hstar h.1, hu⟩
  | cons d t ih =>
    obtain ⟨hd, ht⟩ := contains_closeMark_cons.mp ht
    refine contains_closeMark_cons.mpr ⟨fun h => hd ⟨h.1, ?_⟩, ih ht⟩
    cases t with
    | nil => exact absurd (List.cons_prefix_cons.mp h.2).1.symm hslash
    | cons e t =>
      exact List.cons_prefix_cons.mpr ⟨(List.cons_prefix_cons.mp h.2).1, List.nil_prefix⟩


/-- A text without a slash completes no closing delimiter. -/
theorem contains_closeMark_append_of_not_mem {t u : Text} (ht : contains t closeMark = false)
    (hu : '/' ∉ u) : contains (t ++ u) closeMark = false := by
  induction t with
  | nil =>
    rw [List.nil_append, Bool.eq_false_iff, ne_eq, contains_iff]
    rintro ⟨before, rest, rfl⟩
    exact hu (by simp [closeMark])
  | cons c t ih =>
    obtain ⟨hc, ht⟩ := contains_closeMark_cons.mp ht
    refine contains_closeMark_cons.mpr ⟨fun h => ?_, ih ht⟩
    cases t with
    | nil => exact hu (h.2.subset List.mem_cons_self)
    | cons d t =>
      exact hc ⟨h.1, List.cons_prefix_cons.mpr
        ⟨(List.cons_prefix_cons.mp h.2).1, List.nil_prefix⟩⟩

/-- A line and what stands behind its text: nothing, or a carriage return. -/
theorem exists_dropReturn (t : Text) :
    ∃ back, t = dropReturn t ++ back ∧ (back = [] ∨ back = ['\r']) := by
  unfold dropReturn
  split
  · next hlast =>
    obtain ⟨init, rfl⟩ := List.getLast?_eq_some_iff.mp hlast
    exact ⟨['\r'], by rw [List.dropLast_concat], .inr rfl⟩
  · exact ⟨[], (List.append_nil t).symm, .inl rfl⟩

/-- What stands behind the text of a line completes no delimiter. -/
theorem exists_dropReturn_append (t : Text) : ∃ back, t = dropReturn t ++ back ∧ '/' ∉ back := by
  obtain ⟨back, ht, rfl | rfl⟩ := exists_dropReturn t
  · exact ⟨[], ht, by decide⟩
  · exact ⟨['\r'], ht, by decide⟩

/-- The text is empty or a newline ends it. -/
def IsLines (t : Text) : Prop := t = [] ∨ t.getLast? = some '\n'

/-- A text that a newline ends is made of whole lines. -/
theorem isLines_append_newline (t : Text) : IsLines (t ++ ['\n']) := .inr List.getLast?_concat

/-- A line without a delimiter, put behind whole lines without one. -/
theorem contains_closeMark_append_lines {t u : Text} (hlines : IsLines t)
    (ht : contains t closeMark = false) (hu : contains u closeMark = false) :
    contains (t ++ u) closeMark = false := by
  rcases hlines with rfl | hlast
  · exact hu
  · obtain ⟨init, rfl⟩ := List.getLast?_eq_some_iff.mp hlast
    have hinit : contains init closeMark = false :=
      contains_of_isInfix ht (List.prefix_append init _).isInfix
    rw [List.append_assoc, List.singleton_append]
    exact contains_closeMark_append (by decide) (by decide) hinit hu

/-- A closing delimiter behind the text is the first one. -/
def ClosesOnce (t : Text) : Prop :=
  ∀ before rest, t ++ closeMark = before ++ (closeMark ++ rest) → rest = []

/-- A text with its only closer at the end of a line has none in front of it. -/
theorem ClosesOnce.contains_eq_false {t : Text} (h : ClosesOnce t) :
    contains t closeMark = false := by
  rw [Bool.eq_false_iff, ne_eq, contains_iff]
  rintro ⟨before, rest, rfl⟩
  have hnil := h before (rest ++ closeMark) (by simp)
  exact absurd (List.append_eq_nil_iff.mp hnil).2 (by decide)

/-- A text is cut at the first closing delimiter. -/
theorem closesOnce_of_cut? {t before rest : Text} (h : cut? closeMark t = some (before, rest)) :
    ClosesOnce before := by
  intro front back heq
  have ht : t = front ++ (closeMark ++ (back ++ rest)) := by
    rw [append_of_cut? h, ← List.append_assoc, heq]
    simp
  have hle := length_le_of_cut? h ht
  have hlength := congrArg List.length heq
  simp only [List.length_append] at hlength
  exact List.eq_nil_of_length_eq_zero (by omega)

/-- What closes a line closes the lines above it that have no closing delimiter. -/
theorem ClosesOnce.append_lines {t u : Text} (hu : ClosesOnce u) (hlines : IsLines t)
    (ht : contains t closeMark = false) : ClosesOnce (t ++ u) := by
  intro front back heq
  rw [List.append_assoc, List.append_eq_append_iff] at heq
  rcases heq with ⟨more, -, hmore⟩ | ⟨more, rfl, hmore⟩
  · exact hu more back hmore
  · cases more with
    | nil => exact hu [] back hmore.symm
    | cons c more =>
      exfalso
      have hmark : closeMark = ['*', '/'] := rfl
      rw [hmark] at hmore
      obtain rfl : '*' = c := (List.cons.inj hmore).1
      cases more with
      | nil =>
        -- The lines would end with the first character of the delimiter.
        have hlast := hlines.resolve_left (by simp)
        rw [List.getLast?_concat] at hlast
        cases hlast
      | cons d more =>
        obtain rfl : '/' = d := (List.cons.inj (List.cons.inj hmore).2).1
        exact Bool.eq_false_iff.mp ht (contains_iff.mpr ⟨front, more, rfl⟩)

end DocContract
