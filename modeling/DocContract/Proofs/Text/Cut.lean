import DocContract.Proofs.Lists
import DocContract.Text

/-!
# Beginnings and parts of a text

What `after?` and `cut?` find is where it says: in front of the rest stands the beginning, and a cut
text is what stands before the part, the part and what stands behind it.
-/

namespace DocContract.Text

/-- A rest is found behind a start when the two make up the text. -/
theorem after?_eq_some_iff {start t rest : Text} :
    after? start t = some rest ↔ t = start ++ rest := by
  induction start generalizing t with
  | nil => simp [after?]
  | cons c r ih =>
    cases t with
    | nil => simp [after?]
    | cons d t =>
      rw [after?]
      split
      · next h => simp [h, ih]
      · next h => simp [Ne.symm h]

private theorem after?_append (start rest : Text) : after? start (start ++ rest) = some rest :=
  after?_eq_some_iff.mpr rfl

/-- A text starts with what is a prefix of it. -/
theorem startsWith_iff {t start : Text} : startsWith t start = true ↔ start <+: t := by
  rw [startsWith, Option.isSome_iff_exists]
  constructor
  · rintro ⟨rest, h⟩
    exact ⟨rest, (after?_eq_some_iff.mp h).symm⟩
  · rintro ⟨rest, rfl⟩
    exact ⟨rest, after?_append start rest⟩

private theorem cut?_cons (part : Text) (c : Char) (r : Text) : cut? part (c :: r) =
    match after? part (c :: r) with
    | some rest => some ([], rest)
    | none => (cut? part r).map fun p => (c :: p.1, p.2) := by
  cases hstart : after? part (c :: r) <;> simp [cut?, hstart]

/-- A cut text is put together again from its pieces. -/
theorem append_of_cut? {part t before rest : Text} (h : cut? part t = some (before, rest)) :
    t = before ++ (part ++ rest) := by
  induction t generalizing before with
  | nil =>
    rw [cut?] at h
    split at h
    · next r hr =>
      cases h
      rw [List.nil_append, after?_eq_some_iff.mp hr]
    · cases h
  | cons c r ih =>
    rw [cut?_cons] at h
    split at h
    · next rest' hr =>
      cases h
      rw [List.nil_append, after?_eq_some_iff.mp hr]
    · obtain ⟨⟨before', rest'⟩, hp, heq⟩ := Option.map_eq_some_iff.mp h
      cases heq
      rw [ih hp]
      rfl

/-- A text is cut at a part exactly when it holds it. -/
theorem isSome_cut? (part t : Text) : (cut? part t).isSome = contains t part := by
  induction t with
  | nil => cases part <;> rfl
  | cons c r ih =>
    rw [cut?_cons, contains, startsWith, ← ih]
    cases after? part (c :: r) <;> simp

/-- A text holds a part exactly when the part stands somewhere in it. -/
theorem contains_iff {t part : Text} :
    contains t part = true ↔ ∃ before rest, t = before ++ (part ++ rest) := by
  constructor
  · intro h
    rw [← isSome_cut?, Option.isSome_iff_exists] at h
    obtain ⟨⟨before, rest⟩, hcut⟩ := h
    exact ⟨before, rest, append_of_cut? hcut⟩
  · rintro ⟨before, rest, rfl⟩
    induction before with
    | nil =>
      have hcut : cut? part (part ++ rest) = some ([], rest) := by
        rw [cut?.eq_def, after?_append]
      rw [List.nil_append, ← isSome_cut?, hcut]
      rfl
    | cons c r ih => rw [List.cons_append, contains, ih, Bool.or_true]

/-- What a text does not hold, no piece of it holds. -/
theorem contains_of_isInfix {t u part : Text} (h : contains t part = false) (hu : u <:+: t) :
    contains u part = false := by
  rw [Bool.eq_false_iff] at h ⊢
  rw [ne_eq, contains_iff] at h ⊢
  rintro ⟨before, rest, rfl⟩
  obtain ⟨front, back, rfl⟩ := hu
  exact h ⟨front ++ before, rest ++ back, by simp [List.append_assoc]⟩

/-- A text is cut where the part stands for the first time. -/
theorem length_le_of_cut? {part t before rest : Text} (h : cut? part t = some (before, rest))
    {front back : Text} (ht : t = front ++ (part ++ back)) : before.length ≤ front.length := by
  induction front generalizing t before with
  | nil =>
    rw [cut?.eq_def, ht, List.nil_append, after?_append] at h
    cases h
    exact Nat.le_refl _
  | cons c front ih =>
    rw [ht, List.cons_append, cut?_cons] at h
    split at h
    · cases h
      exact Nat.zero_le _
    · obtain ⟨⟨before', rest'⟩, hcut, heq⟩ := Option.map_eq_some_iff.mp h
      cases heq
      exact Nat.succ_le_succ (ih hcut rfl)

/-- A text is not cut at a part that it does not contain. -/
theorem cut?_eq_none_iff {part t : Text} : cut? part t = none ↔ contains t part = false := by
  rw [← isSome_cut?, Option.isSome_eq_false_iff, Option.isNone_iff_eq_none]

/-- A text that does not begin with the part is cut where the text behind its first character is. -/
theorem cut?_cons_of_not_startsWith {part : Text} {c : Char} {r : Text}
    (h : startsWith (c :: r) part = false) :
    cut? part (c :: r) = (cut? part r).map fun p => (c :: p.1, p.2) := by
  have hnone : after? part (c :: r) = none := by
    rwa [startsWith, Option.isSome_eq_false_iff, Option.isNone_iff_eq_none] at h
  rw [cut?_cons, hnone]

end DocContract.Text
