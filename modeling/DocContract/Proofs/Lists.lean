import Mathlib.Data.List.TakeWhile

/-!
# Lists

Readers take the first elements of a list up to one that stops them, and what is found in a text
stands in an order. Here is what is said of lists for both.
-/

namespace DocContract

section Stops

variable {α : Type} {p : α → Bool}

/-- Behind an element that stops it, nothing more is taken. -/
theorem takeWhile_append_stop (as : List α) {ms : List α} (h : ∀ m ∈ ms.head?, p m = false) :
    (as ++ ms).takeWhile p = as.takeWhile p := by
  induction as with
  | nil => cases ms <;> simp_all
  | cons a as ih => by_cases ha : p a = true <;> simp [ha, ih]

/-- What is dropped from the front of joined lists ends in the first one when the second one stops
it. -/
theorem dropWhile_append_stop (as : List α) {ms : List α} (h : ∀ m ∈ ms.head?, p m = false) :
    (as ++ ms).dropWhile p = as.dropWhile p ++ ms := by
  induction as with
  | nil => cases ms <;> simp_all
  | cons a as ih => by_cases ha : p a = true <;> simp [ha, ih]

/-- What satisfies `p` up to an element that does not is taken off whole. -/
theorem takeWhile_run {t tail : List α} (ht : ∀ c ∈ t, p c = true)
    (htail : ∀ c ∈ tail.head?, p c = false) : (t ++ tail).takeWhile p = t := by
  rw [takeWhile_append_stop t htail, List.takeWhile_eq_self_iff.mpr ht]

/-- A run is dropped as a whole, up to what stops it. -/
theorem dropWhile_run {t tail : List α} (ht : ∀ c ∈ t, p c = true)
    (htail : ∀ c ∈ tail.head?, p c = false) : (t ++ tail).dropWhile p = tail := by
  rw [dropWhile_append_stop t htail, List.dropWhile_eq_nil_iff.mpr ht, List.nil_append]

end Stops

variable {α : Type} {xs ys : List α}

/-- Some element of joined lists has a property when one of either list has it. -/
theorem exists_mem_append {p : α → Prop} :
    (∃ x ∈ xs ++ ys, p x) ↔ (∃ x ∈ xs, p x) ∨ ∃ x ∈ ys, p x := by
  simp only [List.mem_append, or_and_right, exists_or]

/-- Between the elements of a list there is nothing but the separator. -/
theorem mem_of_mem_intersperse {sep x : α} (h : x ∈ xs.intersperse sep) : x ∈ xs ∨ x = sep := by
  induction xs with
  | nil => cases h
  | cons y ys ih =>
    cases ys with
    | nil => exact .inl h
    | cons z zs =>
      rw [List.intersperse_cons_cons, List.mem_cons, List.mem_cons] at h
      rcases h with rfl | rfl | h
      · exact .inl List.mem_cons_self
      · exact .inr rfl
      · exact (ih h).imp_left (List.mem_cons_of_mem _)

/-- Of two elements of a list in order, one comes before the other. -/
theorem eq_or_of_pairwise {r : α → α → Prop} (h : xs.Pairwise r) {x y : α} (hx : x ∈ xs)
    (hy : y ∈ xs) : x = y ∨ r x y ∨ r y x := by
  induction h with
  | nil => cases hx
  | cons hhead _ ih =>
    rcases List.mem_cons.mp hx with rfl | hxs <;> rcases List.mem_cons.mp hy with rfl | hys
    · exact .inl rfl
    · exact .inr (.inl (hhead y hys))
    · exact .inr (.inr (hhead x hxs))
    · exact ih hxs hys

/-- The selected items are those of a narrower selection exactly when nothing else is selected. -/
theorem map_filter_eq_iff {β : Type} {p q : α → Bool} (f : α → β)
    (hqp : ∀ x ∈ xs, q x = true → p x = true) :
    (xs.filter p).map f = (xs.filter q).map f ↔ ∀ x ∈ xs, p x = true → q x = true := by
  constructor
  · intro h x hx hp
    have hsub : (xs.filter q).Sublist (xs.filter p) := by
      have hq : xs.filter q = (xs.filter p).filter q := by
        rw [List.filter_filter]
        refine List.filter_congr fun y hy => ?_
        cases hqy : q y with
        | false => rfl
        | true => rw [hqp y hy hqy]; rfl
      rw [hq]
      exact List.filter_sublist
    have hlength := congrArg List.length h
    rw [List.length_map, List.length_map] at hlength
    have hmem : x ∈ xs.filter q := by
      rw [hsub.eq_of_length hlength.symm]
      exact List.mem_filter.mpr ⟨hx, hp⟩
    exact (List.mem_filter.mp hmem).2
  · intro h
    have hfilter : xs.filter p = xs.filter q := by
      refine List.filter_congr fun x hx => ?_
      rw [Bool.eq_iff_iff]
      exact ⟨h x hx, hqp x hx⟩
    rw [hfilter]

end DocContract
