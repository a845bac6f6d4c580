import DocContract.Text

/-!
# Lists as finite maps

A list of pairs is looked up from its front. Putting a value under a key replaces the value that is
there, or adds a pair at the end; either way just the value of that key changes.
-/

namespace DocContract

section Lookup

variable {α β : Type} [BEq α]

/-- A lookup stops at the first pair when that has the key. -/
theorem lookup_cons_eq (p : α × β) (ps : List (α × β)) (a : α) :
    (p :: ps).lookup a = if a == p.1 then some p.2 else ps.lookup a := by
  rw [List.lookup_cons]
  cases a == p.1 <;> rfl

variable [LawfulBEq α]

/-- What a lookup finds stands in the list under the key. -/
theorem mem_of_lookup {ps : List (α × β)} {a : α} {b : β} (h : ps.lookup a = some b) :
    (a, b) ∈ ps := by
  induction ps with
  | nil => cases h
  | cons p ps ih =>
    obtain ⟨c, d⟩ := p
    rw [lookup_cons_eq] at h
    by_cases hac : (a == c) = true
    · rw [if_pos hac] at h
      cases h
      rw [eq_of_beq hac]
      exact List.mem_cons_self
    · rw [if_neg hac] at h
      exact List.mem_cons_of_mem _ (ih h)

private theorem lookup_append_singleton {ps : List (α × β)} {a x : α} {b : β}
    (h : ps.lookup a = none) :
    (ps ++ [(a, b)]).lookup x = if x == a then some b else ps.lookup x := by
  induction ps with
  | nil =>
    rw [List.nil_append, lookup_cons_eq, List.lookup_nil]
  | cons p ps ih =>
    obtain ⟨c, d⟩ := p
    rw [lookup_cons_eq] at h
    by_cases hac : (a == c) = true
    · rw [if_pos hac] at h
      cases h
    · rw [if_neg hac] at h
      rw [List.cons_append, lookup_cons_eq, lookup_cons_eq, ih h]
      by_cases hxc : (x == c) = true
      · have hxa : ¬ (x == a) = true := by
          intro hxa
          rw [← eq_of_beq hxc, eq_of_beq hxa] at hac
          exact hac (beq_self_eq_true a)
        rw [if_pos hxc, if_neg hxa, if_pos hxc]
      · rw [if_neg hxc, if_neg hxc]

private theorem lookup_eq_none_of_any {ps : List (α × β)} {a : α} (h : ¬ ps.any (·.1 == a) = true) :
    ps.lookup a = none := by
  cases hl : ps.lookup a with
  | none => rfl
  | some b => exact absurd (List.any_eq_true.mpr ⟨_, mem_of_lookup hl, beq_self_eq_true a⟩) h

private theorem lookup_map_replace {ps : List (α × β)} {a x : α} {b : β}
    (h : ps.any (·.1 == a) = true) :
    (ps.map fun p => if p.1 == a then (a, b) else p).lookup x
      = if x == a then some b else ps.lookup x := by
  by_cases hxa : (x == a) = true
  · rw [if_pos hxa]
    cases eq_of_beq hxa
    induction ps with
    | nil => cases h
    | cons p ps ih =>
      rw [List.map_cons]
      by_cases hp : (p.1 == a) = true
      · rw [if_pos hp, List.lookup_cons_self]
      · rw [List.any_cons, Bool.or_eq_true] at h
        have hxp : ¬ (a == p.1) = true := by
          rintro e
          rw [eq_of_beq e] at hp
          exact hp (beq_self_eq_true _)
        rw [if_neg hp, lookup_cons_eq, if_neg hxp]
        exact ih (h.resolve_left hp)
  · rw [if_neg hxa]
    clear h
    induction ps with
    | nil => rfl
    | cons p ps ih =>
      rw [List.map_cons, lookup_cons_eq, lookup_cons_eq, ih]
      by_cases hp : (p.1 == a) = true
      · have hxp : ¬ (x == p.1) = true := by rwa [eq_of_beq hp]
        rw [if_pos hp, if_neg hxa, if_neg hxp]
      · rw [if_neg hp]

/-- Putting a value under a key changes what is found under that key and nothing else. -/
theorem lookup_put (ps : List (α × β)) (a x : α) (b : β) :
    (if ps.any (·.1 == a) then ps.map fun p => if p.1 == a then (a, b) else p
      else ps ++ [(a, b)]).lookup x = if x == a then some b else ps.lookup x := by
  split
  · next h => exact lookup_map_replace h
  · next h => exact lookup_append_singleton (lookup_eq_none_of_any h)

end Lookup

end DocContract
