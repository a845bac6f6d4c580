import DocContract.Report

/-!
# What a report lists

A report lists the promoted findings and nothing else, and for each finding one that is the same up
to the spelling of the file's path.
-/

namespace DocContract

/-! ### Neighbours that are the same -/

section Neighbours

variable {α : Type} {r : α → α → Bool}

private theorem eraseRepsBy_loop (r : α → α → Bool) (a : α) (as acc : List α) :
    List.eraseRepsBy.loop r a as acc = acc.reverse ++ List.eraseRepsBy.loop r a as [] := by
  induction as generalizing a acc with
  | nil => simp [List.eraseRepsBy.loop]
  | cons b as ih =>
    simp only [List.eraseRepsBy.loop]
    cases r a b with
    | true => exact ih a acc
    | false =>
      dsimp only
      rw [ih b (a :: acc), ih b [a], List.reverse_cons, List.append_assoc]
      rfl

private theorem eraseRepsBy_cons_cons (r : α → α → Bool) (a b : α) (as : List α) :
    (a :: b :: as).eraseRepsBy r
      = if r a b = true then (a :: as).eraseRepsBy r else a :: (b :: as).eraseRepsBy r := by
  change List.eraseRepsBy.loop r a (b :: as) [] = _
  rw [List.eraseRepsBy.loop]
  cases r a b with
  | true => rfl
  | false => exact eraseRepsBy_loop r b as [a]

/-- The cases of leaving out neighbours: there are none, or the second one is left out, or the first
one is done with. -/
@[elab_as_elim]
theorem eraseRepsBy_induction (r : α → α → Bool) {motive : List α → Prop} (nil : motive [])
    (singleton : ∀ a, motive [a])
    (same : ∀ a b as, r a b = true → motive (a :: as) → motive (a :: b :: as))
    (differ : ∀ a b as, r a b = false → motive (b :: as) → motive (a :: b :: as))
    (as : List α) : motive as := by
  induction hn : as.length generalizing as with
  | zero =>
    rw [List.length_eq_zero_iff.mp hn]
    exact nil
  | succ n ih =>
    match as, hn with
    | [a], _ => exact singleton a
    | a :: b :: as, hn =>
      simp only [List.length_cons] at hn
      cases hab : r a b with
      | true => exact same a b as hab (ih _ (by simp; omega))
      | false => exact differ a b as hab (ih _ (by simp; omega))

/-- A repetition behind an element is dropped. -/
theorem eraseRepsBy_of_same {a b : α} (h : r a b = true) (as : List α) :
    (a :: b :: as).eraseRepsBy r = (a :: as).eraseRepsBy r := by
  rw [eraseRepsBy_cons_cons, if_pos h]

/-- An element that the next one does not repeat stays. -/
theorem eraseRepsBy_of_differ {a b : α} (h : r a b = false) (as : List α) :
    (a :: b :: as).eraseRepsBy r = a :: (b :: as).eraseRepsBy r := by
  rw [eraseRepsBy_cons_cons, h, if_neg Bool.false_ne_true]

/-- Dropping repetitions brings in no elements. -/
theorem mem_of_mem_eraseRepsBy {as : List α} {a : α} (h : a ∈ as.eraseRepsBy r) : a ∈ as := by
  induction as using eraseRepsBy_induction r with
  | nil => exact h
  | singleton b => exact h
  | same b c as hbc ih =>
    rw [eraseRepsBy_of_same hbc] at h
    rcases List.mem_cons.mp (ih h) with rfl | hm
    · exact List.mem_cons_self
    · exact List.mem_cons_of_mem _ (List.mem_cons_of_mem _ hm)
  | differ b c as hbc ih =>
    rw [eraseRepsBy_of_differ hbc] at h
    rcases List.mem_cons.mp h with rfl | hm
    · exact List.mem_cons_self
    · exact List.mem_cons_of_mem _ (ih hm)

/-- The first element always stays. -/
theorem head_mem_eraseRepsBy (a : α) (as : List α) : a ∈ (a :: as).eraseRepsBy r := by
  induction as with
  | nil => exact List.mem_cons_self
  | cons b as ih =>
    rw [eraseRepsBy_cons_cons]
    split
    · exact ih
    · exact List.mem_cons_self

/-- What is left out is the same as something that stays. -/
theorem exists_mem_eraseRepsBy {as : List α} {a : α} (h : a ∈ as) :
    ∃ b ∈ as.eraseRepsBy r, b = a ∨ r b a = true := by
  induction as using eraseRepsBy_induction r with
  | nil => cases h
  | singleton b => exact ⟨a, h, .inl rfl⟩
  | same b c as hbc ih =>
    rw [eraseRepsBy_of_same hbc]
    rcases List.mem_cons.mp h with rfl | hm
    · exact ih List.mem_cons_self
    · rcases List.mem_cons.mp hm with rfl | hm
      · exact ⟨b, head_mem_eraseRepsBy b as, .inr hbc⟩
      · exact ih (List.mem_cons_of_mem _ hm)
  | differ b c as hbc ih =>
    rw [eraseRepsBy_of_differ hbc]
    rcases List.mem_cons.mp h with rfl | hm
    · exact ⟨a, List.mem_cons_self, .inl rfl⟩
    · obtain ⟨d, hd, hda⟩ := ih hm
      exact ⟨d, List.mem_cons_of_mem _ hd, hda⟩

end Neighbours

/-! ### Listed findings -/

private theorem Diagnostic.eq_of_same {a b : Diagnostic} (h : a.same b = true) :
    { a with file := b.file } = b :=
  eq_of_beq (Bool.and_eq_true_iff.mp h).2

namespace Report

variable {strict complete : Bool} {unitsChecked : Nat} {ds : List Diagnostic}

/-- Each listed finding is a promoted one. -/
theorem exists_promote_of_mem {d : Diagnostic}
    (h : d ∈ (assemble strict complete unitsChecked ds).diagnostics) :
    ∃ e ∈ ds, d = promote strict e := by
  have hm : d ∈ ds.map (promote strict) := List.mem_mergeSort.mp (mem_of_mem_eraseRepsBy h)
  obtain ⟨e, he, rfl⟩ := List.mem_map.mp hm
  exact ⟨e, he, rfl⟩

/-- Each finding is listed, up to the spelling of its file's path. -/
theorem exists_listed {e : Diagnostic} (h : e ∈ ds) :
    ∃ d ∈ (assemble strict complete unitsChecked ds).diagnostics,
      { d with file := e.file } = promote strict e := by
  have hm : promote strict e ∈ sorted (ds.map (promote strict)) :=
    List.mem_mergeSort.mpr (List.mem_map_of_mem h)
  have hfile : (promote strict e).file = e.file := by
    unfold promote
    split <;> rfl
  obtain ⟨d, hd, rfl | hsame⟩ := exists_mem_eraseRepsBy (r := Diagnostic.same) hm
  · exact ⟨_, hd, by rw [← hfile]⟩
  · exact ⟨d, hd, by rw [← hfile]; exact Diagnostic.eq_of_same hsame⟩

private theorem promote_code (strict : Bool) (d : Diagnostic) :
    (promote strict d).code = d.code := by
  unfold promote
  split <;> rfl

private theorem promote_message (strict : Bool) (d : Diagnostic) :
    (promote strict d).message = d.message := by
  unfold promote
  split <;> rfl

/-- Reports with the same list have findings with the same codes and messages. -/
theorem exists_of_diagnostics_eq {es : List Diagnostic}
    (h : (assemble strict complete unitsChecked ds).diagnostics
      = (assemble strict complete unitsChecked es).diagnostics) {d : Diagnostic} (hd : d ∈ ds) :
    ∃ e ∈ es, e.code = d.code ∧ e.message = d.message := by
  obtain ⟨l, hl, heq⟩ := @exists_listed strict complete unitsChecked ds d hd
  rw [h] at hl
  obtain ⟨e, he, rfl⟩ := exists_promote_of_mem hl
  have hcode := congrArg Diagnostic.code heq
  have hmessage := congrArg Diagnostic.message heq
  dsimp only at hcode hmessage
  rw [promote_code, promote_code] at hcode
  rw [promote_message, promote_message] at hmessage
  exact ⟨e, he, hcode, hmessage⟩

end Report

end DocContract
