import DocContract.Proofs.Report.Canonical
import Mathlib.Data.List.Chain

/-!
# What a report says

A report lists the promoted findings in order, each of them at least once and nothing else. Its
verdict is read off the list, and assembling the list again changes nothing: promoting a promoted
finding, sorting what is in order and leaving out neighbours where no two are the same all do
nothing.
-/

namespace DocContract

/-! ### Neighbours that stay -/

section Neighbours

variable {α : Type} {r : α → α → Bool}

private theorem eraseRepsBy_sublist (xs : List α) : (xs.eraseRepsBy r).Sublist xs := by
  induction xs using eraseRepsBy_induction r with
  | nil => exact .slnil
  | singleton x => exact List.Sublist.refl [x]
  | same x y xs h ih =>
    rw [eraseRepsBy_of_same h]
    exact ih.trans ((List.sublist_cons_self y xs).cons_cons x)
  | differ x y xs h ih =>
    rw [eraseRepsBy_of_differ h]
    exact ih.cons_cons x

private theorem head?_eraseRepsBy (xs : List α) : (xs.eraseRepsBy r).head? = xs.head? := by
  induction xs using eraseRepsBy_induction r with
  | nil => rfl
  | singleton x => rfl
  | same x y xs h ih => rwa [eraseRepsBy_of_same h]
  | differ x y xs h ih =>
    rw [eraseRepsBy_of_differ h]
    rfl

/-- No two neighbours that stay are the same. -/
theorem isChain_eraseRepsBy (xs : List α) :
    (xs.eraseRepsBy r).IsChain fun a b => r a b = false := by
  induction xs using eraseRepsBy_induction r with
  | nil => exact .nil
  | singleton x => exact .singleton x
  | same x y xs h ih => rwa [eraseRepsBy_of_same h]
  | differ x y xs h ih =>
    rw [eraseRepsBy_of_differ h]
    refine ih.cons fun z hz => ?_
    rw [head?_eraseRepsBy] at hz
    rwa [← Option.some.inj hz]

/-- Nothing is left out where no two neighbours are the same. -/
theorem eraseRepsBy_of_isChain {xs : List α} (h : xs.IsChain fun a b => r a b = false) :
    xs.eraseRepsBy r = xs := by
  induction h with
  | nil => rfl
  | singleton x => rfl
  | cons_cons hxy _ ih => rw [eraseRepsBy_of_differ hxy, ih]

end Neighbours

/-- The finding is in the list, perhaps with another spelling of its file's path. -/
def Diagnostic.OccursIn (d : Diagnostic) (ds : List Diagnostic) : Prop :=
  ∃ e ∈ ds, d.same e = true

namespace Report

variable {strict complete : Bool} {n : Nat} {ds : List Diagnostic} {d : Diagnostic}

/-! ### The list -/

private theorem inOrder_listed (strict : Bool) (ds : List Diagnostic) :
    InOrder Diagnostic.order (listed strict ds) :=
  (inOrder_mergeSort _).sublist (eraseRepsBy_sublist _)

private theorem mem_map_promote_of_mem_listed (h : d ∈ listed strict ds) :
    d ∈ ds.map (promote strict) :=
  List.mem_mergeSort.mp (mem_of_mem_eraseRepsBy h)

private theorem occursIn_listed_iff :
    d.OccursIn (listed strict ds) ↔ d.OccursIn (ds.map (promote strict)) := by
  constructor
  · rintro ⟨e, he, hsame⟩
    exact ⟨e, mem_map_promote_of_mem_listed he, hsame⟩
  · rintro ⟨e, he, hsame⟩
    obtain ⟨l, hl, rfl | hle⟩ := exists_mem_eraseRepsBy (r := Diagnostic.same)
      (List.mem_mergeSort.mpr he : e ∈ sorted (ds.map (promote strict)))
    · exact ⟨l, hl, hsame⟩
    · exact ⟨l, hl, Diagnostic.same_trans hsame (Diagnostic.same_symm hle)⟩

private theorem promote_promote (strict : Bool) (d : Diagnostic) :
    promote strict (promote strict d) = promote strict d := by
  cases strict <;> rfl

/-- What is listed is promoted already. -/
theorem map_promote_listed (strict : Bool) (ds : List Diagnostic) :
    (listed strict ds).map (promote strict) = listed strict ds := by
  refine (List.map_congr_left fun d hd => ?_).trans (List.map_id _)
  obtain ⟨e, -, rfl⟩ := List.mem_map.mp (mem_map_promote_of_mem_listed hd)
  exact promote_promote strict e

private theorem listed_listed (strict : Bool) (ds : List Diagnostic) :
    listed strict (listed strict ds) = listed strict ds := by
  have hsorted : sorted (listed strict ds) = listed strict ds :=
    List.mergeSort_of_pairwise (inOrder_listed strict ds)
  rw [listed.eq_1 strict (listed strict ds), map_promote_listed, hsorted]
  exact eraseRepsBy_of_isChain (isChain_eraseRepsBy _)

private theorem listed_eq_nil_iff : listed strict ds = [] ↔ ds = [] := by
  rw [← List.head?_eq_none_iff, listed, head?_eraseRepsBy, List.head?_eq_none_iff,
    ← List.length_eq_zero_iff, sorted, List.length_mergeSort, List.length_map,
    List.length_eq_zero_iff]

/-! ### The verdict -/

/-- A report is read off the list of its findings. -/
theorem assemble_eq_of_listed (strict complete : Bool) (n : Nat) (ds : List Diagnostic) :
    assemble strict complete n ds
      = ⟨listed strict ds, complete && !(listed strict ds).any Diagnostic.isError, complete, n⟩ :=
  rfl

private theorem passed_assemble_iff : (assemble strict complete n ds).passed = true
    ↔ complete = true ∧ ∀ d ∈ listed strict ds, d.isError = false := by
  rw [assemble_eq_of_listed, Bool.and_eq_true, Bool.not_eq_true', List.any_eq_false]
  simp only [Bool.not_eq_true]

/-- When every warning counts as an error, only a run that found nothing passes. -/
theorem passed_assemble_true_iff :
    (assemble true complete n ds).passed = true ↔ complete = true ∧ ds = [] := by
  rw [passed_assemble_iff, ← @listed_eq_nil_iff true ds, and_congr_right_iff,
    List.eq_nil_iff_forall_not_mem]
  refine fun _ => forall₂_congr fun d hd => iff_of_false (fun h => ?_) fun h => h
  obtain ⟨e, -, rfl⟩ := List.mem_map.mp (mem_map_promote_of_mem_listed hd)
  cases h

private theorem passed_assemble_false_of_true (h : (assemble true complete n ds).passed = true) :
    (assemble false complete n ds).passed = true := by
  obtain ⟨hcomplete, hnone⟩ := passed_assemble_true_iff.mp h
  rw [passed_assemble_iff, listed_eq_nil_iff.mpr hnone]
  exact ⟨hcomplete, List.forall_mem_nil _⟩

/-- Every finding is an error or a warning. -/
theorem errorCount_add_warningCount (r : Report) :
    r.errorCount + r.warningCount = r.diagnostics.length :=
  Nat.add_sub_cancel' List.countP_le_length

/-- A report lists its findings in order, holds what was found as it is promoted and nothing else,
passes when it is complete and lists no error, and is what its own findings are assembled to. -/
theorem assemble_sound (strict complete : Bool) (n : Nat) (ds : List Diagnostic) :
    InOrder Diagnostic.order (assemble strict complete n ds).diagnostics
      ∧ (∀ d ∈ (assemble strict complete n ds).diagnostics, d ∈ ds.map (promote strict))
      ∧ (∀ d : Diagnostic, d.OccursIn (assemble strict complete n ds).diagnostics
          ↔ d.OccursIn (ds.map (promote strict)))
      ∧ ((assemble strict complete n ds).passed = true ↔ complete = true
          ∧ ∀ d ∈ (assemble strict complete n ds).diagnostics, d.isError = false)
      ∧ ((assemble true complete n ds).passed = true ↔ complete = true ∧ ds = [])
      ∧ ((assemble true complete n ds).passed = true
          → (assemble false complete n ds).passed = true)
      ∧ (assemble strict complete n ds).errorCount + (assemble strict complete n ds).warningCount
          = (assemble strict complete n ds).diagnostics.length
      ∧ assemble strict complete n (assemble strict complete n ds).diagnostics
          = assemble strict complete n ds := by
  refine ⟨inOrder_listed strict ds, fun d hd => mem_map_promote_of_mem_listed hd,
    fun d => occursIn_listed_iff, passed_assemble_iff, passed_assemble_true_iff,
    passed_assemble_false_of_true, errorCount_add_warningCount _, ?_⟩
  rw [diagnostics_assemble, assemble_eq_of_listed, listed_listed, ← assemble_eq_of_listed]

end Report

end DocContract
