import DocContract.Proofs.Schema.Path
import Mathlib.Data.List.Nodup

/-!
# Documented paths

The paths of a signature are documented as they should be when there is no repetition, no invention
and no omission. The check of a family of paths finds no error exactly then; what else it finds is a
warning.
-/

namespace DocContract

open Text

/-! ### How paths should be documented -/

/-- No path of the signature is documented twice. -/
def DocumentsOnce (signature : List SignaturePath) (keys : List Text) : Prop :=
  ∀ p ∈ signature, keys.count p.key ≤ 1

/-- Every documented path is one of the signature, or one that the signature cannot refute. -/
def DocumentsKnown (signature : List SignaturePath) (keys : List Text) : Prop :=
  ∀ key ∈ keys, (∃ p ∈ signature, p.key = key) ∨ IsBelowOpaque signature key

/-- A path that has to be documented is documented, unless it lies below a path that is not, or
inside a type that is documented elsewhere. -/
def DocumentsAll (signature : List SignaturePath) (keys : List Text) : Prop :=
  ∀ p ∈ signature, p.key ∉ keys → p.optional = false →
    (∃ q, IsParent signature q p ∧ q.key ∉ keys)
      ∨ ∃ q, Encloses signature q p ∧ q.documentedElsewhere = true

/-! ### Findings without an error -/

/-- The finding is an error before any promotion. -/
def SchemaFinding.isError (f : SchemaFinding) : Bool := f.code.severity == .error

/-- None of the findings is an error. -/
def NoErrors (fs : List (Located SchemaFinding)) : Prop := ∀ f ∈ fs, f.value.isError = false

/-- An empty list of findings holds no error. -/
theorem noErrors_nil : NoErrors [] := by simp [NoErrors]

/-- Joined findings are free of errors when both parts are. -/
theorem noErrors_append {fs gs : List (Located SchemaFinding)} :
    NoErrors (fs ++ gs) ↔ NoErrors fs ∧ NoErrors gs := by
  simp [NoErrors, or_imp, forall_and]

/-- A single finding is free of errors when it is none. -/
theorem noErrors_singleton {f : Located SchemaFinding} :
    NoErrors [f] ↔ f.value.isError = false := by
  simp [NoErrors]

/-! ### The findings of a family -/

section Paths

variable {family : PathFamily} {signature : List SignaturePath}

/-- A path that the signature has gives warnings at most. -/
theorem noErrors_matched (d : DocPath) (p : SignaturePath) :
    NoErrors (matchedFindings family d p) := by
  rw [matchedFindings, noErrors_append]
  constructor
  · split
    · exact noErrors_nil
    · exact noErrors_singleton.mpr rfl
  · split
    · exact noErrors_singleton.mpr rfl
    · exact noErrors_nil

/-- An unknown path is an error in the families that say so, unless the signature cannot refute
it. -/
theorem noErrors_unmatched (d : DocPath) :
    NoErrors (unmatchedFindings family signature d)
      ↔ isUnderOpaque signature d.key = true ∨ family.unknownCode.severity = .warning := by
  have htype : NoErrors (if d.tag.type?.isNone then [d.tag.finding (.typeUnresolved family d.key)]
      else []) := by
    split
    · exact noErrors_singleton.mpr rfl
    · exact noErrors_nil
  rw [unmatchedFindings, noErrors_append]
  constructor
  · rintro ⟨h, -⟩
    split at h
    · next ho => exact .inl ho
    · right
      have := noErrors_singleton.mp h
      cases family with
      | returnField => rfl
      | _ => cases this
  · intro h
    refine ⟨?_, htype⟩
    split
    · exact noErrors_nil
    · next ho =>
      have hw := h.resolve_left ho
      apply noErrors_singleton.mpr
      change (family.unknownCode.severity == .error) = false
      rw [hw]
      rfl

private theorem documentedPlaces_cons_none {d : DocPath} (ds : List DocPath)
    (h : lastPlace? signature d.key = none) :
    documentedPlaces signature (d :: ds) = documentedPlaces signature ds := by
  simp [documentedPlaces, h]

private theorem documentedPlaces_cons_some {d : DocPath} (ds : List DocPath) {i : Nat}
    (h : lastPlace? signature d.key = some i) :
    documentedPlaces signature (d :: ds) = i :: documentedPlaces signature ds := by
  simp [documentedPlaces, h]

/-- The findings about a documented path, whatever else is documented. -/
def DocPath.findings (family : PathFamily) (signature : List SignaturePath) (d : DocPath) :
    List (Located SchemaFinding) :=
  match lastPlace? signature d.key with
  | none => unmatchedFindings family signature d
  | some i =>
    match signature[i]? with
    | none => []
    | some p => matchedFindings family d p

/-- Findings that cannot be repetitions: no place is documented twice, or is taken already, and the
findings about each path by itself are such findings. -/
theorem forall_documented_iff {P : Located SchemaFinding → Prop}
    (htwice : ∀ d : DocPath, ¬ P (d.tag.finding (.pathTwice family d.key))) {docs : List DocPath}
    {seen : List Nat} :
    (∀ f ∈ documentedFindings family signature seen docs, P f)
      ↔ (documentedPlaces signature docs).Nodup
        ∧ (∀ i ∈ documentedPlaces signature docs, i ∉ seen)
        ∧ ∀ d ∈ docs, ∀ f ∈ d.findings family signature, P f := by
  induction docs generalizing seen with
  | nil => simp [documentedFindings, documentedPlaces]
  | cons d ds ih =>
    rw [documentedFindings]
    cases hl : lastPlace? signature d.key with
    | none =>
      have hplaces := documentedPlaces_cons_none ds hl
      have hown : d.findings family signature = unmatchedFindings family signature d := by
        rw [DocPath.findings, hl]
      simp only [List.forall_mem_append, ih, hplaces, List.forall_mem_cons, hown]
      constructor
      · rintro ⟨hd, hnodup, hseen, hds⟩
        exact ⟨hnodup, hseen, hd, hds⟩
      · rintro ⟨hnodup, hseen, hd, hds⟩
        exact ⟨hd, hnodup, hseen, hds⟩
    | some i =>
      have hplaces := documentedPlaces_cons_some ds hl
      obtain ⟨p, hp, -⟩ := getElem?_of_lastPlace? hl
      have hown : d.findings family signature = matchedFindings family d p := by
        rw [DocPath.findings, hl]
        dsimp only
        rw [hp]
      have hmem : seen.contains i = true ↔ i ∈ seen := List.contains_iff_mem
      dsimp only
      rw [hp]
      dsimp only
      rw [List.forall_mem_append, hplaces, List.nodup_cons, ← hown, ih]
      by_cases hs : i ∈ seen
      · rw [if_pos (hmem.mpr hs), List.forall_mem_singleton]
        exact ⟨fun h => absurd h.1 (htwice d), fun h => absurd hs (h.2.1 i List.mem_cons_self)⟩
      · rw [if_neg fun h => hs (hmem.mp h)]
        constructor
        · rintro ⟨hd, hnodup, hseen, hds⟩
          refine ⟨⟨fun hm => hseen i hm List.mem_cons_self, hnodup⟩,
            List.forall_mem_cons.mpr ⟨hs, fun j hj hm => hseen j hj (List.mem_cons_of_mem _ hm)⟩,
            List.forall_mem_cons.mpr ⟨hd, hds⟩⟩
        · rintro ⟨⟨hi, hnodup⟩, hseen, hall⟩
          obtain ⟨-, hseen⟩ := List.forall_mem_cons.mp hseen
          obtain ⟨hd, hds⟩ := List.forall_mem_cons.mp hall
          refine ⟨hd, hnodup, fun j hj hm => ?_, hds⟩
          rcases List.mem_cons.mp hm with rfl | hm
          · exact hi hj
          · exact hseen j hj hm

/-- The findings about documented paths, given the places that are taken already. -/
theorem noErrors_documented {docs : List DocPath} {seen : List Nat} :
    NoErrors (documentedFindings family signature seen docs)
      ↔ (documentedPlaces signature docs).Nodup
        ∧ (∀ i ∈ documentedPlaces signature docs, i ∉ seen)
        ∧ ∀ d ∈ docs, lastPlace? signature d.key = none →
          isUnderOpaque signature d.key = true ∨ family.unknownCode.severity = .warning := by
  rw [NoErrors, forall_documented_iff fun d => Bool.noConfusion]
  refine and_congr_right fun _ => and_congr_right fun _ => forall₂_congr fun d _ => ?_
  change NoErrors (d.findings family signature) ↔ _
  rw [DocPath.findings]
  cases hl : lastPlace? signature d.key with
  | none => simp only [noErrors_unmatched, forall_const]
  | some i =>
    refine ⟨fun _ hnone => (nomatch hnone), fun _ => ?_⟩
    dsimp only
    split
    · exact noErrors_nil
    · exact noErrors_matched d _

/-- Findings about missing paths: each path from a place on is documented, optional or not expected,
or the finding that it is missing is such a finding. -/
theorem forall_missing_iff {P : Located SchemaFinding → Prop} {documented : List Nat}
    {place : Nat × Nat} {ps : List SignaturePath} {start : Nat} :
    (∀ f ∈ missingFindings family signature documented place start ps, P f)
      ↔ ∀ (j : Nat) (p : SignaturePath), ps[j]? = some p →
        (start + j ∈ documented ∨ p.optional = true ∨ isExpected signature documented p = false)
          ∨ P ⟨place.1, place.2, .pathMissing family p.key⟩ := by
  induction ps generalizing start with
  | nil => simp [missingFindings]
  | cons p ps ih =>
    have hhead : (∀ f ∈ (if documented.contains start || p.optional
        || !isExpected signature documented p then []
        else [⟨place.1, place.2, .pathMissing family p.key⟩] : List (Located SchemaFinding)), P f)
          ↔ (start ∈ documented ∨ p.optional = true ∨ isExpected signature documented p = false)
            ∨ P ⟨place.1, place.2, .pathMissing family p.key⟩ := by
      rw [← List.contains_iff_mem]
      cases documented.contains start <;> cases p.optional <;>
        cases isExpected signature documented p <;> simp
    rw [missingFindings, List.forall_mem_append, hhead, ih]
    constructor
    · rintro ⟨h, hs⟩ j q hq
      cases j with
      | zero =>
        cases hq
        exact h
      | succ j =>
        have := hs j q hq
        rwa [Nat.add_right_comm, Nat.add_assoc] at this
    · intro h
      refine ⟨h 0 p rfl, fun j q hq => ?_⟩
      have := h (j + 1) q hq
      rwa [Nat.add_right_comm, Nat.add_assoc]

/-- A path that is missing is an error. -/
theorem noErrors_missing {documented : List Nat} {place : Nat × Nat} {ps : List SignaturePath}
    {start : Nat} :
    NoErrors (missingFindings family signature documented place start ps)
      ↔ ∀ (j : Nat) (p : SignaturePath), ps[j]? = some p →
        start + j ∈ documented ∨ p.optional = true ∨ isExpected signature documented p = false := by
  have herror : ∀ key, (SchemaFinding.pathMissing family key).isError = true := by
    intro key
    cases family <;> rfl
  simp only [NoErrors, forall_missing_iff, herror, Bool.true_eq_false, or_false]

variable (hd : (signature.map SignaturePath.key).Nodup)

include hd

/-- A place is documented as often as the key of its path. -/
theorem count_documentedPlaces {docs : List DocPath} {i : Nat} {p : SignaturePath}
    (hp : signature[i]? = some p) :
    (documentedPlaces signature docs).count i = (docs.map DocPath.key).count p.key := by
  induction docs with
  | nil => rfl
  | cons d ds ih =>
    have hplace : lastPlace? signature d.key = some i ↔ d.key = p.key := by
      constructor
      · intro h
        obtain ⟨q, hq, hk⟩ := getElem?_of_lastPlace? h
        rw [hp] at hq
        cases hq
        exact hk.symm
      · intro h
        rw [h]
        exact lastPlace?_eq_some hd hp
    rw [List.map_cons, List.count_cons, ← ih]
    cases hl : lastPlace? signature d.key with
    | none =>
      have hne : d.key ≠ p.key := fun h => by rw [hplace.mpr h] at hl; cases hl
      rw [documentedPlaces_cons_none ds hl, if_neg (by simpa using hne), Nat.add_zero]
    | some j =>
      rw [documentedPlaces_cons_some ds hl, List.count_cons]
      by_cases hk : d.key = p.key
      · rw [hplace.mpr hk] at hl
        cases hl
        rw [if_pos (by simp), if_pos (by simpa using hk)]
      · have hj : j ≠ i := fun h => hk (hplace.mp (h ▸ hl))
        rw [if_neg (by simpa using hj), if_neg (by simpa using hk)]

/-- A path of the signature is documented when its key is that of a documented path. -/
theorem mem_documentedPlaces {docs : List DocPath} {i : Nat} {p : SignaturePath}
    (hp : signature[i]? = some p) :
    i ∈ documentedPlaces signature docs ↔ p.key ∈ docs.map DocPath.key := by
  rw [← List.count_pos_iff, count_documentedPlaces hd hp, List.count_pos_iff]

/-- No place is documented twice exactly when no key of the signature is. -/
theorem nodup_documentedPlaces {docs : List DocPath} :
    (documentedPlaces signature docs).Nodup ↔ DocumentsOnce signature (docs.map DocPath.key) := by
  rw [List.nodup_iff_count_le_one]
  constructor
  · intro h p hp
    obtain ⟨i, hi⟩ := List.getElem?_of_mem hp
    rw [← count_documentedPlaces hd hi]
    exact h i
  · intro h i
    by_cases hm : i ∈ documentedPlaces signature docs
    · obtain ⟨d, -, hl⟩ := List.mem_filterMap.mp hm
      obtain ⟨p, hp, -⟩ := getElem?_of_lastPlace? hl
      rw [count_documentedPlaces hd hp]
      exact h p (List.mem_of_getElem? hp)
    · rw [List.count_eq_zero.mpr hm]
      omega

private theorem documentsKnown_iff {docs : List DocPath} :
    (∀ d ∈ docs, lastPlace? signature d.key = none → isUnderOpaque signature d.key = true)
      ↔ DocumentsKnown signature (docs.map DocPath.key) := by
  rw [DocumentsKnown, List.forall_mem_map]
  apply forall₂_congr
  intro d _
  rw [isUnderOpaque_iff hd, lastPlace?_eq_none]
  constructor
  · intro h
    by_cases hk : ∃ p ∈ signature, p.key = d.key
    · exact .inl hk
    · exact .inr (h fun p hp he => hk ⟨p, hp, he⟩)
  · rintro (⟨p, hp, he⟩ | h) hall
    · exact absurd he (hall p hp)
    · exact h

private theorem documentsAll_iff (hf : ParentsFirst signature) {docs : List DocPath} :
    (∀ (j : Nat) (p : SignaturePath), signature[j]? = some p →
        0 + j ∈ documentedPlaces signature docs ∨ p.optional = true
        ∨ isExpected signature (documentedPlaces signature docs) p = false)
      ↔ DocumentsAll signature (docs.map DocPath.key) := by
  have hparent : ∀ (i : Nat) (p : SignaturePath), signature[i]? = some p →
      ((∃ up, p.parent? = some up ∧ up ∉ documentedPlaces signature docs)
        ↔ ∃ q, IsParent signature q p ∧ q.key ∉ docs.map DocPath.key) := by
    intro i p hp
    constructor
    · rintro ⟨up, hup, hnot⟩
      have hlt := hf i p hp up hup
      have hlen : i < signature.length := (List.getElem?_eq_some_iff.mp hp).1
      obtain ⟨u, hu⟩ : ∃ u, signature[up]? = some u := ⟨_, List.getElem?_eq_getElem (by omega)⟩
      exact ⟨u, ⟨up, hup, hu⟩, fun hm => hnot ((mem_documentedPlaces hd hu).mpr hm)⟩
    · rintro ⟨u, ⟨up, hup, hu⟩, hnot⟩
      exact ⟨up, hup, fun hm => hnot ((mem_documentedPlaces hd hu).mp hm)⟩
  constructor
  · intro h p hp hkey hopt
    obtain ⟨i, hi⟩ := List.getElem?_of_mem hp
    rcases h i p hi with hm | ho | he
    · rw [Nat.zero_add] at hm
      exact absurd ((mem_documentedPlaces hd hi).mp hm) hkey
    · rw [hopt] at ho
      cases ho
    · exact ((isExpected_eq_false_iff hf hi).mp he).imp_left (hparent i p hi).mp
  · intro h i p hi
    rw [Nat.zero_add, mem_documentedPlaces hd hi, isExpected_eq_false_iff hf hi, hparent i p hi]
    by_cases hkey : p.key ∈ docs.map DocPath.key
    · exact .inl hkey
    · cases ho : p.optional with
      | true => exact .inr (.inl rfl)
      | false => exact .inr (.inr (h p (List.mem_of_getElem? hi) hkey ho))

/-- The findings about a family of paths hold no error exactly when the paths are documented as they
should be. -/
theorem noErrors_paths (hf : ParentsFirst signature) {docs : List DocPath} {place : Nat × Nat}
    {complete : Bool} :
    NoErrors (pathFindings family docs signature place complete)
      ↔ DocumentsOnce signature (docs.map DocPath.key)
        ∧ (family.unknownCode.severity = .warning
          ∨ DocumentsKnown signature (docs.map DocPath.key))
        ∧ (complete = true → DocumentsAll signature (docs.map DocPath.key)) := by
  have hmissing : NoErrors (if complete then
      missingFindings family signature (documentedPlaces signature docs) place 0 signature else [])
        ↔ (complete = true → DocumentsAll signature (docs.map DocPath.key)) := by
    cases complete with
    | false => simp [noErrors_nil]
    | true =>
      rw [if_pos rfl, noErrors_missing, documentsAll_iff hd hf]
      simp
  rw [pathFindings, noErrors_append, hmissing, noErrors_documented, nodup_documentedPlaces hd,
    ← documentsKnown_iff hd, and_assoc]
  apply and_congr_right
  intro _
  by_cases hw : family.unknownCode.severity = .warning
  · simp [hw]
  · simp [hw]

end Paths

end DocContract
