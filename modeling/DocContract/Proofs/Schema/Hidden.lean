import DocContract.Proofs.Schema.Family

/-!
# Paths that share a key

A key stands for the last path that has it, so an earlier path with the same key is hidden: no
documentation of the key counts for it. What is documented may therefore be reported missing, and
the hidden paths are exactly where this happens. A signature whose paths have keys of their own
hides nothing.
-/

namespace DocContract

open Text

section Places

variable {signature : List SignaturePath}

/-- A later path of the signature has the key of the path at a place. -/
def IsHidden (signature : List SignaturePath) (i : Nat) : Prop :=
  ∃ p j q, signature[i]? = some p ∧ i < j ∧ signature[j]? = some q ∧ q.key = p.key

private theorem isHidden_iff {i : Nat} {p : SignaturePath} (hp : signature[i]? = some p) :
    IsHidden signature i ↔ ∃ j q, i < j ∧ signature[j]? = some q ∧ q.key = p.key := by
  constructor
  · rintro ⟨p', j, q, hp', h⟩
    rw [hp] at hp'
    cases hp'
    exact ⟨j, q, h⟩
  · rintro ⟨j, q, h⟩
    exact ⟨p, j, q, hp, h⟩

private theorem not_isHidden (hd : (signature.map SignaturePath.key).Nodup) {i : Nat} :
    ¬ IsHidden signature i := by
  rintro ⟨p, j, q, hp, hlt, hq, hkey⟩
  have hi := lastPlace?_eq_some hd hp
  rw [← hkey, lastPlace?_eq_some hd hq] at hi
  cases hi
  omega

private theorem not_mem_of_lastPlace?_go {ps : List SignaturePath} {key : Text} {start i : Nat}
    (h : lastPlace?.go key start ps = some i) :
    ∀ (j : Nat) (q : SignaturePath), i < start + j → ps[j]? = some q → q.key ≠ key := by
  induction ps generalizing start with
  | nil => cases h
  | cons p ps ih =>
    intro j q hlt hq
    rw [lastPlace?.go] at h
    split at h
    · next i' h' =>
      cases h
      cases j with
      | zero =>
        obtain ⟨k, -, rfl, -⟩ := lastPlace?_go h'
        omega
      | succ j => exact ih h' j q (by omega) hq
    · next h' =>
      split at h
      · cases h
        cases j with
        | zero => omega
        | succ j => exact lastPlace?_go_eq_none.mp h' q (List.mem_of_getElem? hq)
      · cases h

/-- A key has the place of the one path with this key that is not hidden. -/
theorem lastPlace?_eq_some_iff {i : Nat} {p : SignaturePath} (hp : signature[i]? = some p)
    {key : Text} : lastPlace? signature key = some i ↔ p.key = key ∧ ¬ IsHidden signature i := by
  rw [isHidden_iff hp]
  constructor
  · intro h
    obtain ⟨q, hq, hkey⟩ := getElem?_of_lastPlace? h
    rw [hp] at hq
    cases hq
    refine ⟨hkey, ?_⟩
    rintro ⟨j, r, hlt, hr, hrk⟩
    exact not_mem_of_lastPlace?_go h j r (by omega) hr (hrk.trans hkey)
  · rintro ⟨rfl, hlast⟩
    cases h : lastPlace? signature p.key with
    | none => exact absurd rfl (lastPlace?_eq_none.mp h p (List.mem_of_getElem? hp))
    | some j =>
      obtain ⟨q, hq, hkey⟩ := getElem?_of_lastPlace? h
      rcases Nat.lt_trichotomy i j with hlt | rfl | hlt
      · exact absurd ⟨j, q, hlt, hq, hkey⟩ hlast
      · rfl
      · exact absurd rfl (not_mem_of_lastPlace?_go h i p (by omega) hp)

/-- A place is documented when its key is and it is not hidden. -/
theorem mem_documentedPlaces_iff {docs : List DocPath} {i : Nat} {p : SignaturePath}
    (hp : signature[i]? = some p) : i ∈ documentedPlaces signature docs
      ↔ p.key ∈ docs.map DocPath.key ∧ ¬ IsHidden signature i := by
  rw [documentedPlaces, List.mem_filterMap, List.mem_map]
  constructor
  · rintro ⟨d, hd, h⟩
    obtain ⟨hkey, hlast⟩ := (lastPlace?_eq_some_iff hp).mp h
    exact ⟨⟨d, hd, hkey.symm⟩, hlast⟩
  · rintro ⟨⟨d, hd, hkey⟩, hlast⟩
    exact ⟨d, hd, (lastPlace?_eq_some_iff hp).mpr ⟨hkey.symm, hlast⟩⟩

/-- A path may lack documentation when it is optional, when the path around it is hidden or its key
is not documented, and inside a type that is documented elsewhere. -/
def MayLack (signature : List SignaturePath) (keys : List Text) (p : SignaturePath) : Prop :=
  p.optional = true
    ∨ (∃ up u, p.parent? = some up ∧ signature[up]? = some u
      ∧ (u.key ∉ keys ∨ IsHidden signature up))
    ∨ ∃ q, Encloses signature q p ∧ q.documentedElsewhere = true

/-- A path is missing when its key is not documented or it is hidden, unless it may lack
documentation. -/
theorem isMissing_iff (hf : ParentsFirst signature) {docs : List DocPath} {i : Nat}
    {p : SignaturePath} (hp : signature[i]? = some p) : IsMissing signature docs i p
      ↔ (p.key ∉ docs.map DocPath.key ∨ IsHidden signature i)
        ∧ ¬ MayLack signature (docs.map DocPath.key) p := by
  have hparent : (∃ up, p.parent? = some up ∧ up ∉ documentedPlaces signature docs)
      ↔ ∃ up u, p.parent? = some up ∧ signature[up]? = some u
        ∧ (u.key ∉ docs.map DocPath.key ∨ IsHidden signature up) := by
    refine exists_congr fun up => ⟨?_, ?_⟩
    · rintro ⟨hup, hnot⟩
      have hlt : up < i := hf i p hp up hup
      have hlen : i < signature.length := (List.getElem?_eq_some_iff.mp hp).1
      obtain ⟨u, hu⟩ : ∃ u, signature[up]? = some u := ⟨_, List.getElem?_eq_getElem (by omega)⟩
      refine ⟨u, hup, hu, ?_⟩
      rwa [mem_documentedPlaces_iff hu, not_and_or, not_not] at hnot
    · rintro ⟨u, hup, hu, h⟩
      refine ⟨hup, ?_⟩
      rwa [mem_documentedPlaces_iff hu, not_and_or, not_not]
  rw [IsMissing, MayLack, mem_documentedPlaces_iff hp, not_and_or, not_not, ← hparent, not_or,
    ← isExpected_eq_false_iff hf hp, Bool.not_eq_true, Bool.not_eq_false]

end Places

namespace SchemaCheck

variable {c : SchemaCheck} {file : Path}

/-- A documented key is reported missing because of a hidden path. -/
theorem reports_documented_iff {family : PathFamily} {key : Text} (hkey : key ∈ c.keysOf family) :
    c.Reports file (.pathMissing family key)
      ↔ c.requires family = true ∧ ∃ i p, (c.signatureOf family)[i]? = some p ∧ p.key = key
        ∧ IsHidden (c.signatureOf family) i
        ∧ ¬ MayLack (c.signatureOf family) (c.keysOf family) p := by
  rw [reports_missing_iff]
  refine and_congr_right fun _ => exists₂_congr fun i p => and_congr_right fun hp =>
    and_congr_right ?_
  rintro rfl
  rw [isMissing_iff (c.parentsFirst_signatureOf family) hp]
  exact and_congr_left fun _ => or_iff_right fun hnot => hnot hkey

/-- When paths have keys of their own, no documented key is reported missing. -/
theorem not_reports_documented {family : PathFamily} {key : Text}
    (hd : ((c.signatureOf family).map SignaturePath.key).Nodup) (hkey : key ∈ c.keysOf family) :
    ¬ c.Reports file (.pathMissing family key) := by
  rw [reports_documented_iff hkey]
  rintro ⟨-, i, p, -, -, hhidden, -⟩
  exact not_isHidden hd hhidden

/-- No documented key is reported missing exactly when each hidden path whose key is documented may
lack documentation, in all families that have to be documented. -/
theorem documented_found_iff (c : SchemaCheck) (file : Path) :
    (∀ family, ∀ key ∈ c.keysOf family, ¬ c.Reports file (.pathMissing family key))
      ↔ ∀ family, c.requires family = true → ∀ i p, (c.signatureOf family)[i]? = some p →
        IsHidden (c.signatureOf family) i → p.key ∈ c.keysOf family →
        MayLack (c.signatureOf family) (c.keysOf family) p := by
  refine forall_congr' fun family =>
    ⟨fun h hrequires i p hp hhidden hkey => ?_, fun h key hkey => ?_⟩
  · by_contra hlack
    exact h p.key hkey ((reports_documented_iff hkey).mpr
      ⟨hrequires, i, p, hp, rfl, hhidden, hlack⟩)
  · rw [reports_documented_iff hkey]
    rintro ⟨hrequires, i, p, hp, rfl, hhidden, hlack⟩
    exact hlack (h hrequires i p hp hhidden hkey)

/-- A class whose size can be read and set, so that the signature has two fields of this name, and
whose comment documents the size once. -/
def sizeExample : SchemaCheck where
  language := .typescript
  symbol :=
    { kind := .classType
      name := "Box"
      fields := [⟨"size", none, false⟩, ⟨"size", none, false⟩]
      declarationLine := 5 }
  block :=
    { startLine := 1
      tags :=
        [{ Tag.ofKind .brief 2 4 with description := "A box." },
          { Tag.ofKind .property 3 4 with name? := some "size", description := "its size" }] }

/-- The size is documented, and all that the check reports is that it is not. -/
theorem size_documented_and_missing :
    ¬ (∀ family, ∀ key ∈ sizeExample.keysOf family,
        ¬ sizeExample.Reports [] (.pathMissing family key))
      ∧ sizeExample.keysOf .property = ["size".toList]
      ∧ sizeExample.run [] = [(Diagnostic.ofCode .propertyMissing [] 1 1
          "property `size` of `Box` is not documented").about "Box@5"] := by
  have hrun : sizeExample.run [] = [(Diagnostic.ofCode .propertyMissing [] 1 1
      "property `size` of `Box` is not documented").about "Box@5"] := by decide +kernel
  have hkeys : sizeExample.keysOf .property = ["size".toList] := by decide +kernel
  have hreports : sizeExample.Reports [] (.pathMissing .property "size") := by
    refine ⟨_, hrun ▸ List.mem_singleton_self _, rfl, ?_⟩
    decide +kernel
  refine ⟨fun h => h .property "size" ?_ hreports, hkeys, hrun⟩
  rw [hkeys]
  exact List.mem_singleton_self _

end SchemaCheck

end DocContract
