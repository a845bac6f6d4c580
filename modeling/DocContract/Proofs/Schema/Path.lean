import DocContract.Schema.Check
import Mathlib.Logic.Relation

/-!
# Keys, places and the paths around a path

The keys above a key are its beginnings that end in front of a dot, longest first. In the paths of a
signature a path stands behind the one that encloses it, so walking up from a path meets exactly the
paths around it.
-/

namespace DocContract

open Text

/-! ### Keys above a key -/

/-- One key lies above another that continues it behind a dot. -/
def IsAbove (up key : Text) : Prop := ∃ rest, key = up ++ '.' :: rest

/-- A key has none above it when it holds no dot. -/
theorem keyAbove?_eq_none {key : Text} : keyAbove? key = none ↔ '.' ∉ key := by
  induction key with
  | nil => simp [keyAbove?]
  | cons c r ih =>
    by_cases hr : '.' ∈ r
    · obtain ⟨up, hup⟩ := Option.ne_none_iff_exists'.mp fun h => ih.mp h hr
      simp [keyAbove?, hup, hr]
    · have hnone := ih.mpr hr
      by_cases hc : c = '.'
      · simp [keyAbove?, hnone, hc]
      · simp [keyAbove?, hnone, hc, hr, Ne.symm hc]

/-- The key directly above ends in front of the last dot. -/
theorem keyAbove?_eq_some {key up : Text} (h : keyAbove? key = some up) :
    ∃ last, key = up ++ '.' :: last ∧ '.' ∉ last := by
  induction key generalizing up with
  | nil => cases h
  | cons c r ih =>
    rw [keyAbove?] at h
    split at h
    · next up' h' =>
      cases h
      obtain ⟨last, rfl, hl⟩ := ih h'
      exact ⟨last, rfl, hl⟩
    · next h' =>
      split at h
      · next hc =>
        cases h
        exact ⟨r, by rw [hc]; rfl, keyAbove?_eq_none.mp h'⟩
      · cases h

/-- A key above lies above the one directly above, or is that one. -/
theorem isAbove_iff_of_keyAbove? {key up above : Text} (h : keyAbove? key = some above) :
    IsAbove up key ↔ up = above ∨ IsAbove up above := by
  obtain ⟨last, rfl, hl⟩ := keyAbove?_eq_some h
  constructor
  · rintro ⟨rest, heq⟩
    rcases List.append_eq_append_iff.mp heq with ⟨v, hv, hrest⟩ | ⟨v, hv, hrest⟩
    · cases v with
      | nil => exact .inl (by rw [hv, List.append_nil])
      | cons x v =>
        -- The last segment holds no dot.
        exfalso
        apply hl
        have := (List.cons.inj hrest).2
        rw [this]
        simp
    · cases v with
      | nil => exact .inl (by rw [hv, List.append_nil])
      | cons x v =>
        obtain ⟨rfl, -⟩ := List.cons.inj hrest
        exact .inr ⟨v, hv⟩
  · rintro (rfl | ⟨rest, rfl⟩)
    · exact ⟨last, rfl⟩
    · exact ⟨rest ++ '.' :: last, by simp⟩

/-- A key with none above it stands below no key. -/
theorem not_isAbove_of_keyAbove? {key up : Text} (h : keyAbove? key = none) : ¬ IsAbove up key := by
  rintro ⟨rest, rfl⟩
  exact keyAbove?_eq_none.mp h (by simp)

/-- The keys above a key are listed, longest first. -/
theorem keysAbove_spec (key : Text) :
    (∀ up, up ∈ keysAbove key ↔ IsAbove up key)
      ∧ (keysAbove key).Pairwise fun a b => b.length < a.length := by
  induction hn : key.length using Nat.strongRecOn generalizing key with
  | ind n ih =>
    rw [keysAbove]
    split
    · next h =>
      refine ⟨fun up => ?_, .nil⟩
      simp [not_isAbove_of_keyAbove? h]
    · next above h =>
      have hlen := keyAbove?_length h
      obtain ⟨hmem, hpair⟩ := ih above.length (by omega) above rfl
      refine ⟨fun up => ?_, List.pairwise_cons.mpr ⟨fun up hup => ?_, hpair⟩⟩
      · rw [List.mem_cons, hmem, isAbove_iff_of_keyAbove? h]
      · obtain ⟨rest, rfl⟩ := (hmem up).mp hup
        rw [List.length_append, List.length_cons]
        omega

/-! ### Places of keys -/

section Places

variable {signature : List SignaturePath}

/-- The place that is found has the key. -/
theorem lastPlace?_go {ps : List SignaturePath} {key : Text} {start i : Nat}
    (h : lastPlace?.go key start ps = some i) :
    ∃ j p, i = start + j ∧ ps[j]? = some p ∧ p.key = key := by
  induction ps generalizing start with
  | nil => cases h
  | cons p ps ih =>
    rw [lastPlace?.go] at h
    split at h
    · next i' h' =>
      cases h
      obtain ⟨j, q, rfl, hq, hk⟩ := ih h'
      exact ⟨j + 1, q, by omega, hq, hk⟩
    · split at h
      · next hk =>
        cases h
        exact ⟨0, p, rfl, rfl, hk⟩
      · cases h

/-- No place is found when no path has the key. -/
theorem lastPlace?_go_eq_none {ps : List SignaturePath} {key : Text} {start : Nat} :
    lastPlace?.go key start ps = none ↔ ∀ p ∈ ps, p.key ≠ key := by
  induction ps generalizing start with
  | nil => simp [lastPlace?.go]
  | cons p ps ih =>
    rw [lastPlace?.go, List.forall_mem_cons, ← @ih (start + 1)]
    cases h : lastPlace?.go key (start + 1) ps with
    | some j => simp
    | none =>
      by_cases hk : p.key = key <;> simp [hk]

/-- There is no last place when no path has the key. -/
theorem lastPlace?_eq_none {key : Text} :
    lastPlace? signature key = none ↔ ∀ p ∈ signature, p.key ≠ key :=
  lastPlace?_go_eq_none

/-- The last place of a key has that key. -/
theorem getElem?_of_lastPlace? {key : Text} {i : Nat} (h : lastPlace? signature key = some i) :
    ∃ p, signature[i]? = some p ∧ p.key = key := by
  obtain ⟨j, p, rfl, hp, hk⟩ := lastPlace?_go h
  exact ⟨p, by rw [Nat.zero_add]; exact hp, hk⟩

/-- When keys are distinct, a key has the place of its path. -/
theorem lastPlace?_eq_some (hd : (signature.map SignaturePath.key).Nodup) {i : Nat}
    {p : SignaturePath} (h : signature[i]? = some p) : lastPlace? signature p.key = some i := by
  cases hl : lastPlace? signature p.key with
  | none => exact absurd rfl (lastPlace?_eq_none.mp hl p (List.mem_of_getElem? h))
  | some j =>
    obtain ⟨q, hq, hk⟩ := getElem?_of_lastPlace? hl
    have hi : (signature.map SignaturePath.key)[i]? = some p.key := by simp [h]
    have hj : (signature.map SignaturePath.key)[j]? = some p.key := by simp [hq, hk]
    have hlt : j < (signature.map SignaturePath.key).length := (List.getElem?_eq_some_iff.mp hj).1
    rw [(List.getElem?_inj hlt hd).mp (hj.trans hi.symm)]

/-- Paths with the same key are the same path. -/
theorem eq_of_key_eq (hd : (signature.map SignaturePath.key).Nodup) {p q : SignaturePath}
    (hp : p ∈ signature) (hq : q ∈ signature) (h : p.key = q.key) : p = q := by
  obtain ⟨i, hi⟩ := List.getElem?_of_mem hp
  obtain ⟨j, hj⟩ := List.getElem?_of_mem hq
  have hij := lastPlace?_eq_some hd hi
  rw [h, lastPlace?_eq_some hd hj] at hij
  cases hij
  exact Option.some.inj (hi.symm.trans hj)

/-- The nearest key above that the signature has is that of an opaque type. -/
def IsBelowOpaque (signature : List SignaturePath) (key : Text) : Prop :=
  ∃ p ∈ signature, IsAbove p.key key
    ∧ (∀ q ∈ signature, IsAbove q.key key → q.key.length ≤ p.key.length) ∧ p.structured = false

/-- The first of the keys above that has a place. -/
theorem findSome?_keysAbove {key : Text} {i : Nat}
    (h : (keysAbove key).findSome? (lastPlace? signature) = some i) :
    ∃ p, signature[i]? = some p ∧ IsAbove p.key key
      ∧ ∀ q ∈ signature, IsAbove q.key key → q.key = p.key ∨ q.key.length < p.key.length := by
  obtain ⟨hmem, hpair⟩ := keysAbove_spec key
  obtain ⟨longer, a, shorter, hsplit, ha, hlonger⟩ := List.findSome?_eq_some_iff.mp h
  obtain ⟨p, hp, rfl⟩ := getElem?_of_lastPlace? ha
  refine ⟨p, hp, (hmem _).mp (by rw [hsplit]; simp), fun q hq habove => ?_⟩
  have hin := (hmem _).mpr habove
  rw [hsplit] at hin hpair
  rcases List.mem_append.mp hin with hin | hin
  · exact absurd rfl (lastPlace?_eq_none.mp (hlonger _ hin) q hq)
  · rcases List.mem_cons.mp hin with heq | hin
    · exact .inl heq
    · exact .inr ((List.pairwise_cons.mp (List.pairwise_append.mp hpair).2.1).1 _ hin)

/-- A key is under an opaque path when it stands below one, with distinct keys. -/
theorem isUnderOpaque_iff (hd : (signature.map SignaturePath.key).Nodup) {key : Text} :
    isUnderOpaque signature key = true ↔ IsBelowOpaque signature key := by
  unfold isUnderOpaque
  cases hf : (keysAbove key).findSome? (lastPlace? signature) with
  | none =>
    simp only [Bool.false_eq_true, false_iff]
    rintro ⟨p, hp, habove, -, -⟩
    have hnone := List.findSome?_eq_none_iff.mp hf p.key (((keysAbove_spec key).1 _).mpr habove)
    exact lastPlace?_eq_none.mp hnone p hp rfl
  | some i =>
    obtain ⟨p, hp, habove, hnear⟩ := findSome?_keysAbove hf
    simp only [hp, Bool.not_eq_true']
    constructor
    · intro hs
      refine ⟨p, List.mem_of_getElem? hp, habove, fun q hq hqa => ?_, hs⟩
      rcases hnear q hq hqa with heq | hlt
      · exact Nat.le_of_eq (congrArg List.length heq)
      · omega
    · rintro ⟨q, hq, hqa, hmax, hs⟩
      have hpm := List.mem_of_getElem? hp
      have hle := hmax p hpm habove
      rcases hnear q hq hqa with heq | hlt
      · rw [← eq_of_key_eq hd hq hpm heq]
        exact hs
      · omega

end Places

/-! ### Paths around a path -/

/-- In a signature, the first path directly encloses the second. -/
def IsParent (signature : List SignaturePath) (q p : SignaturePath) : Prop :=
  ∃ i, p.parent? = some i ∧ signature[i]? = some q

/-- In a signature, the first path encloses the second, directly or not. -/
def Encloses (signature : List SignaturePath) : SignaturePath → SignaturePath → Prop :=
  Relation.TransGen (IsParent signature)

/-- Each path stands behind the one that encloses it. -/
def ParentsFirst (signature : List SignaturePath) : Prop :=
  ∀ (i : Nat) (p : SignaturePath), signature[i]? = some p → ∀ up ∈ p.parent?, up < i

private theorem exists_encloses_iff {signature : List SignaturePath} {p : SignaturePath}
    {P : SignaturePath → Prop} : (∃ q, Encloses signature q p ∧ P q)
      ↔ ∃ u, IsParent signature u p ∧ (P u ∨ ∃ q, Encloses signature q u ∧ P q) := by
  constructor
  · rintro ⟨q, hq, hP⟩
    cases hq with
    | single h => exact ⟨q, h, .inl hP⟩
    | tail hrest h => exact ⟨_, h, .inr ⟨q, hrest, hP⟩⟩
  · rintro ⟨u, hu, hP | ⟨q, hq, hP⟩⟩
    · exact ⟨u, .single hu, hP⟩
    · exact ⟨q, .tail hq hu, hP⟩

section Around

variable {signature : List SignaturePath} (hf : ParentsFirst signature)

include hf

/-- The place that a path names as its parent holds a path, which is its parent. -/
theorem exists_parent {i up : Nat} {p : SignaturePath} (hp : signature[i]? = some p)
    (hup : p.parent? = some up) : up < i ∧ ∃ u, signature[up]? = some u
      ∧ ∀ q, IsParent signature q p ↔ q = u := by
  have hlt : up < i := hf i p hp up hup
  have hlen : i < signature.length := (List.getElem?_eq_some_iff.mp hp).1
  have hu : signature[up]? = some signature[up] := List.getElem?_eq_getElem (by omega)
  refine ⟨hlt, _, hu, fun q => ⟨?_, ?_⟩⟩
  · rintro ⟨up', hup', hq⟩
    rw [hup] at hup'
    cases hup'
    rw [hu] at hq
    exact (Option.some.inj hq).symm
  · rintro rfl
    exact ⟨up, hup, hu⟩

/-- The walk up from a place looks at the path there and at all paths around it. -/
theorem isElsewhere_iff {i : Nat} {p : SignaturePath} (hp : signature[i]? = some p) :
    isElsewhere signature i = true ↔ p.documentedElsewhere = true
      ∨ ∃ q, Encloses signature q p ∧ q.documentedElsewhere = true := by
  induction i using Nat.strongRecOn generalizing p with
  | ind i ih =>
    rw [isElsewhere, exists_encloses_iff]
    simp only [hp, Bool.or_eq_true]
    apply or_congr_right
    cases hparent : p.parent? with
    | none => simp [IsParent, hparent]
    | some up =>
      obtain ⟨hlt, u, hu, honly⟩ := exists_parent hf hp hparent
      simp only [hlt, dif_pos, ih up hlt hu, honly, exists_eq_left]

/-- A path is not expected below a path that is not documented or one that is documented
elsewhere. -/
theorem isExpected_eq_false_iff {documented : List Nat} {i : Nat} {p : SignaturePath}
    (hp : signature[i]? = some p) : isExpected signature documented p = false
      ↔ (∃ up, p.parent? = some up ∧ up ∉ documented)
        ∨ ∃ q, Encloses signature q p ∧ q.documentedElsewhere = true := by
  unfold isExpected
  cases hparent : p.parent? with
  | none =>
    simp only [Bool.true_eq_false, false_iff, not_or]
    refine ⟨by simp, ?_⟩
    rw [exists_encloses_iff]
    rintro ⟨u, ⟨up, hup, -⟩, -⟩
    rw [hparent] at hup
    cases hup
  | some up =>
    obtain ⟨-, u, hu, honly⟩ := exists_parent hf hp hparent
    have hparents : (∃ q, Encloses signature q p ∧ q.documentedElsewhere = true)
        ↔ isElsewhere signature up = true := by
      rw [isElsewhere_iff hf hu, exists_encloses_iff]
      simp only [honly, exists_eq_left]
    rw [hparents]
    simp only [Option.some.injEq, exists_eq_left', Bool.and_eq_false_iff, Bool.not_eq_false',
      List.contains_eq_mem, decide_eq_false_iff_not]

end Around

/-! ### The paths of fields -/

/-- Paths that are put at places from `start` on, below a path in front of them or at the root. -/
def PlacedFrom (start : Nat) (parent? : Option Nat) (ps : List SignaturePath) : Prop :=
  ∀ (j : Nat) (p : SignaturePath), ps[j]? = some p →
    p.parent? = parent? ∨ ∃ up, p.parent? = some up ∧ start ≤ up ∧ up < start + j

private theorem PlacedFrom.append {start : Nat} {parent? : Option Nat} {ps qs : List SignaturePath}
    (hp : PlacedFrom start parent? ps) (hq : PlacedFrom (start + ps.length) parent? qs) :
    PlacedFrom start parent? (ps ++ qs) := by
  intro j p hj
  by_cases hlt : j < ps.length
  · rw [List.getElem?_append_left hlt] at hj
    exact hp j p hj
  · rw [List.getElem?_append_right (by omega)] at hj
    rcases hq _ p hj with h | ⟨up, h, hle, hup⟩
    · exact .inl h
    · exact .inr ⟨up, h, by omega, by omega⟩

mutual
private theorem placedFrom_pathsOfField (start : Nat) (parent? : Option Nat) (above : Text) :
    ∀ f : Field, PlacedFrom start parent? (pathsOfField start parent? above f)
  | ⟨name, type, optional⟩ => by
    intro j p hj
    cases j with
    | zero =>
      cases hj
      exact .inl rfl
    | succ j =>
      rcases placedFrom_pathsOfType (start + 1) start _ type j p hj with h | ⟨up, h, hle, hup⟩
      · exact .inr ⟨start, h, by omega, by omega⟩
      · exact .inr ⟨up, h, by omega, by omega⟩

private theorem placedFrom_pathsOfType (start parent : Nat) (above : Text) :
    ∀ t : Option TypeRef, PlacedFrom start (some parent) (pathsOfType start parent above t)
  | none => by
    intro j p hj
    cases hj
  | some ⟨_, fields, _⟩ => placedFrom_pathsOfFields start (some parent) above fields

private theorem placedFrom_pathsOfFields (start : Nat) (parent? : Option Nat) (above : Text) :
    ∀ fs : List Field, PlacedFrom start parent? (pathsOfFields start parent? above fs)
  | [] => by
    intro j p hj
    cases hj
  | f :: fs =>
    (placedFrom_pathsOfField start parent? above f).append
      (placedFrom_pathsOfFields _ parent? above fs)
end

/-- In the paths of fields, each path stands behind the one that encloses it. -/
theorem parentsFirst_fieldPaths (fields : List Field) : ParentsFirst (fieldPaths fields) := by
  intro i p hp up hup
  rcases placedFrom_pathsOfFields 0 none [] fields i p hp with h | ⟨up', h, -, hlt⟩
  · rw [h] at hup
    cases hup
  · rw [h] at hup
    cases hup
    omega

end DocContract
