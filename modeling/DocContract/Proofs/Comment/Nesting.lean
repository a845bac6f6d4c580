import DocContract.Proofs.Comment.Fields
import Mathlib.Order.Monotone.Basic

/-!
# Who lies below whom

The fields below a tag are counted from zero in the order of the tree, each in front of those below
it. `Tag.parents` lists the place of the field above each one. When each field lies one level below
the one above it, the depths determine the parents: the parent of a field is the nearest one in
front of it that is less deep.
-/

namespace DocContract

/-! ### The nearest smaller number -/

/-- The place of the last number that is smaller than `n`. -/
def nearestBelow (is : List Nat) (n : Nat) : Option Nat :=
  ((List.range is.length).filter fun j => is[j]?.any (· < n)).getLast?

/-- For each number, the place of the nearest smaller one in front of it; the numbers of `front` are
in front of all. -/
def nearestEach (front : List Nat) : List Nat → List (Option Nat)
  | [] => []
  | n :: is => nearestBelow front n :: nearestEach (front ++ [n]) is

/-- The nearest number below is the last one when that is below, and else is found among the others.
-/
theorem nearestBelow_append_singleton (is : List Nat) (i n : Nat) :
    nearestBelow (is ++ [i]) n = if i < n then some is.length else nearestBelow is n := by
  have hfront : (List.range is.length).filter (fun j => (is ++ [i])[j]?.any (· < n))
      = (List.range is.length).filter fun j => is[j]?.any (· < n) := by
    apply List.filter_congr
    intro j hj
    rw [List.getElem?_append_left (List.mem_range.mp hj)]
  have hlast : (is ++ [i])[is.length]? = some i := by simp
  unfold nearestBelow
  rw [List.length_append, List.length_singleton, List.range_succ, List.filter_append, hfront,
    List.filter_singleton, hlast]
  by_cases h : i < n <;> simp [h]

/-- Numbers that are not smaller do not count. -/
theorem nearestBelow_append {n : Nat} {js : List Nat} (h : ∀ j ∈ js, n ≤ j) (is : List Nat) :
    nearestBelow (is ++ js) n = nearestBelow is n := by
  induction js generalizing is with
  | nil => rw [List.append_nil]
  | cons j js ih =>
    obtain ⟨hj, hjs⟩ := List.forall_mem_cons.mp h
    rw [List.append_cons, ih hjs, nearestBelow_append_singleton, if_neg (Nat.not_lt.mpr hj)]

/-- The nearest numbers of joined lists are those of the first list and those of the second one
behind it. -/
theorem nearestEach_append (front is js : List Nat) :
    nearestEach front (is ++ js) = nearestEach front is ++ nearestEach (front ++ is) js := by
  induction is generalizing front with
  | nil => rw [List.nil_append, List.append_nil, nearestEach, List.nil_append]
  | cons i is ih => simp [nearestEach, ih]

/-- There is one answer for each number. -/
theorem length_nearestEach (front is : List Nat) : (nearestEach front is).length = is.length := by
  induction is generalizing front with
  | nil => rfl
  | cons i is ih => rw [nearestEach, List.length_cons, List.length_cons, ih]

/-- The nearest number below is below, and those behind it are not. -/
theorem nearestBelow_eq_some {is : List Nat} {n j : Nat} (h : nearestBelow is n = some j) :
    (∃ i, is[j]? = some i ∧ i < n) ∧ ∀ k i, j < k → is[k]? = some i → n ≤ i := by
  induction is using List.reverseRecOn with
  | nil => cases h
  | append_singleton is last ih =>
    rw [nearestBelow_append_singleton] at h
    split at h
    · next hlast =>
      obtain rfl := Option.some.inj h
      refine ⟨⟨last, by simp, hlast⟩, fun k i hk hi => ?_⟩
      rw [List.getElem?_eq_none (by simp; omega)] at hi
      cases hi
    · next hlast =>
      obtain ⟨⟨i, hi, hin⟩, hrest⟩ := ih h
      have hj : j < is.length := (List.getElem?_eq_some_iff.mp hi).1
      refine ⟨⟨i, by rw [List.getElem?_append_left hj, hi], hin⟩, fun k m hk hm => ?_⟩
      by_cases hkl : k < is.length
      · rw [List.getElem?_append_left hkl] at hm
        exact hrest k m hk hm
      · have hk' : k < (is ++ [last]).length := (List.getElem?_eq_some_iff.mp hm).1
        have hkeq : k = is.length := by simp at hk'; omega
        rw [hkeq] at hm
        simp at hm
        omega

/-- There is none below when all are as large. -/
theorem nearestBelow_eq_none {is : List Nat} {n : Nat} :
    nearestBelow is n = none ↔ ∀ i ∈ is, n ≤ i := by
  induction is using List.reverseRecOn with
  | nil => simp [nearestBelow]
  | append_singleton is last ih =>
    rw [nearestBelow_append_singleton]
    by_cases h : last < n
    · simp [h]
    · rw [if_neg h, ih, List.forall_mem_append, List.forall_mem_singleton]
      exact ⟨fun hall => ⟨hall, Nat.not_lt.mp h⟩, And.left⟩

/-- The number at a place has its nearest smaller one among those in front of it. -/
theorem getElem?_nearestEach (is : List Nat) {j n : Nat} (h : is[j]? = some n) :
    (nearestEach [] is)[j]? = some (nearestBelow (is.take j) n) := by
  obtain ⟨hj, rfl⟩ := List.getElem?_eq_some_iff.mp h
  have hsplit : is = is.take j ++ is[j] :: is.drop (j + 1) := by
    rw [List.getElem_cons_drop, List.take_append_drop]
  have hlength : (nearestEach [] (is.take j)).length = j := by
    rw [length_nearestEach, List.length_take, Nat.min_eq_left (Nat.le_of_lt hj)]
  conv_lhs => rw [hsplit]
  rw [nearestEach_append, List.getElem?_append_right (by omega), hlength, Nat.sub_self,
    nearestEach, List.nil_append]
  rfl

private theorem nearestBelow_map {f : Nat → Nat} {is : List Nat} {n : Nat}
    (h : ∀ i ∈ is, f i < f n ↔ i < n) : nearestBelow (is.map f) (f n) = nearestBelow is n := by
  induction is using List.reverseRecOn with
  | nil => rfl
  | append_singleton is i ih =>
    obtain ⟨his, hi⟩ := List.forall_mem_append.mp h
    rw [List.map_append, List.map_singleton, nearestBelow_append_singleton,
      nearestBelow_append_singleton, ih his, List.length_map]
    exact if_congr (hi i List.mem_cons_self) rfl rfl

/-- The places depend on the order of the numbers alone. -/
theorem nearestEach_map {f : Nat → Nat} {front is : List Nat}
    (hf : StrictMonoOn f {i | i ∈ front ++ is}) :
    nearestEach (front.map f) (is.map f) = nearestEach front is := by
  induction is generalizing front with
  | nil => rfl
  | cons n is ih =>
    have hnearest : nearestBelow (front.map f) (f n) = nearestBelow front n :=
      nearestBelow_map fun i hi => hf.lt_iff_lt (List.mem_append_left _ hi) (by simp)
    have hrest : StrictMonoOn f {i | i ∈ front ++ [n] ++ is} := by
      rwa [List.append_assoc, List.singleton_append]
    have heach := ih hrest
    rw [List.map_append, List.map_singleton] at heach
    rw [List.map_cons, nearestEach, nearestEach, hnearest, heach]

/-! ### Parents -/

namespace Tag

mutual
/-- The places of the parents of the fields below a tag. The tag has the place `own`, and `front`
fields are in front of those below it. -/
def parentsFrom (own : Option Nat) (front : Nat) : Tag → List (Option Nat)
  | ⟨_, _, _, _, _, _, _, _, _, children⟩ => parentsOfAll own front children

/-- The places of the parents of some fields at the place `own` and of the fields below them. -/
def parentsOfAll (own : Option Nat) (front : Nat) : List Tag → List (Option Nat)
  | [] => []
  | t :: ts => own :: (parentsFrom (some front) (front + 1) t
      ++ parentsOfAll own (front + 1 + (nested t).length) ts)
end

/-- The place of the parent of each field below a tag; those right below the tag have none. -/
def parents (t : Tag) : List (Option Nat) := t.parentsFrom none 0

/-- The tag lies at a depth, and each field below it one level below its parent. -/
inductive Deepens : Nat → Tag → Prop
  | intro {depth : Nat} {t : Tag} (level : t.depth = depth)
      (children : ∀ child ∈ t.children, Deepens (depth + 1) child) : Deepens depth t

private theorem parentsFrom_eq (own : Option Nat) (front : Nat) (t : Tag) :
    t.parentsFrom own front = parentsOfAll own front t.children := by
  cases t
  rw [parentsFrom]

private theorem Deepens.lt_of_mem_nested {depth : Nat} {t : Tag} (h : t.Deepens depth) :
    ∀ f ∈ t.nested, depth < f.depth := by
  induction h with
  | @intro depth t _ hchildren ih =>
    rw [nested_eq]
    generalize t.children = ts at hchildren ih
    induction ts with
    | nil => exact List.forall_mem_nil _
    | cons c ts ihts =>
      obtain ⟨⟨hlevel, -⟩, hrest⟩ := List.forall_mem_cons.mp hchildren
      obtain ⟨hc, hcs⟩ := List.forall_mem_cons.mp ih
      rw [nestedAll, List.forall_mem_cons, List.forall_mem_append]
      refine ⟨by omega, fun f hf => ?_, ihts hrest hcs⟩
      have hdeep := hc f hf
      omega

/-- The parent of a field is the nearest one in front of it that is less deep. -/
theorem Deepens.parentsFrom_eq_nearestEach {depth : Nat} {t : Tag} (h : t.Deepens depth)
    {front : List Nat} {own : Option Nat} (hown : nearestBelow front (depth + 1) = own) :
    t.parentsFrom own front.length = nearestEach front (t.nested.map Tag.depth) := by
  induction h generalizing front own with
  | @intro depth t _ hchildren ih =>
    rw [parentsFrom_eq, nested_eq]
    generalize t.children = ts at hchildren ih
    induction ts generalizing front with
    | nil => rfl
    | cons c ts ihts =>
      obtain ⟨hc, hrest⟩ := List.forall_mem_cons.mp hchildren
      obtain ⟨ihc, ihcs⟩ := List.forall_mem_cons.mp ih
      have hlevel : c.depth = depth + 1 := by
        cases hc
        assumption
      have hbelow := @ihc (front ++ [depth + 1]) (some front.length)
        (by rw [nearestBelow_append_singleton, if_pos (by omega)])
      -- The fields below the first one are too deep to count for those behind them.
      have hbehind : nearestBelow (front ++ (depth + 1) :: c.nested.map Tag.depth) (depth + 1)
          = own := by
        rw [nearestBelow_append, hown]
        refine List.forall_mem_cons.mpr ⟨Nat.le_refl _, List.forall_mem_map.mpr fun f hf => ?_⟩
        exact Nat.le_of_lt (hc.lt_of_mem_nested f hf)
      have hothers := ihts hbehind hrest ihcs
      rw [List.length_append, List.length_singleton] at hbelow
      rw [List.length_append, List.length_cons, List.length_map,
        Nat.add_comm c.nested.length 1, ← Nat.add_assoc] at hothers
      rw [parentsOfAll, hbelow, hothers, nestedAll, List.map_cons, List.map_append, hlevel,
        nearestEach, hown, nearestEach_append, List.append_assoc, List.singleton_append]

/-- The parents of the tags below a tag are found from their depths. -/
theorem Deepens.parents_eq {depth : Nat} {t : Tag} (h : t.Deepens depth) :
    t.parents = nearestEach [] (t.nested.map Tag.depth) :=
  @Deepens.parentsFrom_eq_nearestEach depth t h [] none rfl

end Tag

end DocContract
