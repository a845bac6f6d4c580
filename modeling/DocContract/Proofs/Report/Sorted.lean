import DocContract.Proofs.Report.Listed
import Mathlib.Data.List.Flatten
import Mathlib.Data.List.Pairwise
import Mathlib.Data.List.Perm.Basic

/-!
# The order of a report

The order of findings is transitive and total, but findings of equal rank may differ: neither the
severity nor the subject counts. Sorting keeps those in the order in which they were found. So the
sorted findings are determined by the findings of each rank, and when no two files have findings of
one rank, the order of the files does not matter.
-/

namespace DocContract

/-! ### Orders -/

namespace Path

instance : Std.TransCmp Component.order :=
  inferInstanceAs (Std.TransCmp (compareLex (compareOn Component.rank) (compareOn Component.name)))

/-- A component is known by its kind and its name. -/
theorem Component.ext_rank_name {a b : Component} (hrank : a.rank = b.rank)
    (hname : a.name = b.name) : a = b := by
  cases a <;> cases b <;> simp_all [Component.rank, Component.name]

instance : Std.LawfulEqCmp Component.order where
  eq_of_compare h := by
    obtain ⟨hrank, hname⟩ := Ordering.then_eq_eq.mp h
    exact Component.ext_rank_name (Std.LawfulEqCmp.eq_of_compare hrank)
      (Std.LawfulEqCmp.eq_of_compare hname)

private theorem order_eq_compareLex (p q : Path) :
    order p q = List.compareLex Component.order (components p) (components q) := by
  have hgo : ∀ as bs, order.go as bs = List.compareLex Component.order as bs := by
    intro as
    induction as with
    | nil => intro bs; cases bs <;> rfl
    | cons a as ih =>
      intro bs
      cases bs with
      | nil => rfl
      | cons b bs => rw [order.go, ih, List.compareLex_cons_cons]
  exact hgo _ _

instance : Std.TransCmp order where
  eq_swap {p q} := by
    rw [order_eq_compareLex, order_eq_compareLex]
    exact Std.OrientedCmp.eq_swap
  isLE_trans {p q r} hpq hqr := by
    rw [order_eq_compareLex] at hpq hqr ⊢
    exact Std.TransCmp.isLE_trans hpq hqr

/-- What has a path is ordered by it. -/
instance {α : Type} (path : α → Path) : Std.TransCmp fun a b => order (path a) (path b) where
  eq_swap := Std.OrientedCmp.eq_swap
  isLE_trans := Std.TransCmp.isLE_trans

/-- Paths of equal rank have the same components. -/
theorem order_eq_eq_iff {p q : Path} : order p q = .eq ↔ same p q = true := by
  rw [order_eq_compareLex, Std.LawfulEqCmp.compare_eq_iff_eq, same, beq_iff_eq]

private theorem same_comm (p q : Path) : same p q = same q p := by
  rw [Bool.eq_iff_iff, ← order_eq_eq_iff, ← order_eq_eq_iff]
  exact Std.OrientedCmp.eq_comm

private theorem same_of_same {p q r : Path} (hp : same p r = true) (hq : same q r = true) :
    same p q = true := by
  rw [same, beq_iff_eq] at hp hq ⊢
  rw [hp, hq]

private theorem not_same_of_order_lt {p q : Path} (h : order p q = .lt) : same p q = false := by
  rw [Bool.eq_false_iff, ne_eq, ← order_eq_eq_iff, h]
  exact Ordering.noConfusion

end Path

section PathsDiffer

variable {α : Type} {path : α → Path} {us vs : List α}

/-- No two elements of a list have paths with the same components. -/
def PathsDiffer (path : α → Path) (us : List α) : Prop :=
  us.Pairwise fun u v => Path.same (path u) (path v) = false

instance : Decidable (PathsDiffer path us) := inferInstanceAs (Decidable (us.Pairwise _))

/-- Files with different paths have them in any order. -/
theorem PathsDiffer.perm (h : PathsDiffer path us) (hperm : us.Perm vs) : PathsDiffer path vs :=
  List.Pairwise.perm h hperm fun huv => by rwa [Path.same_comm]

/-- Elements with the same path are equal. -/
theorem PathsDiffer.eq_of_same (h : PathsDiffer path us) {u v : α} (hu : u ∈ us) (hv : v ∈ us)
    (hsame : Path.same (path u) (path v) = true) : u = v := by
  by_contra hne
  have : Std.Symm fun u v => Path.same (path u) (path v) = false :=
    ⟨fun u v huv => by rwa [Path.same_comm]⟩
  rw [List.Pairwise.forall h hu hv hne] at hsame
  cases hsame

/-- At most one element has a path, so it does not matter which one is taken. -/
theorem PathsDiffer.filter_same (h : PathsDiffer path us) (p : Path) :
    us.filter (fun u => Path.same (path u) p)
      = (us.find? fun u => Path.same (path u) p).toList := by
  induction us with
  | nil => rfl
  | cons u us ih =>
    obtain ⟨hu, hus⟩ := List.pairwise_cons.mp h
    by_cases hp : Path.same (path u) p = true
    · have hrest : us.filter (fun u => Path.same (path u) p) = [] := by
        refine List.filter_eq_nil_iff.mpr fun v hv hvp => ?_
        have := hu v hv
        rw [Path.same_of_same hp hvp] at this
        cases this
      rw [List.filter_cons_of_pos (p := fun u => Path.same (path u) p) hp, hrest,
        List.find?_cons_of_pos (p := fun u => Path.same (path u) p) hp]
      rfl
    · rw [List.filter_cons_of_neg (p := fun u => Path.same (path u) p) hp, ih hus,
        List.find?_cons_of_neg (p := fun u => Path.same (path u) p) hp]

/-- A file is found by its path in any order of the files. -/
theorem PathsDiffer.find?_perm (h : PathsDiffer path us) (hperm : us.Perm vs) (p : Path) :
    us.find? (fun u => Path.same (path u) p) = vs.find? fun u => Path.same (path u) p := by
  have hfilter := hperm.filter fun u => Path.same (path u) p
  rw [h.filter_same, (h.perm hperm).filter_same] at hfilter
  cases hu : us.find? fun u => Path.same (path u) p with
  | none =>
    rw [hu] at hfilter
    exact (Option.toList_eq_nil_iff.mp hfilter.nil_eq.symm).symm
  | some u =>
    rw [hu] at hfilter
    exact (Option.toList_eq_singleton_iff.mp (List.perm_singleton.mp hfilter.symm)).symm

end PathsDiffer

namespace Diagnostic

instance : Std.TransCmp order :=
  inferInstanceAs (Std.TransCmp (compareLex (fun a b => Path.order a.file b.file)
    (compareLex (compareOn line) (compareLex (compareOn column)
      (compareLex (compareOn fun d => d.code.rank) (compareOn message))))))

/-- Findings in files of which one comes first have that order. -/
theorem order_eq_lt {a b : Diagnostic} (h : Path.order a.file b.file = .lt) :
    order a b = .lt := by
  rw [order, h]
  rfl

private theorem not_same_of_lt {a b : Diagnostic} (h : Path.order a.file b.file = .lt) :
    same a b = false := by
  rw [same, Path.not_same_of_order_lt h, Bool.false_and]

end Diagnostic

/-! ### Sorting by rank -/

section Ranks

variable {α β : Type} {cmp : α → α → Ordering}

/-- The elements of the rank of a given one, in their order. -/
def rankOf (cmp : α → α → Ordering) (a : α) (xs : List α) : List α := xs.filter (cmp a · == .eq)

private theorem mem_rankOf {a x : α} {xs : List α} :
    x ∈ rankOf cmp a xs ↔ x ∈ xs ∧ cmp a x = .eq := by
  rw [rankOf, List.mem_filter, beq_iff_eq]

private theorem rankOf_append (a : α) (xs ys : List α) :
    rankOf cmp a (xs ++ ys) = rankOf cmp a xs ++ rankOf cmp a ys := List.filter_append ..

/-- An element of the same rank counts among its rank. -/
theorem rankOf_cons_eq {a x : α} (xs : List α) (h : cmp a x = .eq) :
    rankOf cmp a (x :: xs) = x :: rankOf cmp a xs := List.filter_cons_of_pos (by simpa using h)

/-- An element of another rank does not count. -/
theorem rankOf_cons_ne {a x : α} (xs : List α) (h : cmp a x ≠ .eq) :
    rankOf cmp a (x :: xs) = rankOf cmp a xs := List.filter_cons_of_neg (by simpa using h)

/-- The elements of a list are in order. -/
abbrev InOrder (cmp : α → α → Ordering) (xs : List α) : Prop :=
  xs.Pairwise fun a b => (cmp a b).isLE = true

variable [Std.TransCmp cmp]

/-- Lists in order with the same elements are equal when they have the same elements of each rank in
the same order. -/
theorem InOrder.eq_of_ranks {xs ys : List α} (hx : InOrder cmp xs) (hy : InOrder cmp ys)
    (hperm : xs.Perm ys) (h : ∀ a, rankOf cmp a xs = rankOf cmp a ys) : xs = ys := by
  induction xs generalizing ys with
  | nil => exact hperm.nil_eq
  | cons x xs ih =>
    cases ys with
    | nil => exact hperm.eq_nil
    | cons y ys =>
      obtain ⟨hxs, hxtail⟩ := List.pairwise_cons.mp hx
      obtain ⟨hys, hytail⟩ := List.pairwise_cons.mp hy
      -- Each head is least, so they have one rank, of which both are the first.
      have hxy : (cmp x y).isLE = true := by
        rcases List.mem_cons.mp (hperm.mem_iff.mpr List.mem_cons_self) with rfl | hmem
        · exact Std.ReflCmp.isLE_rfl
        · exact hxs y hmem
      have hyx : (cmp y x).isLE = true := by
        rcases List.mem_cons.mp (hperm.mem_iff.mp List.mem_cons_self) with rfl | hmem
        · exact Std.ReflCmp.isLE_rfl
        · exact hys x hmem
      have heads := h x
      rw [rankOf_cons_eq xs Std.ReflCmp.compare_self,
        rankOf_cons_eq ys (Std.OrientedCmp.isLE_antisymm hxy hyx)] at heads
      obtain rfl := (List.cons.inj heads).1
      refine congrArg (x :: ·) (ih hxtail hytail (List.Perm.cons_inv hperm) fun a => ?_)
      have ha := h a
      by_cases hax : cmp a x = .eq
      · rw [rankOf_cons_eq xs hax, rankOf_cons_eq ys hax] at ha
        exact (List.cons.inj ha).2
      · rwa [rankOf_cons_ne xs hax, rankOf_cons_ne ys hax] at ha

private theorem isLE_or_isLE (cmp : α → α → Ordering) [Std.OrientedCmp cmp] (a b : α) :
    ((cmp a b).isLE || (cmp b a).isLE) = true := by
  have hswap : cmp b a = (cmp a b).swap := Std.OrientedCmp.eq_swap
  rw [hswap]
  cases cmp a b <;> rfl

/-- A sorted list is in order. -/
theorem inOrder_mergeSort (xs : List α) :
    InOrder cmp (xs.mergeSort fun a b => (cmp a b).isLE) :=
  List.pairwise_mergeSort (fun _ _ _ => Std.TransCmp.isLE_trans) (isLE_or_isLE cmp) xs

/-- Sorting keeps the elements of each rank in their order. -/
theorem rankOf_mergeSort (a : α) (xs : List α) :
    rankOf cmp a (xs.mergeSort fun a b => (cmp a b).isLE) = rankOf cmp a xs := by
  have hrank : InOrder cmp (rankOf cmp a xs) := by
    refine List.pairwise_iff_forall_sublist.mpr fun {x y} hsub => ?_
    have hx := (mem_rankOf.mp (hsub.subset List.mem_cons_self)).2
    have hy := (mem_rankOf.mp (hsub.subset (List.mem_cons_of_mem _ List.mem_cons_self))).2
    rw [← Std.TransCmp.congr_left hx, hy]
    rfl
  have hstable : (rankOf cmp a xs).Sublist (xs.mergeSort fun a b => (cmp a b).isLE) :=
    List.sublist_mergeSort (fun _ _ _ => Std.TransCmp.isLE_trans) (isLE_or_isLE cmp) hrank
      List.filter_sublist
  have hsub := hstable.filter (cmp a · == .eq)
  simp only [rankOf, List.filter_filter, Bool.and_self] at hsub
  exact (hsub.eq_of_length ((List.mergeSort_perm _ _).filter _).length_eq.symm).symm

/-- The sorted list is the one list in order with the same elements of each rank. -/
theorem mergeSort_eq_of_ranks {xs ys : List α} (hy : InOrder cmp ys) (hperm : ys.Perm xs)
    (h : ∀ a, rankOf cmp a ys = rankOf cmp a xs) :
    xs.mergeSort (fun a b => (cmp a b).isLE) = ys :=
  (inOrder_mergeSort xs).eq_of_ranks hy ((List.mergeSort_perm _ _).trans hperm.symm)
    fun a => (rankOf_mergeSort a xs).trans (h a).symm

variable {found : β → List α} {us vs : List β}

/-- What is found at two places has no rank in common. -/
def Apart (cmp : α → α → Ordering) (found : β → List α) (u v : β) : Prop :=
  ∀ a ∈ found u, ∀ b ∈ found v, cmp a b ≠ .eq

private theorem Apart.symm {u v : β} (h : Apart cmp found u v) : Apart cmp found v u := by
  intro a ha b hb hab
  exact h b hb a ha (Std.OrientedCmp.eq_comm.mp hab)

/-- One of two places that are apart has nothing of a rank. -/
theorem Apart.rankOf_eq_nil {u v : β} (h : Apart cmp found u v) (a : α) :
    rankOf cmp a (found u) = [] ∨ rankOf cmp a (found v) = [] := by
  by_contra hboth
  obtain ⟨hu, hv⟩ := not_or.mp hboth
  obtain ⟨x, hx⟩ := List.exists_mem_of_ne_nil _ hu
  obtain ⟨y, hy⟩ := List.exists_mem_of_ne_nil _ hv
  obtain ⟨hxu, hax⟩ := mem_rankOf.mp hx
  obtain ⟨hyv, hay⟩ := mem_rankOf.mp hy
  exact h x hxu y hyv (by rw [← Std.TransCmp.congr_left hax, hay])

/-- The order of places that are apart does not matter for any rank. -/
theorem rankOf_flatMap_perm (hperm : us.Perm vs) (hapart : us.Pairwise (Apart cmp found)) (a : α) :
    rankOf cmp a (us.flatMap found) = rankOf cmp a (vs.flatMap found) := by
  induction hperm with
  | nil => rfl
  | cons u _ ih =>
    rw [List.flatMap_cons, List.flatMap_cons, rankOf_append, rankOf_append, ih hapart.tail]
  | swap u v rest =>
    have hvu := (List.pairwise_cons.mp hapart).1 u List.mem_cons_self
    simp only [List.flatMap_cons, rankOf_append]
    rcases hvu.rankOf_eq_nil a with h | h
    · rw [h, List.nil_append, List.nil_append]
    · rw [h, List.nil_append, List.nil_append]
  | trans h _ ih₁ ih₂ => rw [ih₁ hapart, ih₂ (hapart.perm h Apart.symm)]

/-- The order of places that are apart does not show in what is sorted. -/
theorem mergeSort_flatMap_perm (hperm : us.Perm vs) (hapart : us.Pairwise (Apart cmp found)) :
    (us.flatMap found).mergeSort (fun a b => (cmp a b).isLE)
      = (vs.flatMap found).mergeSort fun a b => (cmp a b).isLE := by
  refine mergeSort_eq_of_ranks (inOrder_mergeSort _) ?_ fun a => ?_
  · exact (List.mergeSort_perm _ _).trans (hperm.symm.flatMap_right found)
  · rw [rankOf_mergeSort, rankOf_flatMap_perm hperm hapart]

/-- Of places that lie one before the other, each is sorted by itself. -/
theorem mergeSort_flatMap (h : us.Pairwise fun u v => ∀ a ∈ found u, ∀ b ∈ found v, cmp a b = .lt) :
    (us.flatMap found).mergeSort (fun a b => (cmp a b).isLE)
      = us.flatMap fun u => (found u).mergeSort fun a b => (cmp a b).isLE := by
  refine mergeSort_eq_of_ranks ?_ ?_ fun a => ?_
  · refine List.pairwise_flatMap.mpr ⟨fun u _ => inOrder_mergeSort _, h.imp fun huv a ha b hb => ?_⟩
    rw [huv a (List.mem_mergeSort.mp ha) b (List.mem_mergeSort.mp hb)]
    rfl
  · exact List.Perm.flatMap_left us fun u _ => List.mergeSort_perm _ _
  · clear h
    induction us with
    | nil => rfl
    | cons u us ih =>
      rw [List.flatMap_cons, List.flatMap_cons, rankOf_append, rankOf_append, rankOf_mergeSort, ih]

end Ranks

/-! ### Findings by file -/

section Neighbours

variable {α β : Type} {r : α → α → Bool}

/-- Nothing is left out where two lists meet if no element of the one is the same as one of the
other. -/
theorem eraseRepsBy_append {xs ys : List α} (h : ∀ x ∈ xs, ∀ y ∈ ys, r x y = false) :
    (xs ++ ys).eraseRepsBy r = xs.eraseRepsBy r ++ ys.eraseRepsBy r := by
  induction xs using eraseRepsBy_induction r with
  | nil => rfl
  | singleton x =>
    cases ys with
    | nil => rfl
    | cons y ys => exact eraseRepsBy_of_differ (h x List.mem_cons_self y List.mem_cons_self) ys
  | same x x' xs hsame ih =>
    obtain ⟨hx, hrest⟩ := List.forall_mem_cons.mp h
    rw [eraseRepsBy_of_same hsame, ← ih (List.forall_mem_cons.mpr
      ⟨hx, (List.forall_mem_cons.mp hrest).2⟩)]
    exact eraseRepsBy_of_same hsame (xs ++ ys)
  | differ x x' xs hdiffer ih =>
    have hrest := ih (List.forall_mem_cons.mp h).2
    rw [eraseRepsBy_of_differ hdiffer]
    exact (eraseRepsBy_of_differ hdiffer (xs ++ ys)).trans (congrArg (x :: ·) hrest)

private theorem eraseRepsBy_flatMap {found : β → List α} {us : List β}
    (h : us.Pairwise fun u v => ∀ a ∈ found u, ∀ b ∈ found v, r a b = false) :
    (us.flatMap found).eraseRepsBy r = us.flatMap fun u => (found u).eraseRepsBy r := by
  induction h with
  | nil => rfl
  | cons hu _ ih =>
    rw [List.flatMap_cons, List.flatMap_cons, eraseRepsBy_append, ih]
    intro a ha b hb
    obtain ⟨v, hv, hb⟩ := List.mem_flatMap.mp hb
    exact hu v hv a ha b hb

end Neighbours

namespace Report

private theorem promote_file (strict : Bool) (d : Diagnostic) :
    (promote strict d).file = d.file := by
  unfold promote
  split <;> rfl

variable {α : Type} {path : α → Path} {found : α → List Diagnostic} {us vs : List α}

/-- The order in which files were checked does not show if their paths differ. -/
theorem assemble_perm (strict complete : Bool) (n : Nat)
    (hfile : ∀ u, ∀ d ∈ found u, d.file = path u) (hperm : us.Perm vs)
    (hdiffer : PathsDiffer path us) : assemble strict complete n (us.flatMap found)
      = assemble strict complete n (vs.flatMap found) := by
  have hapart : us.Pairwise (Apart Diagnostic.order fun u => (found u).map (promote strict)) := by
    refine List.Pairwise.imp (fun {u v} huv a ha b hb hab => ?_) hdiffer
    obtain ⟨d, hd, rfl⟩ := List.mem_map.mp ha
    obtain ⟨e, he, rfl⟩ := List.mem_map.mp hb
    have hpaths := (Ordering.then_eq_eq.mp hab).1
    rw [promote_file, promote_file, hfile u d hd, hfile v e he, Path.order_eq_eq_iff, huv] at hpaths
    cases hpaths
  have hsorted : sorted ((us.flatMap found).map (promote strict))
      = sorted ((vs.flatMap found).map (promote strict)) := by
    rw [List.map_flatMap, List.map_flatMap]
    exact mergeSort_flatMap_perm hperm hapart
  rw [assemble, hsorted]
  rfl

/-- Findings in files in the order of their paths are listed file by file, as a report about each of
the files would list them. -/
theorem diagnostics_assemble_flatMap (strict complete complete' : Bool) (n n' : Nat)
    (hfile : ∀ u, ∀ d ∈ found u, d.file = path u)
    (hascending : us.Pairwise fun u v => Path.order (path u) (path v) = .lt) :
    (assemble strict complete n (us.flatMap found)).diagnostics
      = us.flatMap fun u => (assemble strict complete' n' (found u)).diagnostics := by
  have hfiles : us.Pairwise fun u v => ∀ a ∈ (found u).map (promote strict),
      ∀ b ∈ (found v).map (promote strict), Path.order a.file b.file = .lt := by
    refine hascending.imp fun {u v} huv a ha b hb => ?_
    obtain ⟨d, hd, rfl⟩ := List.mem_map.mp ha
    obtain ⟨e, he, rfl⟩ := List.mem_map.mp hb
    rw [promote_file, promote_file, hfile u d hd, hfile v e he, huv]
  have hsorted : sorted ((us.flatMap found).map (promote strict))
      = us.flatMap fun u => sorted ((found u).map (promote strict)) := by
    rw [List.map_flatMap]
    exact mergeSort_flatMap (hfiles.imp fun huv a ha b hb => Diagnostic.order_eq_lt (huv a ha b hb))
  unfold assemble
  dsimp only
  rw [hsorted, eraseRepsBy_flatMap]
  refine hfiles.imp fun huv a ha b hb => Diagnostic.not_same_of_lt ?_
  exact huv a (List.mem_mergeSort.mp ha) b (List.mem_mergeSort.mp hb)

end Report

end DocContract
