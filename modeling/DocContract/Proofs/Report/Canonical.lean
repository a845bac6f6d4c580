import DocContract.Proofs.Report.Sorted
import Mathlib.Data.List.Forall2

/-!
# What a report depends on

The order of a report looks at neither the severity nor the subject of a finding. So findings that
differ in nothing else stand in the order in which they were found, and between two of them a third
one may hide that it repeats the first. A report depends on the set of its findings alone, and lists
none of them twice, exactly when there are no such findings.
-/

namespace DocContract

namespace DiagnosticCode

/-- A kind is known by its place in the order. -/
theorem rank_inj {a b : DiagnosticCode} (h : a.rank = b.rank) : a = b := by
  have hrow : ∀ c : DiagnosticCode, table[c.rank]?.map Prod.fst = some c := by
    intro c
    cases c <;> rfl
  have ha := hrow a
  rw [h, hrow b] at ha
  exact (Option.some.inj ha).symm

end DiagnosticCode

namespace Diagnostic

variable {a b c : Diagnostic}

/-- Findings of equal rank can differ in the spelling of the path, the severity and the subject. -/
theorem order_eq_eq_iff : order a b = .eq ↔ Path.same a.file b.file = true ∧ a.line = b.line
    ∧ a.column = b.column ∧ a.code = b.code ∧ a.message = b.message := by
  have hcode : a.code.rank = b.code.rank ↔ a.code = b.code :=
    ⟨DiagnosticCode.rank_inj, congrArg DiagnosticCode.rank⟩
  simp only [order, Ordering.then_eq_eq, Path.order_eq_eq_iff, Std.LawfulEqCmp.compare_eq_iff_eq,
    hcode]

/-- Findings are the same when they have one rank, one severity and one subject. -/
theorem same_iff : same a b = true
    ↔ order a b = .eq ∧ a.severity = b.severity ∧ a.symbol? = b.symbol? := by
  rw [order_eq_eq_iff, same, Bool.and_eq_true, beq_iff_eq]
  obtain ⟨file, line, column, code, severity, message, symbol⟩ := a
  obtain ⟨file', line', column', code', severity', message', symbol'⟩ := b
  simp only [Diagnostic.mk.injEq]
  tauto

private theorem same_refl (a : Diagnostic) : same a a = true :=
  same_iff.mpr ⟨Std.ReflCmp.compare_self, rfl, rfl⟩

/-- Being the same finding is symmetric. -/
theorem same_symm (h : same a b = true) : same b a = true := by
  obtain ⟨hrank, hseverity, hsymbol⟩ := same_iff.mp h
  exact same_iff.mpr ⟨Std.OrientedCmp.eq_comm.mp hrank, hseverity.symm, hsymbol.symm⟩

/-- Being the same finding is transitive. -/
theorem same_trans (h : same a b = true) (h' : same b c = true) : same a c = true := by
  obtain ⟨hrank, hseverity, hsymbol⟩ := same_iff.mp h
  obtain ⟨hrank', hseverity', hsymbol'⟩ := same_iff.mp h'
  exact same_iff.mpr ⟨Std.TransCmp.eq_trans hrank hrank', hseverity.trans hseverity',
    hsymbol.trans hsymbol'⟩

end Diagnostic

/-! ### Lists in strict order -/

section Strict

variable {α : Type} {cmp : α → α → Ordering} {r : α → α → Bool}

/-- The elements of a list stand in strict order. -/
abbrev Ascends (cmp : α → α → Ordering) (xs : List α) : Prop := xs.Pairwise fun a b => cmp a b = .lt

/-- The first element of a rank stays: it could only be left out for an earlier one of its rank. -/
theorem head?_rankOf_eraseRepsBy [Std.TransCmp cmp] (hr : ∀ x y, r x y = true → cmp x y = .eq)
    (a : α) (xs : List α) :
    (rankOf cmp a (xs.eraseRepsBy r)).head? = (rankOf cmp a xs).head? := by
  induction xs using eraseRepsBy_induction r with
  | nil => rfl
  | singleton x => rfl
  | same x y xs hxy ih =>
    rw [eraseRepsBy_of_same hxy, ih]
    by_cases hx : cmp a x = .eq
    · rw [rankOf_cons_eq _ hx, rankOf_cons_eq _ hx]
      rfl
    · have hy : cmp a y ≠ .eq := by rwa [← Std.TransCmp.congr_right (hr x y hxy)]
      rw [rankOf_cons_ne _ hx, rankOf_cons_ne _ hx, rankOf_cons_ne _ hy]
  | differ x y xs hxy ih =>
    rw [eraseRepsBy_of_differ hxy]
    by_cases hx : cmp a x = .eq
    · rw [rankOf_cons_eq _ hx, rankOf_cons_eq _ hx]
      rfl
    · rw [rankOf_cons_ne _ hx, rankOf_cons_ne _ hx, ih]

variable [Std.TransCmp cmp]

/-- When elements of one rank are the same, the ones that stay stand in strict order. -/
theorem InOrder.ascends_eraseRepsBy {xs : List α} (h : InOrder cmp xs)
    (hsame : ∀ x ∈ xs, ∀ y ∈ xs, cmp x y = .eq → r x y = true) :
    Ascends cmp (xs.eraseRepsBy r) := by
  induction xs using eraseRepsBy_induction r with
  | nil => exact .nil
  | singleton x => exact List.pairwise_singleton _ x
  | same x y xs hxy ih =>
    rw [eraseRepsBy_of_same hxy]
    have hsub : (x :: xs).Sublist (x :: y :: xs) := (List.sublist_cons_self y xs).cons_cons x
    exact ih (h.sublist hsub) fun u hu v hv => hsame u (hsub.subset hu) v (hsub.subset hv)
  | differ x y xs hne ih =>
    obtain ⟨hx, hrest⟩ := List.pairwise_cons.mp h
    rw [eraseRepsBy_of_differ hne]
    refine List.pairwise_cons.mpr ⟨fun z hz => ?_, ih hrest fun u hu v hv =>
      hsame u (List.mem_cons_of_mem x hu) v (List.mem_cons_of_mem x hv)⟩
    have hxy : cmp x y = .lt := by
      have hle := hx y List.mem_cons_self
      cases hc : cmp x y with
      | lt => rfl
      | eq =>
        rw [hsame x List.mem_cons_self y (by simp) hc] at hne
        cases hne
      | gt => rw [hc] at hle; cases hle
    have hyz : (cmp y z).isLE = true := by
      rcases List.mem_cons.mp (mem_of_mem_eraseRepsBy hz) with rfl | hz
      · exact Std.ReflCmp.isLE_rfl
      · exact (List.pairwise_cons.mp hrest).1 z hz
    exact Std.TransCmp.lt_of_lt_of_isLE hxy hyz

/-- Two lists in strict order that hold the same elements are the same, element by element. -/
theorem Ascends.forall₂ {xs ys : List α} (hr : ∀ x y, r x y = true → cmp x y = .eq)
    (hx : Ascends cmp xs) (hy : Ascends cmp ys) (hxy : ∀ x ∈ xs, ∃ y ∈ ys, r x y = true)
    (hyx : ∀ y ∈ ys, ∃ x ∈ xs, r x y = true) : List.Forall₂ (fun x y => r x y = true) xs ys := by
  induction xs generalizing ys with
  | nil =>
    cases ys with
    | nil => exact .nil
    | cons y ys =>
      obtain ⟨x, hmem, -⟩ := hyx y List.mem_cons_self
      cases hmem
  | cons x xs ih =>
    obtain ⟨hxs, hxtail⟩ := List.pairwise_cons.mp hx
    cases ys with
    | nil =>
      obtain ⟨y, hmem, -⟩ := hxy x List.mem_cons_self
      cases hmem
    | cons y ys =>
      obtain ⟨hys, hytail⟩ := List.pairwise_cons.mp hy
      -- Each head is least in its list, and neither can be the same as an element behind the other.
      have hle : ∀ z ∈ y :: ys, (cmp y z).isLE = true := by
        intro z hz
        rcases List.mem_cons.mp hz with rfl | hz
        · exact Std.ReflCmp.isLE_rfl
        · rw [hys z hz]
          rfl
      have hhead : r x y = true := by
        obtain ⟨x', hx', hsame⟩ := hyx y List.mem_cons_self
        rcases List.mem_cons.mp hx' with rfl | hx'
        · exact hsame
        · obtain ⟨y', hy', hsame'⟩ := hxy x List.mem_cons_self
          have hlt : cmp x y = .lt := by rw [← Std.TransCmp.congr_right (hr _ _ hsame), hxs x' hx']
          have hle' := hle y' hy'
          rw [← Std.TransCmp.congr_right (hr _ _ hsame'), Std.OrientedCmp.gt_of_lt hlt] at hle'
          cases hle'
      have heq := hr x y hhead
      refine .cons hhead (ih hxtail hytail (fun z hz => ?_) fun z hz => ?_)
      · obtain ⟨w, hw, hsame⟩ := hxy z (List.mem_cons_of_mem x hz)
        rcases List.mem_cons.mp hw with rfl | hw
        · have hlt := hxs z hz
          rw [Std.TransCmp.congr_right (hr _ _ hsame), heq] at hlt
          cases hlt
        · exact ⟨w, hw, hsame⟩
      · obtain ⟨w, hw, hsame⟩ := hyx z (List.mem_cons_of_mem y hz)
        rcases List.mem_cons.mp hw with rfl | hw
        · have hlt := hys z hz
          rw [← Std.TransCmp.congr_left heq, hr _ _ hsame] at hlt
          cases hlt
        · exact ⟨w, hw, hsame⟩

end Strict

/-! ### Reports -/

/-- The two lists hold the same findings, in any order and any number of times each. -/
def SameFindings (ds es : List Diagnostic) : Prop :=
  (∀ d ∈ ds, ∃ e ∈ es, d.same e = true) ∧ ∀ e ∈ es, ∃ d ∈ ds, d.same e = true

/-- The two lists hold the same findings in the same order. -/
abbrev SameList (ds es : List Diagnostic) : Prop := List.Forall₂ (fun d e => d.same e = true) ds es

/-- Of the findings, those of one rank are the same once they are promoted. -/
def RanksDecide (strict : Bool) (ds : List Diagnostic) : Prop :=
  ∀ a ∈ ds, ∀ b ∈ ds, Diagnostic.order a b = .eq →
    (Report.promote strict a).same (Report.promote strict b) = true

private theorem SameFindings.cons_of_mem {ds : List Diagnostic} {d : Diagnostic} (h : d ∈ ds) :
    SameFindings ds (d :: ds) :=
  ⟨fun e he => ⟨e, List.mem_cons_of_mem d he, e.same_refl⟩,
    List.forall_mem_cons.mpr ⟨⟨d, h, d.same_refl⟩, fun e he => ⟨e, he, e.same_refl⟩⟩⟩

namespace Report

variable {strict : Bool} {ds es : List Diagnostic} {a b : Diagnostic}

/-- The findings that a report lists. -/
def listed (strict : Bool) (ds : List Diagnostic) : List Diagnostic :=
  (sorted (ds.map (promote strict))).eraseRepsBy Diagnostic.same

/-- The findings of a report are the findings as they are listed. -/
theorem diagnostics_assemble (strict complete : Bool) (n : Nat) (ds : List Diagnostic) :
    (assemble strict complete n ds).diagnostics = listed strict ds := rfl

private theorem order_promote (strict : Bool) (a b : Diagnostic) :
    Diagnostic.order (promote strict a) (promote strict b) = Diagnostic.order a b := by
  cases strict <;> rfl

private theorem same_promote (strict : Bool) (h : a.same b = true) :
    (promote strict a).same (promote strict b) = true := by
  cases strict with
  | false => exact h
  | true =>
    obtain ⟨hrank, -, hsymbol⟩ := Diagnostic.same_iff.mp h
    exact Diagnostic.same_iff.mpr ⟨hrank, rfl, hsymbol⟩

private theorem order_of_same (a b : Diagnostic) (h : a.same b = true) :
    Diagnostic.order a b = .eq :=
  (Diagnostic.same_iff.mp h).1

/-- When ranks decide, the listed findings stand in strict order. -/
theorem ascends_listed (h : RanksDecide strict ds) :
    Ascends Diagnostic.order (listed strict ds) := by
  refine (inOrder_mergeSort _).ascends_eraseRepsBy fun x hx y hy hrank => ?_
  obtain ⟨a, ha, rfl⟩ := List.mem_map.mp (List.mem_mergeSort.mp hx)
  obtain ⟨b, hb, rfl⟩ := List.mem_map.mp (List.mem_mergeSort.mp hy)
  rw [order_promote] at hrank
  exact h a ha b hb hrank

/-- What one list holds is listed of the other. -/
theorem exists_listed_same (h : ∀ d ∈ ds, ∃ e ∈ es, d.same e = true) :
    ∀ d ∈ listed strict ds, ∃ e ∈ listed strict es, d.same e = true := by
  intro d hd
  obtain ⟨a, ha, rfl⟩ := List.mem_map.mp (List.mem_mergeSort.mp (mem_of_mem_eraseRepsBy hd))
  obtain ⟨b, hb, hab⟩ := h a ha
  have hmem : promote strict b ∈ sorted (es.map (promote strict)) :=
    List.mem_mergeSort.mpr (List.mem_map_of_mem hb)
  have hsame := same_promote strict hab
  obtain ⟨e, he, rfl | heb⟩ := exists_mem_eraseRepsBy (r := Diagnostic.same) hmem
  · exact ⟨_, he, hsame⟩
  · exact ⟨e, he, Diagnostic.same_trans hsame (Diagnostic.same_symm heb)⟩

private theorem ranksDecide_of_sameFindings (h : RanksDecide strict ds)
    (hsame : SameFindings ds es) : RanksDecide strict es := by
  intro a ha b hb hrank
  obtain ⟨a', ha', haa⟩ := hsame.2 a ha
  obtain ⟨b', hb', hbb⟩ := hsame.2 b hb
  have hrank' : Diagnostic.order a' b' = .eq := by
    rw [Std.TransCmp.congr_left (order_of_same _ _ haa),
      Std.TransCmp.congr_right (order_of_same _ _ hbb), hrank]
  exact Diagnostic.same_trans (Diagnostic.same_symm (same_promote strict haa))
    (Diagnostic.same_trans (h a' ha' b' hb' hrank') (same_promote strict hbb))

/-- When ranks decide, the same findings are listed alike. -/
theorem sameList_listed (h : RanksDecide strict ds) (hsame : SameFindings ds es) :
    SameList (listed strict ds) (listed strict es) := by
  have hes : RanksDecide strict es := ranksDecide_of_sameFindings h hsame
  have hback : ∀ e ∈ es, ∃ d ∈ ds, e.same d = true := fun e he =>
    (hsame.2 e he).imp fun d hd => ⟨hd.1, Diagnostic.same_symm hd.2⟩
  refine (ascends_listed h).forall₂ order_of_same (ascends_listed hes)
    (exists_listed_same hsame.1) fun e he => ?_
  obtain ⟨d, hd, hed⟩ := exists_listed_same hback e he
  exact ⟨d, hd, Diagnostic.same_symm hed⟩

/-- The first finding of a rank that is listed is the one that was found first. -/
theorem head?_rankOf_listed (strict : Bool) (d : Diagnostic) (ds : List Diagnostic) :
    (rankOf Diagnostic.order d (listed strict ds)).head?
      = (rankOf Diagnostic.order d (ds.map (promote strict))).head? := by
  rw [listed, head?_rankOf_eraseRepsBy order_of_same, sorted, rankOf_mergeSort]

/-- The first findings of a rank in lists of the same findings are the same. -/
theorem exists_head?_rankOf {d e : Diagnostic} (h : SameList ds es)
    (he : (rankOf Diagnostic.order d es).head? = some e) :
    ∃ x, (rankOf Diagnostic.order d ds).head? = some x ∧ x.same e = true := by
  have hranks : SameList (rankOf Diagnostic.order d ds) (rankOf Diagnostic.order d es) := by
    refine List.rel_filter (fun x y hxy => ?_) h
    dsimp only
    rw [Std.TransCmp.congr_right (order_of_same x y hxy)]
  generalize rankOf Diagnostic.order d ds = xs at hranks
  generalize rankOf Diagnostic.order d es = ys at hranks he
  cases hranks with
  | nil => cases he
  | cons hxy =>
    cases he
    exact ⟨_, rfl, hxy⟩

/-- A finding that is found first of its rank is the one that is listed first of it. -/
theorem exists_head?_rankOf_listed (h : SameList (listed strict ds) (listed strict (a :: es)))
    {d : Diagnostic} (hrank : Diagnostic.order d a = .eq) :
    ∃ x, (rankOf Diagnostic.order d (listed strict ds)).head? = some x
      ∧ x.same (promote strict a) = true := by
  have hrank' : Diagnostic.order d (promote strict a) = .eq := by
    cases strict <;> exact hrank
  apply exists_head?_rankOf h
  rw [head?_rankOf_listed, List.map_cons, rankOf_cons_eq _ hrank']
  rfl

/-- Lists of the same findings always make the same report, which lists no finding twice, exactly
when no two of the findings differ in their severity or their subject alone. -/
theorem assemble_canonical_iff (strict complete : Bool) (n : Nat) (ds : List Diagnostic) :
    ((∀ es, SameFindings ds es → SameList (assemble strict complete n ds).diagnostics
          (assemble strict complete n es).diagnostics)
        ∧ (assemble strict complete n ds).diagnostics.Pairwise fun d e => d.same e = false)
      ↔ RanksDecide strict ds := by
  simp only [diagnostics_assemble]
  constructor
  · rintro ⟨hlist, -⟩ a ha b hb hrank
    -- With either of the two in front, the report begins their rank with it.
    have hself : Diagnostic.order a a = .eq := Std.ReflCmp.compare_self
    obtain ⟨x, hx, hxa⟩ := exists_head?_rankOf_listed (hlist _ (.cons_of_mem ha)) hself
    obtain ⟨y, hy, hyb⟩ := exists_head?_rankOf_listed (hlist _ (.cons_of_mem hb)) hrank
    rw [hx] at hy
    cases hy
    exact Diagnostic.same_trans (Diagnostic.same_symm hxa) hyb
  · intro h
    refine ⟨fun es hsame => sameList_listed h hsame, (ascends_listed h).imp fun {x y} hlt => ?_⟩
    rw [Bool.eq_false_iff]
    intro hsame
    rw [order_of_same x y hsame] at hlt
    cases hlt

/-- Findings in order are listed in their order. -/
theorem listed_of_inOrder (h : InOrder Diagnostic.order ds) :
    listed false ds = ds.eraseRepsBy Diagnostic.same := by
  have hpromote : ds.map (promote false) = ds := List.map_id ds
  rw [listed, hpromote, sorted, List.mergeSort_of_pairwise h]

/-- A finding on a block that symbols on one line share, as it is reported for each of them. -/
def sharedFindings (symbols : List Text) : List Diagnostic :=
  symbols.map (Diagnostic.ofCode .unknownTag "src/a.ts" 2 4 "unknown tag `@foo`").about

/-- The findings on a shared block have one rank, so they are listed as they were found. -/
theorem listed_sharedFindings (symbols : List Text) :
    listed false (sharedFindings symbols)
      = (sharedFindings symbols).eraseRepsBy Diagnostic.same := by
  refine listed_of_inOrder (List.pairwise_map.mpr (List.pairwise_of_forall fun f g => ?_))
  change (Diagnostic.order (Diagnostic.ofCode _ _ _ _ _) (Diagnostic.ofCode _ _ _ _ _)).isLE = true
  exact Std.ReflCmp.isLE_rfl

/-- Findings that differ in their subject are listed in the order in which they were found, and one
of them twice when another stands between. -/
theorem assemble_sharedFindings :
    (sharedFindings ["f@4", "g@4"]).Perm (sharedFindings ["g@4", "f@4"])
      ∧ ¬ SameList (assemble false true 1 (sharedFindings ["f@4", "g@4"])).diagnostics
        (assemble false true 1 (sharedFindings ["g@4", "f@4"])).diagnostics
      ∧ ¬ (assemble false true 1 (sharedFindings ["f@4", "g@4", "f@4"])).diagnostics.Nodup := by
  simp only [diagnostics_assemble, listed_sharedFindings]
  exact ⟨.swap _ _ [], by decide, by decide⟩

end Report

end DocContract
