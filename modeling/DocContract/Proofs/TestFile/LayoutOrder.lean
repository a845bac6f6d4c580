import DocContract.Proofs.TestFile.SuiteNames
import Mathlib.Data.List.Forall2
import Mathlib.Data.List.Basic
import Mathlib.Data.List.Induction

/-!
# The order of statements

In a unit test file a statement is out of order when one of higher rank stands in front of it, and
its report names the kind of highest rank there. In an integration test file only what prepares the
file can be out of order, and it is so behind any suite. What is out of order there would be out of
order in a unit test file as well.
-/

namespace DocContract

open Text

/-! ### Reports about the items of a list -/

section Reports

variable {α β : Type} {p q : List α → α → Bool} {R : List α → α → β → Prop} {xs : List α}
  {rs : List β}

/-- The places of the items that satisfy `p`, which may look at the items in front. -/
def placesWhere (p : List α → α → Bool) (xs : List α) : List Nat :=
  (List.range xs.length).filter fun i => xs[i]?.any (p (xs.take i))

/-- There is one report for each item that satisfies `p`, in the order of the items, and it stands
in the relation `R` to the items in front and the item. -/
def Reports (p : List α → α → Bool) (R : List α → α → β → Prop) (xs : List α) (rs : List β) :
    Prop :=
  List.Forall₂ (fun i r => ∃ x, xs[i]? = some x ∧ R (xs.take i) x r) (placesWhere p xs) rs

private theorem placesWhere_concat (p : List α → α → Bool) (xs : List α) (x : α) :
    placesWhere p (xs ++ [x]) = placesWhere p xs ++ if p xs x then [xs.length] else [] := by
  unfold placesWhere
  rw [List.length_append, List.length_singleton, List.range_succ, List.filter_append]
  congr 1
  · refine List.filter_congr fun i hi => ?_
    have hlt : i < xs.length := List.mem_range.mp hi
    rw [List.getElem?_append_left hlt, List.take_append_of_le_length (Nat.le_of_lt hlt)]
  · simp [List.filter_cons]

private theorem placesWhere_sublist (h : ∀ earlier x, p earlier x = true → q earlier x = true)
    (xs : List α) : (placesWhere p xs).Sublist (placesWhere q xs) := by
  refine List.monotone_filter_right _ fun i hi => ?_
  obtain ⟨x, hx, hp⟩ := (Option.any_eq_true _ _).mp hi
  exact (Option.any_eq_true _ _).mpr ⟨x, hx, h _ x hp⟩

/-- What is reported does not depend on the items that follow. -/
theorem Reports.longer (h : Reports p R xs rs) (ys : List α) :
    List.Forall₂ (fun i r => ∃ x, (xs ++ ys)[i]? = some x ∧ R ((xs ++ ys).take i) x r)
      (placesWhere p xs) rs := by
  refine h.imp fun i r hr => ?_
  obtain ⟨x, hx, hr⟩ := hr
  obtain ⟨hlt, -⟩ := List.getElem?_eq_some_iff.mp hx
  refine ⟨x, ?_, ?_⟩
  · rw [List.getElem?_append_left hlt, hx]
  · rwa [List.take_append_of_le_length (Nat.le_of_lt hlt)]

private theorem Reports.concat_silent (h : Reports p R xs rs) {x : α} (hp : p xs x = false) :
    Reports p R (xs ++ [x]) rs := by
  unfold Reports
  rw [placesWhere_concat, hp, if_neg Bool.false_ne_true, List.append_nil]
  exact h.longer [x]

private theorem Reports.concat_report (h : Reports p R xs rs) {x : α} {r : β} (hp : p xs x = true)
    (hr : R xs x r) : Reports p R (xs ++ [x]) (rs ++ [r]) := by
  unfold Reports
  rw [placesWhere_concat, hp, if_pos rfl]
  refine List.rel_append (h.longer [x]) (.cons ⟨x, ?_, ?_⟩ .nil)
  · exact List.getElem?_concat_length
  · rwa [List.take_left]

private theorem Reports.eq_nil_iff (h : Reports p R xs rs) : rs = [] ↔ placesWhere p xs = [] := by
  rw [← List.length_eq_zero_iff, ← h.length_eq, List.length_eq_zero_iff]

end Reports

/-! ### Ranks -/

namespace StatementKind

/-- Both kinds have a rank, and that of the first is lower. -/
def precedes (a b : StatementKind) : Bool :=
  a.rank?.any fun rank => b.rank?.any fun other => rank < other

private theorem precedes_iff {a b : StatementKind} :
    a.precedes b = true ↔ ∃ rank ∈ a.rank?, ∃ other ∈ b.rank?, rank < other := by
  simp [precedes, Option.any_eq_true]

private theorem precedes_eq_false_iff {a b : StatementKind} :
    a.precedes b = false ↔ ∀ rank ∈ a.rank?, ∀ other ∈ b.rank?, other ≤ rank := by
  simp [← Bool.not_eq_true, precedes_iff]

private theorem precedes_self (a : StatementKind) : a.precedes a = false :=
  precedes_eq_false_iff.mpr fun _ h _ h' => Nat.le_of_eq (Option.mem_unique h' h)

private theorem precedes_asymm {a b : StatementKind} (h : a.precedes b = true) :
    b.precedes a = false := by
  obtain ⟨rank, ha, other, hb, hlt⟩ := precedes_iff.mp h
  refine precedes_eq_false_iff.mpr fun _ hb' _ ha' => ?_
  rw [Option.mem_unique hb' hb, Option.mem_unique ha' ha]
  exact Nat.le_of_lt hlt

/-- A kind in front of a second one is in front of every kind that is not in front of the second. -/
theorem precedes_of_precedes {a b c : StatementKind} (hab : a.precedes b = true)
    (hc : c.rank?.isSome) (hcb : c.precedes b = false) : a.precedes c = true := by
  obtain ⟨rank, ha, other, hb, hlt⟩ := precedes_iff.mp hab
  obtain ⟨last, hlast⟩ := Option.isSome_iff_exists.mp hc
  have hle := precedes_eq_false_iff.mp hcb last hlast other hb
  exact precedes_iff.mpr ⟨rank, ha, last, hlast, Nat.lt_of_lt_of_le hlt hle⟩

end StatementKind

/-! ### Unit test files -/

namespace Outline

section Unit

variable {earlier ss : List Statement} {furthest? : Option StatementKind} {s : Statement}

/-- The kind of highest rank among some statements. -/
structure IsLatest (earlier : List Statement) (kind : StatementKind) : Prop where
  ranked : kind.rank?.isSome
  occurs : ∃ t ∈ earlier, t.kind = kind
  highest : ∀ t ∈ earlier, kind.precedes t.kind = false

/-- The furthest stage that statements have reached, if one of them has a rank. -/
structure HasReached (earlier : List Statement) (furthest? : Option StatementKind) : Prop where
  latest : ∀ kind ∈ furthest?, IsLatest earlier kind
  unranked : furthest? = none → ∀ t ∈ earlier, t.kind.rank? = none

/-- Does the statement stand behind one of higher rank? -/
def isMisplaced (earlier : List Statement) (s : Statement) : Bool :=
  earlier.any fun t => s.kind.precedes t.kind

/-- The furthest stage, one statement later. -/
def advance (furthest? : Option StatementKind) (s : Statement) : Option StatementKind :=
  if s.kind.rank?.isSome && !furthest?.any s.kind.precedes then some s.kind else furthest?

/-- The finding about the next statement. -/
def misplaced? (furthest? : Option StatementKind) (s : Statement) : Option PlacedFinding :=
  (furthest?.filter s.kind.precedes).map fun after => ⟨s.place, .outOfOrder s.kind after, none⟩

private theorem unitOrderFrom_cons (furthest? : Option StatementKind) (s : Statement)
    (ss : List Statement) : unitOrderFrom furthest? (s :: ss)
      = (misplaced? furthest? s).toList ++ unitOrderFrom (advance furthest? s) ss := by
  rw [unitOrderFrom]
  unfold misplaced? advance StatementKind.precedes
  cases hrank : s.kind.rank? with
  | none => simp
  | some rank =>
    cases furthest? with
    | none => simp
    | some furthest =>
      cases hreached : furthest.rank? with
      | none => simp [hreached, Option.filter_some]
      | some reached =>
        by_cases hlt : rank < reached
        · simp [hreached, hlt, Option.filter_some]
        · simp [hreached, hlt, Option.filter_some]

private theorem unitOrderFrom_concat (furthest? : Option StatementKind) (ss : List Statement)
    (s : Statement) : unitOrderFrom furthest? (ss ++ [s])
      = unitOrderFrom furthest? ss ++ (misplaced? (ss.foldl advance furthest?) s).toList := by
  induction ss generalizing furthest? with
  | nil =>
    rw [List.nil_append, unitOrderFrom_cons]
    simp [unitOrderFrom]
  | cons t ss ih =>
    rw [List.cons_append, unitOrderFrom_cons, unitOrderFrom_cons, ih, List.append_assoc]
    rfl

private theorem HasReached.any_precedes (h : HasReached earlier furthest?) (s : Statement) :
    furthest?.any s.kind.precedes = isMisplaced earlier s := by
  rw [Bool.eq_iff_iff, Option.any_eq_true, isMisplaced, List.any_eq_true]
  constructor
  · rintro ⟨kind, hkind, hlate⟩
    obtain ⟨t, ht, rfl⟩ := (h.latest kind hkind).occurs
    exact ⟨t, ht, hlate⟩
  · rintro ⟨t, ht, hlate⟩
    obtain ⟨-, -, other, hother, -⟩ := StatementKind.precedes_iff.mp hlate
    cases hfurthest : furthest? with
    | none =>
      rw [h.unranked hfurthest t ht] at hother
      cases hother
    | some kind =>
      obtain ⟨hranked, -, hhighest⟩ := h.latest kind hfurthest
      exact ⟨kind, rfl, StatementKind.precedes_of_precedes hlate hranked (hhighest t ht)⟩

/-- Each statement carries the furthest stage on. -/
theorem HasReached.advance (h : HasReached earlier furthest?) (s : Statement) :
    HasReached (earlier ++ [s]) (advance furthest? s) := by
  unfold Outline.advance
  split
  · next hnew =>
    obtain ⟨hranked, hlater⟩ := Bool.and_eq_true_iff.mp hnew
    rw [h.any_precedes, Bool.not_eq_true', isMisplaced, List.any_eq_false] at hlater
    refine ⟨?_, nofun⟩
    rintro _ ⟨⟩
    refine ⟨hranked, ⟨s, List.mem_append_right _ List.mem_cons_self, rfl⟩, ?_⟩
    rw [List.forall_mem_append, List.forall_mem_singleton]
    exact ⟨fun t ht => Bool.eq_false_iff.mpr (hlater t ht), s.kind.precedes_self⟩
  · next hold =>
    constructor
    · intro kind hkind
      obtain ⟨hranked, ⟨t, ht, hoccurs⟩, hhighest⟩ := h.latest kind hkind
      refine ⟨hranked, ⟨t, List.mem_append_left _ ht, hoccurs⟩, ?_⟩
      rw [List.forall_mem_append, List.forall_mem_singleton]
      refine ⟨hhighest, ?_⟩
      -- A statement of higher rank would have been the furthest itself.
      cases hahead : kind.precedes s.kind with
      | false => rfl
      | true =>
        obtain ⟨-, -, rank, hrank, -⟩ := StatementKind.precedes_iff.mp hahead
        refine absurd ?_ hold
        rw [Option.mem_def.mp hkind, Option.any_some, StatementKind.precedes_asymm hahead,
          Option.mem_def.mp hrank]
        rfl
    · intro hnone
      rw [List.forall_mem_append, List.forall_mem_singleton]
      refine ⟨h.unranked hnone, ?_⟩
      rw [hnone, Option.any_none, Bool.not_false, Bool.and_true] at hold
      exact Option.not_isSome_iff_eq_none.mp hold

private theorem hasReached_foldl (ss : List Statement) :
    HasReached ss (ss.foldl Outline.advance none) := by
  induction ss using List.reverseRecOn with
  | nil => exact ⟨nofun, fun _ => List.forall_mem_nil _⟩
  | append_singleton ss s ih =>
    rw [List.foldl_append]
    exact ih.advance s

private theorem HasReached.misplaced?_eq_none (h : HasReached earlier furthest?)
    (hs : isMisplaced earlier s = false) : misplaced? furthest? s = none := by
  rw [← h.any_precedes] at hs
  cases furthest? with
  | none => rfl
  | some kind =>
    rw [Option.any_some] at hs
    simp [misplaced?, hs]

private theorem HasReached.exists_misplaced? (h : HasReached earlier furthest?)
    (hs : isMisplaced earlier s = true) : ∃ after, IsLatest earlier after
      ∧ misplaced? furthest? s = some ⟨s.place, .outOfOrder s.kind after, none⟩ := by
  rw [← h.any_precedes] at hs
  obtain ⟨kind, hkind, hlate⟩ := (Option.any_eq_true _ _).mp hs
  refine ⟨kind, h.latest kind hkind, ?_⟩
  rw [Option.mem_def.mp hkind]
  simp [misplaced?, hlate]

/-- No statement is misplaced exactly when the ranks never go down. -/
theorem placesWhere_isMisplaced_eq_nil_iff (ss : List Statement) :
    placesWhere isMisplaced ss = []
      ↔ (ss.filterMap fun s => s.kind.rank?).Pairwise (· ≤ ·) := by
  induction ss using List.reverseRecOn with
  | nil => exact iff_of_true rfl .nil
  | append_singleton ss s ih =>
    have hlast : isMisplaced ss s = false
        ↔ ∀ other ∈ ss.filterMap fun t => t.kind.rank?, ∀ rank ∈ s.kind.rank?, other ≤ rank := by
      simp only [isMisplaced, List.any_eq_false, Bool.not_eq_true,
        StatementKind.precedes_eq_false_iff, List.mem_filterMap]
      constructor
      · rintro h other ⟨t, ht, hother⟩ rank hrank
        exact h t ht rank hrank other hother
      · intro h t ht rank hrank other hother
        exact h other ⟨t, ht, hother⟩ rank hrank
    have hplaced : (if isMisplaced ss s then [ss.length] else []) = []
        ↔ isMisplaced ss s = false := by
      cases isMisplaced ss s <;> simp
    rw [placesWhere_concat, List.append_eq_nil_iff, ih, hplaced, hlast, List.filterMap_append,
      List.pairwise_append]
    refine and_congr_right fun _ => ?_
    cases hrank : s.kind.rank? with
    | none => simp [hrank]
    | some rank => simp [hrank]

end Unit

/-! ### Integration test files -/

/-- Does the statement prepare the file behind a suite? -/
def isBehindSuite (earlier : List Statement) (s : Statement) : Bool :=
  prepares s.kind && earlier.any (·.kind == .suite)

/-- The finding about the next statement, given whether a suite has been seen. -/
def behindSuite? (seenSuite : Bool) (s : Statement) : List PlacedFinding :=
  if seenSuite && prepares s.kind then [⟨s.place, .afterSuite s.kind, none⟩] else []

private theorem flowOrderFrom_concat (seenSuite : Bool) (ss : List Statement) (s : Statement) :
    flowOrderFrom seenSuite (ss ++ [s])
      = flowOrderFrom seenSuite ss ++ behindSuite? (seenSuite || ss.any (·.kind == .suite)) s := by
  induction ss generalizing seenSuite with
  | nil => simp [flowOrderFrom, behindSuite?]
  | cons t ss ih =>
    rw [List.cons_append, flowOrderFrom, flowOrderFrom, ih, List.append_assoc, List.any_cons,
      Bool.or_assoc]

/-- What would be out of order in an integration test file is so in a unit test file. -/
theorem isMisplaced_of_isBehindSuite (earlier : List Statement) (s : Statement)
    (h : isBehindSuite earlier s = true) : isMisplaced earlier s = true := by
  obtain ⟨hprepares, hsuite⟩ := Bool.and_eq_true_iff.mp h
  obtain ⟨t, ht, hkind⟩ := List.any_eq_true.mp hsuite
  refine List.any_eq_true.mpr ⟨t, ht, ?_⟩
  rw [beq_iff_eq.mp hkind]
  cases hs : s.kind <;> first | rfl | (rw [hs] at hprepares; cases hprepares)

end Outline

/-! ### Diagnostics -/

/-- The diagnostic of a statement that stands behind one of a kind of higher rank. -/
def Statement.outOfOrder (file : Path) (s : Statement) (after : StatementKind) : Diagnostic :=
  ⟨file, s.place.line, s.place.column, .orderViolation, .warning,
    s.kind.label ++ " appears after " ++ after.label, none⟩

/-- The diagnostic of a statement that prepares an integration test file behind a suite. -/
def Statement.afterSuite (file : Path) (s : Statement) : Diagnostic :=
  ⟨file, s.place.line, s.place.column, .orderViolation, .warning,
    s.kind.label ++ " appears after a suite", none⟩

namespace TestLayout

variable (layout : TestLayout) (file : Path)

/-- The diagnostics of a unit test file with an outline. -/
def unitDiagnostics (source? : Option SourceUnit) (o : Outline) : List Diagnostic :=
  (o.strayCases ++ o.unitFindings source?).map (layout.toDiagnostic file)

/-- The diagnostics of an integration test file with an outline. -/
def flowDiagnostics (o : Outline) : List Diagnostic :=
  (o.strayCases ++ o.flowFindings layout file).map (layout.toDiagnostic file)

private theorem filter_unitDiagnostics (source? : Option SourceUnit) (o : Outline) :
    (layout.unitDiagnostics file source? o).filter (·.code == .orderViolation)
      = o.unitOrder.map (layout.toDiagnostic file) := by
  have horder : ofKind .orderViolation o.unitOrder = o.unitOrder :=
    ofKind_of_code (Outline.code_unitOrderFrom none o.statements) .orderViolation
  unfold unitDiagnostics Outline.unitFindings
  rw [layout.filter_toDiagnostic]
  cases source? with
  | none =>
    simp only [ofKind_append]
    rw [horder, ofKind_of_code o.code_strayCases, ofKind_of_code o.code_unitGaps]
    simp [ofKind]
  | some source =>
    simp only [ofKind_append]
    rw [horder, ofKind_of_code o.code_strayCases, ofKind_of_code o.code_unitGaps,
      ofKind_of_code (o.code_unknownSuites source), ofKind_of_code (o.code_missingSuites source)]
    simp

private theorem filter_flowDiagnostics (o : Outline) :
    (layout.flowDiagnostics file o).filter (·.code == .orderViolation)
      = o.flowOrder.map (layout.toDiagnostic file) := by
  rw [flowDiagnostics, layout.filter_toDiagnostic, Outline.flowFindings]
  simp only [ofKind_append]
  rw [ofKind_of_code o.code_strayCases,
    ofKind_of_code (Outline.code_flowNaming layout.flowPattern file),
    ofKind_of_code (o.code_flowGaps layout.negativeKeywords), Outline.flowOrder,
    ofKind_of_code (Outline.code_flowOrderFrom false o.statements)]
  simp

private theorem reports_unitOrder (o : Outline) : Reports Outline.isMisplaced
    (fun earlier s d => ∃ after, Outline.IsLatest earlier after ∧ d = s.outOfOrder file after)
    o.statements (o.unitOrder.map (layout.toDiagnostic file)) := by
  rw [Outline.unitOrder]
  induction o.statements using List.reverseRecOn with
  | nil => exact .nil
  | append_singleton ss s ih =>
    have hreached := Outline.hasReached_foldl ss
    rw [Outline.unitOrderFrom_concat, List.map_append]
    cases hs : Outline.isMisplaced ss s with
    | false =>
      rw [hreached.misplaced?_eq_none hs, Option.toList_none, List.map_nil, List.append_nil]
      exact ih.concat_silent hs
    | true =>
      obtain ⟨after, hlatest, hfinding⟩ := hreached.exists_misplaced? hs
      rw [hfinding, Option.toList_some, List.map_singleton]
      exact ih.concat_report hs ⟨after, hlatest, rfl⟩

private theorem reports_flowOrder (o : Outline) : Reports Outline.isBehindSuite
    (fun _ s d => d = s.afterSuite file) o.statements
    (o.flowOrder.map (layout.toDiagnostic file)) := by
  rw [Outline.flowOrder]
  induction o.statements using List.reverseRecOn with
  | nil => exact .nil
  | append_singleton ss s ih =>
    rw [Outline.flowOrderFrom_concat, List.map_append, Outline.behindSuite?, Bool.false_or,
      Bool.and_comm]
    cases hs : Outline.isBehindSuite ss s with
    | false =>
      have hquiet := hs
      unfold Outline.isBehindSuite at hquiet
      rw [hquiet, if_neg Bool.false_ne_true, List.map_nil, List.append_nil]
      exact ih.concat_silent hs
    | true =>
      have hloud := hs
      unfold Outline.isBehindSuite at hloud
      rw [hloud, if_pos rfl, List.map_singleton]
      exact ih.concat_report hs rfl

/-- In a unit test file the statements behind one of higher rank are reported, each with the kind of
highest rank in front of it, and there are none exactly when the ranks never go down. In an
integration test file those that prepare the file behind a suite are reported. These are among the
former. -/
theorem order_exact (o : Outline) :
    (∀ source?, Reports Outline.isMisplaced
        (fun earlier s d => ∃ after, Outline.IsLatest earlier after ∧ d = s.outOfOrder file after)
        o.statements ((layout.unitDiagnostics file source? o).filter (·.code == .orderViolation)))
      ∧ (∀ source?, (layout.unitDiagnostics file source? o).filter (·.code == .orderViolation) = []
          ↔ (o.statements.filterMap fun s => s.kind.rank?).Pairwise (· ≤ ·))
      ∧ Reports Outline.isBehindSuite (fun _ s d => d = s.afterSuite file) o.statements
          ((layout.flowDiagnostics file o).filter (·.code == .orderViolation))
      ∧ (placesWhere Outline.isBehindSuite o.statements).Sublist
          (placesWhere Outline.isMisplaced o.statements)
      ∧ ∀ u source?, layout.validate u source? = match u.inferKind source?.isSome with
          | .unit => layout.unitDiagnostics u.path source? (outline layout.dbKeywords u.text)
          | .integration => layout.flowDiagnostics u.path (outline layout.dbKeywords u.text) := by
  refine ⟨?_, ?_, ?_, placesWhere_sublist Outline.isMisplaced_of_isBehindSuite _, ?_⟩
  · intro source?
    rw [layout.filter_unitDiagnostics]
    exact layout.reports_unitOrder file o
  · intro source?
    rw [layout.filter_unitDiagnostics, (layout.reports_unitOrder file o).eq_nil_iff]
    exact Outline.placesWhere_isMisplaced_eq_nil_iff o.statements
  · rw [layout.filter_flowDiagnostics]
    exact layout.reports_flowOrder file o
  · intro u source?
    unfold validate findings
    cases u.inferKind source?.isSome <;> rfl

end TestLayout

end DocContract
