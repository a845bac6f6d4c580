import DocContract.Proofs.Engine.Sound
import DocContract.Proofs.Report.Sorted
import DocContract.Proofs.Schema.Languages

/-!
# Files do not bear on each other

Every finding lies in the file that was checked. So if the paths of a run differ, the report lists
the findings file by file in the order of the paths, each file's as a report about it alone would.
Neither the order of the files in the manifest nor the order in which they are processed shows in
the report or in a failure.
-/

namespace DocContract

/-! ### Findings lie in the file -/

private theorem file_of_mem_validateSymbol {s : Settings} {u : SourceUnit} {f : Symbol}
    {a : Association}
    {d : Diagnostic} (h : d ∈ validateSymbol s u f a) : d.file = u.path := by
  cases a with
  | found block =>
    rcases List.mem_append.mp h with h | h
    · rcases List.mem_append.mp h with h | h
      · obtain ⟨e, -, rfl⟩ := List.mem_map.mp h
        rfl
      · obtain ⟨w, -, rfl⟩ := List.mem_map.mp h
        rfl
    · obtain ⟨finding, -, rfl⟩ := List.mem_map.mp h
      rfl
  | missing =>
    obtain ⟨_, rfl⟩ := eq_of_mem_missingDoc h
    rfl
  | malformed x =>
    rw [List.mem_singleton.mp h]
    rfl

private theorem file_of_mem_validateUnit {s : Settings} {u : SourceUnit} {ds : List Diagnostic}
    (hu : validateUnit s u = .ok ds) {d : Diagnostic} (h : d ∈ ds) : d.file = u.path := by
  rcases of_mem_validateUnit hu h with ⟨b, rfl⟩ | ⟨sym, a, h⟩
  · rfl
  · exact file_of_mem_validateSymbol h

private theorem TestLayout.file_of_mem_validate {layout : TestLayout} {t : TestUnit}
    {source? : Option SourceUnit} {d : Diagnostic} (h : d ∈ layout.validate t source?) :
    d.file = t.path := by
  obtain ⟨p, -, rfl⟩ := List.mem_map.mp h
  unfold toDiagnostic
  dsimp only
  split <;> rfl

/-- A file whose symbols are all declared in it is checked. -/
theorem exists_validateUnit {u : SourceUnit} (s : Settings) (h : u.misplaced? = none) :
    ∃ ds, validateUnit s u = .ok ds := by
  rw [validateUnit, SourceUnit.extract, h]
  exact ⟨_, rfl⟩

/-! ### The failure that is reported -/

/-- The search for the smallest path comes to the first of the failures that have it. -/
theorem exists_foldl_eq (f : Path × Failure) (fs : List (Path × Failure)) :
    ∃ front least back, f :: fs = front ++ least :: back
      ∧ fs.foldl (fun best next =>
        if Path.order next.1 best.1 == .lt then next else best) f = least
      ∧ (∀ g ∈ front, Path.order least.1 g.1 = .lt)
      ∧ ∀ g ∈ back, (Path.order least.1 g.1).isLE = true := by
  induction fs generalizing f with
  | nil => exact ⟨[], f, [], rfl, rfl, List.forall_mem_nil _, List.forall_mem_nil _⟩
  | cons g fs ih =>
    rw [List.foldl_cons]
    split
    · next hlt =>
      obtain ⟨front, least, back, hsplit, heq, hfront, hback⟩ := ih g
      have hg : (Path.order least.1 g.1).isLE = true := by
        cases front with
        | nil =>
          rw [(List.cons.inj hsplit).1]
          exact Std.ReflCmp.isLE_rfl
        | cons h front =>
          rw [(List.cons.inj hsplit).1, hfront h List.mem_cons_self]
          rfl
      refine ⟨f :: front, least, back, by rw [hsplit, List.cons_append], heq, ?_, hback⟩
      exact List.forall_mem_cons.mpr
        ⟨Std.TransCmp.lt_of_isLE_of_lt hg (beq_iff_eq.mp hlt), hfront⟩
    · next hnot =>
      have hfg : (Path.order f.1 g.1).isLE = true := by
        refine Ordering.isLE_iff_ne_gt.mpr fun hgt => hnot ?_
        rw [beq_iff_eq]
        exact Std.OrientedCmp.gt_iff_lt.mp hgt
      obtain ⟨front, least, back, hsplit, heq, hfront, hback⟩ := ih f
      cases front with
      | nil =>
        obtain ⟨rfl, rfl⟩ := List.cons.inj hsplit
        exact ⟨[], f, g :: fs, rfl, heq, List.forall_mem_nil _,
          List.forall_mem_cons.mpr ⟨hfg, hback⟩⟩
      | cons h front =>
        obtain ⟨rfl, rfl⟩ := List.cons.inj hsplit
        obtain ⟨hf, hrest⟩ := List.forall_mem_cons.mp hfront
        refine ⟨f :: g :: front, least, back, rfl, heq, ?_, hback⟩
        exact List.forall_mem_cons.mpr ⟨hf, List.forall_mem_cons.mpr
          ⟨Std.TransCmp.lt_of_lt_of_isLE hf hfg, hrest⟩⟩

/-- The failure that is reported is the first of those with the smallest path. -/
theorem exists_firstFailure? {fs : List (Path × Failure)} (h : fs ≠ []) :
    ∃ front f back, fs = front ++ f :: back ∧ firstFailure? fs = some f.2
      ∧ (∀ g ∈ front, Path.order f.1 g.1 = .lt)
      ∧ ∀ g ∈ back, (Path.order f.1 g.1).isLE = true := by
  obtain ⟨f, fs, rfl⟩ := List.exists_cons_of_ne_nil h
  obtain ⟨front, least, back, hsplit, heq, hfront, hback⟩ := exists_foldl_eq f fs
  exact ⟨front, least, back, hsplit, by rw [firstFailure?, heq], hfront, hback⟩

/-- No failure has a smaller path than the one that is reported. -/
theorem exists_least {fs : List (Path × Failure)} (h : fs ≠ []) :
    ∃ f ∈ fs, firstFailure? fs = some f.2 ∧ ∀ g ∈ fs, (Path.order f.1 g.1).isLE = true := by
  obtain ⟨front, f, back, rfl, hfirst, hfront, hback⟩ := exists_firstFailure? h
  refine ⟨f, List.mem_append_right front List.mem_cons_self, hfirst, ?_⟩
  refine List.forall_mem_append.mpr ⟨fun g hg => ?_, List.forall_mem_cons.mpr
    ⟨Std.ReflCmp.isLE_rfl, hback⟩⟩
  rw [hfront g hg]
  rfl

/-- Of failures with different paths, the order does not show in which one is reported. -/
theorem firstFailure?_perm {fs gs : List (Path × Failure)} (hperm : fs.Perm gs)
    (hdiffer : PathsDiffer Prod.fst fs) : firstFailure? fs = firstFailure? gs := by
  by_cases hnil : fs = []
  · rw [hnil] at hperm ⊢
    rw [hperm.nil_eq]
  · have hgs : gs ≠ [] := fun h => hnil (by rw [h] at hperm; exact hperm.eq_nil)
    obtain ⟨f, hf, hfirst, hleast⟩ := exists_least hnil
    obtain ⟨g, hg, hfirst', hleast'⟩ := exists_least hgs
    have hsame : Path.same f.1 g.1 = true := Path.order_eq_eq_iff.mp
      (Std.OrientedCmp.isLE_antisymm (hleast g (hperm.mem_iff.mpr hg))
        (hleast' f (hperm.mem_iff.mp hf)))
    have heq := hdiffer.eq_of_same hf (hperm.mem_iff.mpr hg) hsame
    rw [hfirst, hfirst', heq]

/-! ### The files of a manifest -/

/-- The path of a file. -/
def Work.path : Work → Path
  | .source u => u.path
  | .test t _ => t.path

namespace Manifest

/-- No two files, source or test, have paths with the same components. -/
def HasDistinctPaths (m : Manifest) : Prop :=
  PathsDiffer id (m.sources.map SourceUnit.path ++ m.tests.map TestUnit.path)

instance (m : Manifest) : Decidable m.HasDistinctPaths :=
  inferInstanceAs (Decidable (PathsDiffer _ _))

/-- The source file with the path that a test file gives for it. -/
def paired? (m : Manifest) (t : TestUnit) : Option SourceUnit :=
  t.pairedSource?.bind fun p => m.sources.find? fun s => Path.same s.path p

/-- The files, each test file with its source file. -/
def files (m : Manifest) : List Work :=
  m.sources.map .source ++ m.tests.map fun t => .test t (m.paired? t)

variable {m m' : Manifest}

private theorem HasDistinctPaths.sources (h : m.HasDistinctPaths) :
    PathsDiffer SourceUnit.path m.sources :=
  List.pairwise_map.mp (List.pairwise_append.mp h).1

private theorem HasDistinctPaths.files (h : m.HasDistinctPaths) :
    PathsDiffer Work.path m.files := by
  have hpaths : m.files.map Work.path
      = m.sources.map SourceUnit.path ++ m.tests.map TestUnit.path := by
    rw [Manifest.files, List.map_append, List.map_map, List.map_map]
    rfl
  rw [HasDistinctPaths, ← hpaths] at h
  exact List.pairwise_map.mp h

/-- The files of a run are those of the manifest. -/
theorem HasDistinctPaths.ofUnits_eq (h : m.HasDistinctPaths) :
    Work.ofUnits m.sources m.tests = m.files := by
  have hat : Work.sourceAt? m.sources = fun p => m.sources.find? fun s => Path.same s.path p := by
    funext p
    rw [Work.sourceAt?, h.sources.filter_same p]
    cases m.sources.find? fun s => Path.same s.path p <;> rfl
  rw [Work.ofUnits, hat]
  rfl

variable (hsources : m'.sources.Perm m.sources) (htests : m'.tests.Perm m.tests)

include hsources htests

private theorem HasDistinctPaths.perm (h : m.HasDistinctPaths) : m'.HasDistinctPaths :=
  PathsDiffer.perm h ((hsources.map _).append (htests.map _)).symm

/-- Permuted manifests have the same files. -/
theorem HasDistinctPaths.files_perm (h : m.HasDistinctPaths) : m'.files.Perm m.files := by
  have hpaired : m'.paired? = m.paired? := by
    funext t
    unfold paired?
    congr 1
    funext p
    exact (h.sources.find?_perm hsources.symm p).symm
  rw [Manifest.files, Manifest.files, hpaired]
  exact (hsources.map _).append (htests.map _)

end Manifest

/-! ### The report of a run -/

namespace Engine

variable {e : Engine} {m : Manifest}

/-- What is found in a file by itself; in one that fails, nothing. -/
def findings (e : Engine) : Work → List Diagnostic
  | .source u => (validateUnit e.settings u).toOption.getD []
  | .test t source? => e.layout.validate t source?

private theorem diagnostics_outcome (w : Work) : (e.outcome w).diagnostics = e.findings w := by
  cases w with
  | source u =>
    rw [outcome, Work.check, findings]
    cases validateUnit e.settings u <;> rfl
  | test t source? => rfl

private theorem file_of_mem_findings {w : Work} {d : Diagnostic} (h : d ∈ e.findings w) :
    d.file = w.path := by
  cases w with
  | source u =>
    rw [findings] at h
    cases hu : validateUnit e.settings u with
    | error cause =>
      rw [hu] at h
      cases h
    | ok ds =>
      rw [hu] at h
      exact file_of_mem_validateUnit hu h
  | test t source? => exact TestLayout.file_of_mem_validate h

private theorem path_of_failure {w : Work} {f : Path × Failure}
    (h : (e.outcome w).failure? = some f) : f.1 = w.path := by
  cases w with
  | source u =>
    rw [outcome, Work.check] at h
    cases hu : validateUnit e.settings u with
    | error cause =>
      rw [hu] at h
      cases h
      rfl
    | ok ds =>
      rw [hu] at h
      cases h
  | test t source? => cases h

/-- Files whose symbols are all declared in them are checked. -/
theorem outcome_eq_checked (hplaced : ∀ u ∈ m.sources, u.misplaced? = none) {w : Work}
    (hw : w ∈ m.files) : e.outcome w = .checked (e.findings w) := by
  rcases List.mem_append.mp hw with hw | hw
  · obtain ⟨u, hu, rfl⟩ := List.mem_map.mp hw
    obtain ⟨ds, hds⟩ := exists_validateUnit e.settings (hplaced u hu)
    rw [outcome, Work.check, findings, hds]
    rfl
  · obtain ⟨t, -, rfl⟩ := List.mem_map.mp hw
    rfl

variable {us vs : List Work}

/-- The order of files with different paths shows neither in the report nor in a failure. -/
theorem reportOf_perm (strict : Bool) (hperm : us.Perm vs) (hdiffer : PathsDiffer Work.path us) :
    reportOf strict (us.map e.outcome) = reportOf strict (vs.map e.outcome) := by
  have houtcomes : (us.map e.outcome).Perm (vs.map e.outcome) := hperm.map e.outcome
  have hfailures : PathsDiffer Prod.fst ((us.map e.outcome).filterMap Outcome.failure?) := by
    rw [List.filterMap_map]
    refine List.pairwise_filterMap.mpr (List.Pairwise.imp (fun huv f hf g hg => ?_) hdiffer)
    rw [path_of_failure hf, path_of_failure hg, huv]
  have hfindings : ∀ ws : List Work,
      (ws.map e.outcome).flatMap Outcome.diagnostics = ws.flatMap e.findings := by
    intro ws
    rw [List.flatMap_map]
    exact List.flatMap_congr fun w _ => diagnostics_outcome w
  unfold reportOf
  rw [firstFailure?_perm (houtcomes.filterMap _) hfailures, houtcomes.any_eq,
    houtcomes.countP_eq, hfindings, hfindings,
    Report.assemble_perm _ _ _ (fun _ _ => file_of_mem_findings) hperm hdiffer]

private theorem reportOf_eq_ok (strict : Bool)
    (h : ∀ w ∈ us, e.outcome w = .checked (e.findings w)) : reportOf strict (us.map e.outcome)
      = .ok (Report.assemble strict true us.length (us.flatMap e.findings)) := by
  rw [List.map_congr_left h]
  have hfailures : (us.map fun w => Outcome.checked (e.findings w)).filterMap Outcome.failure?
      = [] := by simp [Outcome.failure?]
  have hskipped : (us.map fun w => Outcome.checked (e.findings w)).any Outcome.isSkipped
      = false := by simp [Outcome.isSkipped]
  have hchecked : (us.map fun w => Outcome.checked (e.findings w)).countP Outcome.isChecked
      = us.length := by simp [List.countP_map, Outcome.isChecked, Function.comp_def]
  rw [reportOf, hfailures, hskipped, hchecked, List.flatMap_map]
  rfl

/-- Files with different paths can be put in the order of their paths. -/
theorem exists_ascending (hdiffer : PathsDiffer Work.path us) : ∃ vs : List Work, vs.Perm us
    ∧ vs.Pairwise fun v w => Path.order v.path w.path = .lt := by
  have hperm := List.mergeSort_perm us fun v w => (Path.order v.path w.path).isLE
  have horder : InOrder (fun v w : Work => Path.order v.path w.path)
      (us.mergeSort fun v w => (Path.order v.path w.path).isLE) := inOrder_mergeSort us
  refine ⟨_, hperm, ?_⟩
  refine List.Pairwise.imp₂ (fun _ _ hle hne => ?_) horder (hdiffer.perm hperm.symm)
  rcases Ordering.isLE_iff_eq_lt_or_eq_eq.mp hle with hlt | heq
  · exact hlt
  · rw [Path.order_eq_eq_iff, hne] at heq
    cases heq

end Engine

/-- The report lists the findings file by file in the order of the paths, each file's as a report
about it alone does, and it passes when none of them is an error. -/
structure Report.IsByFile (r : Report) (e : Engine) (m : Manifest) : Prop where
  listed : ∃ files : List Work, files.Perm m.files
    ∧ files.Pairwise (fun v w => Path.order v.path w.path = .lt)
    ∧ r.diagnostics = files.flatMap fun w =>
      (Report.assemble e.settings.strictMode true 1 (e.findings w)).diagnostics
  passed : r.passed = true ↔ ∀ d ∈ r.diagnostics, d.isError = false
  complete : r.complete = true
  unitsChecked : r.unitsChecked = m.sources.length + m.tests.length

namespace Engine

variable {e : Engine} {m : Manifest}

private theorem run_of_withoutCache (hcache : e.cache? = none) (tree : FileTree) (now : Instant)
    (hm : m.HasDistinctPaths) :
    (e.run tree now false m).2.2 = reportOf e.settings.strictMode (m.files.map e.outcome) := by
  have hplain : e.withoutCache = e := by rw [withoutCache, ← hcache]
  rw [← hm.ofUnits_eq, ← run_withoutCache tree now m, hplain]

/-- Without a cache the files of a run may be processed in any order. -/
theorem runBy_of_withoutCache (hcache : e.cache? = none) (hm : m.HasDistinctPaths)
    {turns : Schedule} (hturns : turns.IsFor (m.sources.length + m.tests.length))
    (tree : FileTree) :
    (e.runBy tree turns m).2.2 = reportOf e.settings.strictMode (m.files.map e.outcome) := by
  have hturn : ∀ state : RunState, state.cache? = none →
      ∀ w ∈ Work.ofUnits m.sources m.tests, ∀ now,
        (e.process now state w).1.cache? = none ∧ (e.process now state w).2 = e.outcome w := by
    intro state hnone w _ now
    unfold process
    rw [hnone]
    exact ⟨hnone, rfl⟩
  have hlength : (Work.ofUnits m.sources m.tests).length = m.sources.length + m.tests.length := by
    simp [Work.ofUnits]
  rw [← hlength] at hturns
  rw [← hm.ofUnits_eq]
  exact runBy_eq hturn hturns hcache

/-- A run without a cache over files with different paths reports file by file if every symbol is
declared in its file, and it reports the same or fails the same for the files in any order, and in
whatever order they are processed. -/
theorem run_independent (hcache : e.cache? = none) (hm : m.HasDistinctPaths) (tree : FileTree)
    (now : Instant) :
    ((∀ u ∈ m.sources, u.misplaced? = none) →
        ∃ r, (e.run tree now false m).2.2 = .ok r ∧ r.IsByFile e m)
      ∧ (∀ m' : Manifest, m'.sources.Perm m.sources → m'.tests.Perm m.tests →
        (e.run tree now false m').2.2 = (e.run tree now false m).2.2)
      ∧ ∀ turns : Schedule, turns.IsFor (m.sources.length + m.tests.length) →
        (e.runBy tree turns m).2.2 = (e.run tree now false m).2.2 := by
  have hdiffer := hm.files
  refine ⟨?_, ?_, ?_⟩
  · intro hplaced
    obtain ⟨files, hperm, hascending⟩ := exists_ascending hdiffer
    have hchecked : ∀ w ∈ files, e.outcome w = .checked (e.findings w) := fun w hw =>
      outcome_eq_checked hplaced (hperm.mem_iff.mp hw)
    refine ⟨Report.assemble e.settings.strictMode true files.length (files.flatMap e.findings), ?_,
      ⟨files, hperm, hascending, ?_⟩, ?_, rfl, ?_⟩
    · rw [run_of_withoutCache hcache tree now hm, reportOf_perm _ hperm.symm hdiffer,
        reportOf_eq_ok _ hchecked]
    · exact Report.diagnostics_assemble_flatMap _ _ _ _ _ (fun _ _ => file_of_mem_findings)
        hascending
    · simp [Report.assemble]
    · change files.length = _
      rw [hperm.length_eq, Manifest.files]
      simp
  · intro m' hsources htests
    rw [run_of_withoutCache hcache tree now hm,
      run_of_withoutCache hcache tree now (hm.perm hsources htests)]
    have hperm := hm.files_perm hsources htests
    exact (reportOf_perm _ hperm.symm hdiffer).symm
  · intro turns hturns
    rw [run_of_withoutCache hcache tree now hm, runBy_of_withoutCache hcache hm hturns tree]

/-- Two source files, not in the order of their paths, and a test file that spells the path of its
source file in another way. -/
def unsortedExample : Manifest where
  sources :=
    [{ path := "src/b.ts", text := "f()\n/** Adds. */\nadd()", language := .typescript
       symbols := [{ kind := .function, name := "f", isExported := true, declarationLine := 1 },
         { kind := .function, name := "add", isExported := true, declarationLine := 3 }] },
     { path := "src/a.ts", text := "g()", language := .typescript
       symbols := [{ kind := .function, name := "g", isExported := true, declarationLine := 1 }] }]
  tests :=
    [{ path := "src/a.test.ts", text := "describe('g', () => \x7b\x7d)", language := .typescript
       pairedSource? := some "src//a.ts" }]

/-- The example is reported file by file. -/
theorem run_unsortedExample : ∃ e, Engine.create (.empty []) {} = (.empty [], .ok e)
    ∧ e.cache? = none ∧ unsortedExample.HasDistinctPaths
    ∧ (∀ u ∈ unsortedExample.sources, u.misplaced? = none)
    ∧ ∀ now, ∃ r, (e.run (.empty []) now false unsortedExample).2.2 = .ok r
      ∧ r.IsByFile e unsortedExample := by
  have hmade : (Engine.withCache {} none).toBool = true := by decide +kernel
  cases hwith : Engine.withCache {} none with
  | error cause =>
    rw [hwith] at hmade
    cases hmade
  | ok e =>
    have hcache := (withCache_eq_ok hwith).2
    have hplaced : ∀ u ∈ unsortedExample.sources, u.misplaced? = none := by decide
    have hdistinct : unsortedExample.HasDistinctPaths := by decide
    refine ⟨e, ?_, hcache, hdistinct, hplaced, fun now => ?_⟩
    · rw [create, ← hwith]
      rfl
    · exact (run_independent hcache hdistinct (.empty []) now).1 hplaced

end Engine

end DocContract
