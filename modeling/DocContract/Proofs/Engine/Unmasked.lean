import DocContract.Proofs.Cache.Refinement
import DocContract.Proofs.Engine.Site
import DocContract.Proofs.Engine.Transparent
import DocContract.Proofs.Engine.Violation
import DocContract.Proofs.Settings.Covered

/-!
# When a cache masks no violation

What is kept in a cache was found in a file without a violation. So a cache can mask a violation
only where a file with one has the key text of a file without one. Under the same options that is
impossible for paths without NUL characters. Engines with different options that share a directory
can be confused, though, since a flow pattern may hold a NUL character.
-/

namespace DocContract

open Text

namespace Scope

variable {k : Scope}

/-- Source files of the scope with one key text, under whichever of its options, either all have a
violation or all have none. -/
def KeysDecideViolations (k : Scope) : Prop :=
  ∀ s s' u v, k.Accepts s → k.Accepts s' → k.sources u → k.sources v →
    CacheKey.sourceText s.fingerprint u = CacheKey.sourceText s'.fingerprint v →
      (u.IsMisplaced ↔ v.IsMisplaced)

/-- What is taken for granted: digests of different key texts differ, and findings that are kept in
files read back as they were written. -/
structure Assumptions (k : Scope) : Prop where
  noCollisions : ∀ s s' w w', k.Accepts s → k.Accepts s' → k.Has w → k.Has w' →
    CacheKey.ofText (w.keyText s.fingerprint) = .ofText (w'.keyText s'.fingerprint) →
      w.keyText s.fingerprint = w'.keyText s'.fingerprint
  readsBack : ∀ s u ds, k.Accepts s → k.sources u → validateUnit s u = .ok ds →
    ∀ now, ResultCache.ReadsBack ⟨ds, now⟩

/-! ### Nothing is masked -/

/-- The key is that of a file of the scope without a violation, under some of its options. -/
def Keys (k : Scope) (key : CacheKey) : Prop :=
  ∃ s w, k.Accepts s ∧ k.Has w ∧ w.violation? = none ∧ key = .ofText (w.keyText s.fingerprint)

/-- Findings come only from files without a violation. -/
theorem feeds_keys (k : Scope) : k.Feeds k.Keys := by
  intro e he w hw ds hcheck
  refine ⟨e.settings, w, he, hw, ?_, rfl⟩
  have haccords := (e.accords_outcome w).failure?
  rw [hcheck] at haccords
  exact haccords.symm

/-- When keys tell files with a violation from files without one, an answer of the cache accords
with the file. -/
theorem Assumptions.accords (hk : k.Assumptions) (hplace : k.KeysDecideViolations) {e : Engine}
    (he : k.Accepts e.settings) {w : Work} (hw : k.Has w) {o : Outcome}
    (ho : e.Answers k.Keys w o) : Outcome.Accords w o := by
  rcases ho with rfl | ⟨⟨s, w', hs, hw', hnone, hkey⟩, ds, rfl⟩
  · exact e.accords_outcome w
  · have htext := hk.noCollisions e.settings s w w' he hs hw hw' hkey
    cases w with
    | test t source? => exact Outcome.accords_checked rfl ds
    | source u =>
      cases w' with
      | test t source? => exact absurd htext (CacheKey.sourceText_ne_testText u t source?)
      | source v =>
        rw [SourceUnit.violation?_eq_none] at hnone
        have hu := mt (hplace _ _ u v he hs hw hw' htext).mp hnone
        exact Outcome.accords_checked (SourceUnit.violation?_eq_none.mpr hu) ds

end Scope

private theorem Site.Keeps.isVerdict {k : Scope} {x : Site} (h : x.Keeps k k.Keys)
    (hk : k.Assumptions) (hplace : k.KeysDecideViolations) {e : Engine} (he : e ∈ x.engines)
    {m : Manifest} (hm : k.Covers m) {turns : Schedule}
    (hturns : turns.IsFor (Work.ofUnits m.sources m.tests).length) :
    m.IsVerdict (e.runBy x.tree turns m).2.2 := by
  have hturn : ∀ state, e.Keeps k.Keys state → ∀ w ∈ Work.ofUnits m.sources m.tests, ∀ now,
      e.Keeps k.Keys (e.process now state w).1
        ∧ Outcome.Accords w (e.process now state w).2 := by
    intro state hstate w hw now
    obtain ⟨hafter, hanswer⟩ := h.process k.feeds_keys he hm state hstate w hw now
    exact ⟨hafter, hk.accords hplace (h.accepts e he) (hm.has w hw) hanswer⟩
  obtain ⟨outs, houts, hreport⟩ := Engine.runBy_induction hturn hturns (h.engines e he)
  rw [hreport]
  exact isVerdict_reportOf e.settings.strictMode houts

/-! ### A shared directory -/

namespace Settings

/-- The settings with the cache of `CacheSession.filedSettings`, whose directory `madeTree` has. -/
def filed (s : Settings) : Settings := { s with cache := CacheSession.filedSettings.cache }

/-- The empty cache for these options with that directory. -/
def filedCache (s : Settings) : ResultCache :=
  { ResultCache.inMemory s with dir? := some "d" }

end Settings

namespace Site

open CacheSession (madeTree)

variable {s s' : Settings} {u v : SourceUnit}

private theorem entriesBelong_madeTree : madeTree.EntriesBelong fun _ => False := by
  intro d key t _ hnode _
  rw [FileTree.node?, CacheSession.nodes_madeTree] at hnode
  have hdirectory := mem_of_lookup hnode
  simp at hdirectory

/-- Where the directory is, an engine with valid options is made with an empty cache. -/
theorem exists_create_filed (h : s.defect? = none) {tree : FileTree}
    (htree : madeTree.DirectoriesWithin tree) : ∃ layout,
      Engine.create tree s.filed = (tree, .ok ⟨s.filed, layout, some s.filedCache⟩) := by
  have hvalid : s.filed.validated = .ok s.filed := by
    have hdefect : s.filed.defect? = none := h
    rw [Settings.validated, hdefect]
  obtain ⟨layout, hlayout, -⟩ := Settings.layout_of_validated hvalid
  have hopen : ResultCache.openIn (.empty []) s.filed = (madeTree, .ok s.filedCache) := rfl
  refine ⟨layout, ?_⟩
  unfold Engine.create
  rw [if_pos (show s.filed.cache.enabled = true from rfl), ResultCache.openIn_again hopen htree]
  simp only [Engine.withCache, hvalid, hlayout]

private theorem stored?_filed {key : CacheKey} (hk : key.IsDigest) :
    s.filedCache.stored? madeTree key = none := by
  have hdir : s.filedCache.dir? = CacheSession.filedCache.dir? := rfl
  rw [ResultCache.stored?_congr hdir, CacheSession.stored?_filedCache key hk]

/-- An entry can be written into the directory. -/
theorem stored?_persist_filed {key : CacheKey} (hk : key.IsDigest) {entry : CacheEntry}
    (hread : ResultCache.ReadsBack entry) :
    s'.filedCache.stored? (s.filedCache.persist madeTree key entry) key = some entry := by
  have hwrite : s.filedCache.canPersist madeTree key entry = true := by
    have hlocate : madeTree.locate (Path.append "d" key.fileName)
        = .ok ([['d']] ++ [key.fileName]) :=
      (FileTree.locate_eq_ok hk.isFileName).mpr ⟨_, CacheSession.directory?_madeTree, rfl⟩
    have hfile : s.filedCache.entryPath? key = some (Path.append "d" key.fileName) := rfl
    rw [ResultCache.canPersist, hfile]
    simp only [FileTree.write, hlocate, CacheSession.node?_madeTree]
    rfl
  have hstored := ResultCache.stored?_persist_eq (c := s.filedCache) hk hk hread rfl hwrite
  rw [if_pos rfl] at hstored
  have hdir : s'.filedCache.dir? = s.filedCache.dir? := rfl
  rw [ResultCache.stored?_congr hdir, hstored]

/-- An engine is made and takes a turn on a source file, then an engine with other options is
made. -/
def masking (s s' : Settings) (u : SourceUnit) (time : Instant) : List Request :=
  [.create s.filed, .run 0 ⟨[u], []⟩ [⟨0, time⟩], .create s'.filed]

/-- The site after these requests. -/
def maskingSite (s s' : Settings) (u : SourceUnit) (time : Instant) : Site :=
  (Site.mk [] madeTree).after (masking s s' u time)

/-- The first engine leaves what it found in the file of the key, and the second one has nothing in
memory. -/
theorem maskingSite_eq (hs : s.defect? = none) (hs' : s'.defect? = none) {ds : List Diagnostic}
    (hds : validateUnit s.filed u = .ok ds) (time : Instant) : ∃ e layout,
      maskingSite s s' u time
        = ⟨[e, ⟨s'.filed, layout, some s'.filedCache⟩],
          s.filedCache.persist madeTree (s.filedCache.sourceKey u) ⟨ds, time⟩⟩ := by
  obtain ⟨layout, hcreate⟩ := exists_create_filed hs (.refl madeTree)
  let e : Engine := ⟨s.filed, layout, some s.filedCache⟩
  let state : RunState := (e.process time ⟨e.cache?, madeTree⟩ (.source u)).1
  have hdigest : (s.filedCache.sourceKey u).IsDigest := ⟨_, rfl⟩
  have htree : state.tree
      = s.filedCache.persist madeTree (s.filedCache.sourceKey u) ⟨ds, time⟩ :=
    (e.process_fresh (w := .source u) rfl rfl (stored?_filed hdigest) (Engine.outcome_source hds)
      time).2.1
  have hwithin : madeTree.DirectoriesWithin state.tree := by
    rw [htree]
    exact ResultCache.directoriesWithin_persist hdigest _
  obtain ⟨layout', hcreate'⟩ := exists_create_filed hs' hwithin
  have hfirst : (Site.mk [] madeTree).step (.create s.filed) = ⟨[e], madeTree⟩ := by
    rw [step, hcreate]
    rfl
  have hrun : (Site.mk [e] madeTree).step (.run 0 ⟨[u], []⟩ [⟨0, time⟩])
      = ⟨[{ e with cache? := state.cache? }], state.tree⟩ := rfl
  refine ⟨{ e with cache? := state.cache? }, layout', ?_⟩
  rw [maskingSite, after, masking, List.foldl_cons, hfirst, List.foldl_cons, hrun, List.foldl_cons,
    List.foldl_nil, step, hcreate', ← htree]
  rfl

/-- When two source files have the same key text under two options, and the first has no violation,
a run over the second after one over the first does not fail. -/
theorem exists_masked (hs : s.defect? = none) (hs' : s'.defect? = none)
    (hkey : CacheKey.sourceText s.fingerprint u = CacheKey.sourceText s'.fingerprint v)
    (hu : ¬ u.IsMisplaced)
    (hread : ∀ ds, validateUnit s.filed u = .ok ds → ∀ now, ResultCache.ReadsBack ⟨ds, now⟩)
    {time : Instant} (hfresh : ∀ ds, CacheEntry.isFresh v.modified? ⟨ds, time⟩ = true)
    (now : Instant) :
    ∃ e ∈ (maskingSite s s' u time).engines, ∃ r,
      (e.run (maskingSite s s' u time).tree now false ⟨[v], []⟩).2.2 = .ok r := by
  obtain ⟨ds, hds⟩ :=
    exists_validateUnit s.filed (not_not.mp (mt SourceUnit.isMisplaced_iff.mpr hu))
  obtain ⟨first, layout, hsite⟩ := maskingSite_eq hs hs' hds time
  let e : Engine := ⟨s'.filed, layout, some s'.filedCache⟩
  let state : RunState := ⟨some s'.filedCache,
    s.filedCache.persist madeTree (s.filedCache.sourceKey u) ⟨ds, time⟩⟩
  have hcache : state.cache? = some s'.filedCache := rfl
  have hsame : Work.key s'.filedCache (.source v) = s.filedCache.sourceKey u :=
    congrArg CacheKey.ofText hkey.symm
  have hstored : s'.filedCache.stored? state.tree (Work.key s'.filedCache (.source v))
      = some ⟨ds, time⟩ := by
    rw [hsame]
    exact stored?_persist_filed (s := s) ⟨_, rfl⟩ (hread ds hds time)
  have hanswer : (s'.filedCache.get state.tree (Work.key s'.filedCache (.source v))
      (Work.modified? (.source v))).2 = some ds := ResultCache.get_of_stored rfl hstored (hfresh ds)
  have hturn := Engine.process_known (e := e) hcache hanswer now
  rw [hsite]
  refine ⟨e, List.mem_cons_of_mem _ List.mem_cons_self,
    Report.assemble s'.strictMode true 1 ds, ?_⟩
  rw [← Engine.reportOf_checked, ← hturn]
  rfl

end Site

/-! ### Exactly when -/

/-- Every run over the files of a manifest that is not cancelled answers as it has to, also when the
files are processed in another order. -/
def Engine.Judges (e : Engine) (tree : FileTree) (m : Manifest) : Prop :=
  (∀ now, m.IsVerdict (e.run tree now false m).2.2)
    ∧ ∀ turns : Schedule, turns.IsFor (Work.ofUnits m.sources m.tests).length →
      m.IsVerdict (e.runBy tree turns m).2.2

namespace Scope

variable {k : Scope}

private theorem Accepts.filed {s : Settings} (h : k.Accepts s) : k.Accepts s.filed := ⟨h.1, h.2⟩

/-- Some time at which findings are computed counts for a file. -/
theorem exists_isFresh (v : SourceUnit) :
    ∃ time, ∀ ds, CacheEntry.isFresh v.modified? ⟨ds, time⟩ = true :=
  ⟨v.modified?.getD CacheSession.newYear, fun ds => CacheEntry.isFresh_getD ds v.modified? _⟩

/-- A file with the key text of a file without a violation has none either if a run over it answers
as it has to after one over the other file. -/
theorem not_isMisplaced_of_judges (hk : k.Assumptions) {s s' : Settings} {u v : SourceUnit}
    (hs : k.Accepts s) (hs' : k.Accepts s') (hu : k.sources u)
    (hkey : CacheKey.sourceText s.fingerprint u = CacheKey.sourceText s'.fingerprint v)
    (h : ∀ time, ∀ e ∈ (Site.maskingSite s s' u time).engines,
      e.Judges (Site.maskingSite s s' u time).tree ⟨[v], []⟩)
    (hplaced : ¬ u.IsMisplaced) : ¬ v.IsMisplaced := by
  obtain ⟨time, hfresh⟩ := exists_isFresh v
  have hread := fun ds => hk.readsBack s.filed u ds hs.filed hu
  obtain ⟨e, he, r, hr⟩ :=
    Site.exists_masked hs.2 hs'.2 hkey hplaced hread hfresh CacheSession.newYear
  have hverdict := (h time e he).1 CacheSession.newYear
  rw [hr] at hverdict
  exact hverdict.1 v List.mem_cons_self

private theorem allows_masking {s s' : Settings} {u : SourceUnit} (hs : k.Accepts s)
    (hs' : k.Accepts s')
    (hu : k.sources u) (time : Instant) : ∀ r ∈ Site.masking s s' u time, k.Allows r := by
  simp only [Site.masking, List.forall_mem_cons]
  exact ⟨hs.1, ⟨List.forall_mem_singleton.mpr hu, List.forall_mem_nil _⟩, hs'.1,
    List.forall_mem_nil _⟩

/-- Keys tell violations apart when paths hold no NUL character, and neither do the options, unless
they are the same for all engines. -/
theorem keysDecideViolations_of_nulFree (hpaths : ∀ u, k.sources u → NulFree u.path)
    (hoptions : ∀ s s', k.Accepts s → k.Accepts s' →
      s.fingerprint = s'.fingerprint ∨ s.IsNulFree ∧ s'.IsNulFree) : k.KeysDecideViolations := by
  intro s s' u v hs hs' hu hv hkey
  have hfingerprint : s.fingerprint = s'.fingerprint := by
    rcases hoptions s s' hs hs' with heq | ⟨hfree, hfree'⟩
    · exact heq
    · exact CacheKey.fingerprint_eq_of_sourceText hfree hfree' hkey
  rw [hfingerprint] at hkey
  obtain ⟨-, htext, hsymbols⟩ := CacheKey.sourceText_inj (hpaths u hu) (hpaths v hv) hkey
  unfold SourceUnit.IsMisplaced SourceUnit.IsOutside SourceUnit.lineCount
  rw [htext, hsymbols]

/-- Let engines with options of the scope be made, and let them run over files of the scope, where
at first no file holds an entry. Every later run over files of the scope that is not cancelled
answers as it has to, whatever their caches hold by then, exactly when no file with a violation has
the key text of a file without one. -/
theorem judges_iff (hk : k.Assumptions) :
    (∀ tree : FileTree, (tree.EntriesBelong fun _ => False) →
      ∀ requests, (∀ r ∈ requests, k.Allows r) →
        ∀ e ∈ ((Site.mk [] tree).after requests).engines, ∀ m, k.Covers m →
          e.Judges ((Site.mk [] tree).after requests).tree m)
      ↔ k.KeysDecideViolations := by
  constructor
  · intro h
    have hnone : ∀ s s' u v, k.Accepts s → k.Accepts s' → k.sources u → k.sources v →
        CacheKey.sourceText s.fingerprint u = CacheKey.sourceText s'.fingerprint v →
          ¬ u.IsMisplaced → ¬ v.IsMisplaced := by
      intro s s' u v hs hs' hu hv hkey
      refine not_isMisplaced_of_judges hk hs hs' hu hkey fun time e he => ?_
      exact h _ Site.entriesBelong_madeTree _ (allows_masking hs hs' hu time) e he _
        ⟨List.forall_mem_singleton.mpr hv, List.forall_mem_nil _⟩
    intro s s' u v hs hs' hu hv hkey
    exact not_iff_not.mp
      ⟨hnone s s' u v hs hs' hu hv hkey, hnone s' s v u hs' hs hv hu hkey.symm⟩
  · intro hplace tree htree requests hrequests e he m hm
    have hkeeps := (Site.keeps_of_empty htree).after k.feeds_keys hrequests
    refine ⟨fun now => ?_, fun turns hturns => hkeeps.isVerdict hk hplace he hm hturns⟩
    rw [← Engine.runBy_inOrder]
    exact hkeeps.isVerdict hk hplace he hm (Schedule.isFor_inOrder _ now)

/-- Few options, and a flow pattern. -/
def patternSettings (pattern : Text) : Settings where
  extraTags := []
  tests := { dbSetupKeywords := [], negativeCaseKeywords := [], flowFilePattern := pattern }

/-- A function on the only line of a file. The line ends with a NUL character. -/
def placedExample : SourceUnit where
  path := "B"
  text := "p\x00"
  language := .typescript
  symbols := [{ kind := .function, name := "f", declarationLine := 1 }]

/-- The same function in an empty file. -/
def outsideExample : SourceUnit where
  path := "p"
  text := []
  language := .typescript
  symbols := [{ kind := .function, name := "f", declarationLine := 1 }]

/-- These two files under options with some flow patterns. -/
def patternScope (patterns : List Text) : Scope where
  sources u := u = placedExample ∨ u = outsideExample
  tests _ := False
  options s := ∃ pattern ∈ patterns, s = patternSettings pattern

private theorem not_isMisplaced_placedExample : ¬ placedExample.IsMisplaced := by
  rw [SourceUnit.isMisplaced_iff, not_not]
  decide

private theorem isMisplaced_outsideExample : outsideExample.IsMisplaced := by
  rw [SourceUnit.isMisplaced_iff]
  decide

private theorem nulFree_path_patternScope {patterns : List Text} :
    ∀ u, (patternScope patterns).sources u → NulFree u.path := by
  rintro u (rfl | rfl) <;> decide

/-- With one pattern there is one fingerprint. -/
theorem fingerprint_of_accepts {pattern : Text} {s : Settings}
    (hs : (patternScope [pattern]).Accepts s) :
    s.fingerprint = (patternSettings pattern).fingerprint := by
  obtain ⟨⟨pattern', hpattern, hs⟩, -⟩ := hs
  rw [List.mem_singleton.mp hpattern] at hs
  rw [← hs]
  rfl

/-- The pattern does not matter for source files. -/
theorem validateUnit_placedExample {patterns : List Text} {s : Settings}
    (hs : (patternScope patterns).Accepts s) : validateUnit s placedExample = .ok [] := by
  obtain ⟨⟨pattern, -, hs⟩, -⟩ := hs
  have hread : s.uncached.ReadsAlike (patternSettings "x") := by
    rw [hs]
    exact ⟨rfl, rfl, rfl, fun _ _ => rfl⟩
  have hsame : s.ReadsAlike (patternSettings "x") :=
    ⟨hread.requireInternalDocs, hread.markerConvention, hread.maxTagDepth, hread.ignores⟩
  rw [validateUnit_congr hsame]
  decide +kernel

private theorem readsBack_patternScope {patterns : List Text} {s : Settings}
    (hs : (patternScope patterns).Accepts s) {u : SourceUnit}
    (hu : (patternScope patterns).sources u) {ds : List Diagnostic}
    (hds : validateUnit s u = .ok ds) (now : Instant) : ResultCache.ReadsBack ⟨ds, now⟩ := by
  rcases hu with rfl | rfl
  · rw [validateUnit_placedExample hs] at hds
    cases hds
    exact CacheEntry.ofText?_compact (List.forall_mem_nil _)
  · obtain ⟨f, hf⟩ := Option.ne_none_iff_exists'.mp
      (SourceUnit.isMisplaced_iff.mp isMisplaced_outsideExample)
    rw [validateUnit, SourceUnit.extract_of_misplaced hf] at hds
    cases hds

private theorem assumptions_patternScope : (patternScope ["x"]).Assumptions := by
  have hdiffer :
      CacheKey.ofText (CacheKey.sourceText (patternSettings "x").fingerprint placedExample)
        ≠ .ofText (CacheKey.sourceText (patternSettings "x").fingerprint outsideExample) := by
    decide +kernel
  refine ⟨fun s s' w w' hs hs' hw hw' hkey => ?_, fun s u ds hs hu hds now => ?_⟩
  · rw [fingerprint_of_accepts hs, fingerprint_of_accepts hs'] at hkey ⊢
    cases w with
    | test t source? => exact hw.1.elim
    | source u =>
      cases w' with
      | test t source? => exact hw'.1.elim
      | source v =>
        rcases hw with rfl | rfl <;> rcases hw' with rfl | rfl
        · rfl
        · exact absurd hkey hdiffer
        · exact absurd hkey.symm hdiffer
        · rfl
  · exact readsBack_patternScope hs hu hds now

/-- The requests to two engines with these flow patterns and one directory: the first takes a turn
on the file that can be checked. -/
def patternRequests (pattern pattern' : Text) : List Request :=
  Site.masking (patternSettings pattern) (patternSettings pattern') placedExample
    CacheSession.newYear

/-- The site after these requests. -/
def patternSite (pattern pattern' : Text) : Site :=
  (Site.mk [] CacheSession.madeTree).after (patternRequests pattern pattern')

private theorem defect?_patternSettings : (patternSettings "x").defect? = none := by rfl

private theorem accepts_patternSettings {patterns : List Text} {pattern : Text}
    (h : pattern ∈ patterns)
    (hvalid : (patternSettings pattern).defect? = none) :
    (patternScope patterns).Accepts (patternSettings pattern) := ⟨⟨pattern, h, rfl⟩, hvalid⟩

private theorem length_patternSite : (patternSite "x" "x").engines.length = 2 := by
  have haccepts : (patternScope ["x"]).Accepts (patternSettings "x") :=
    accepts_patternSettings List.mem_cons_self defect?_patternSettings
  obtain ⟨first, layout, hsite⟩ := Site.maskingSite_eq haccepts.2 haccepts.2
    (validateUnit_placedExample haccepts.filed) CacheSession.newYear
  exact congrArg (fun x : Site => x.engines.length) hsite

/-- Of two engines with one flow pattern and one directory, either fails over both files, also after
the one that can be checked was kept. -/
theorem judges_patternSite :
    (patternScope ["x"]).Assumptions ∧ (patternScope ["x"]).KeysDecideViolations
      ∧ (patternSite "x" "x").engines.length = 2
      ∧ ∀ e ∈ (patternSite "x" "x").engines, ∀ now,
        (e.run (patternSite "x" "x").tree now false ⟨[placedExample, outsideExample], []⟩).2.2
          = .error (.symbolOutsideFile "p" "f" 1 0) := by
  have haccepts : (patternScope ["x"]).Accepts (patternSettings "x") :=
    accepts_patternSettings List.mem_cons_self defect?_patternSettings
  have hplace : (patternScope ["x"]).KeysDecideViolations := by
    refine keysDecideViolations_of_nulFree nulFree_path_patternScope fun s s' hs hs' => .inl ?_
    rw [fingerprint_of_accepts hs, fingerprint_of_accepts hs']
  have hcovers : (patternScope ["x"]).Covers ⟨[placedExample, outsideExample], []⟩ :=
    ⟨List.forall_mem_cons.mpr ⟨.inl rfl, List.forall_mem_singleton.mpr (.inr rfl)⟩,
      List.forall_mem_nil _⟩
  refine ⟨assumptions_patternScope, hplace, length_patternSite, fun e he now => ?_⟩
  have hjudges := (judges_iff assumptions_patternScope).mpr hplace _ Site.entriesBelong_madeTree _
    (allows_masking haccepts haccepts (.inl rfl) CacheSession.newYear) e he _ hcovers
  have hverdict := hjudges.1 now
  obtain ⟨cause, hcause⟩ := hverdict.fails_iff.mpr
    ⟨outsideExample, List.mem_cons_of_mem _ List.mem_cons_self, isMisplaced_outsideExample⟩
  rw [hcause] at hverdict
  obtain ⟨u, f, hfirst, rfl⟩ := hverdict
  refine hcause.trans (congrArg Except.error ?_)
  rcases List.mem_pair.mp hfirst.mem_sources with rfl | rfl
  · exact absurd hfirst.isMisplaced not_isMisplaced_placedExample
  · rw [List.mem_singleton.mp hfirst.mem_symbols]
    rfl

/-- When the flow pattern of the second engine holds a NUL character, the key text of the empty file
can be that of the other file under the pattern of the first. The violation is masked. -/
theorem exists_masked_patternSite :
    (∀ u, (patternScope ["x", "x\x00B"]).sources u → NulFree u.path)
      ∧ (∀ r ∈ patternRequests "x" "x\x00B", (patternScope ["x", "x\x00B"]).Allows r)
      ∧ outsideExample.IsMisplaced
      ∧ ∀ now, ∃ e ∈ (patternSite "x" "x\x00B").engines, ∃ r,
        (e.run (patternSite "x" "x\x00B").tree now false ⟨[outsideExample], []⟩).2.2 = .ok r := by
  have haccepts : (patternScope ["x", "x\x00B"]).Accepts (patternSettings "x") :=
    accepts_patternSettings List.mem_cons_self defect?_patternSettings
  have haccepts' : (patternScope ["x", "x\x00B"]).Accepts (patternSettings "x\x00B") :=
    accepts_patternSettings (List.mem_cons_of_mem _ List.mem_cons_self) rfl
  have hkey : CacheKey.sourceText (patternSettings "x").fingerprint placedExample
      = CacheKey.sourceText (patternSettings "x\x00B").fingerprint outsideExample := by
    decide +kernel
  refine ⟨nulFree_path_patternScope, allows_masking haccepts haccepts' (.inl rfl) _,
    isMisplaced_outsideExample, fun now => ?_⟩
  exact Site.exists_masked haccepts.2 haccepts'.2 hkey not_isMisplaced_placedExample
    (fun _ => readsBack_patternScope haccepts.filed (.inl rfl)) (fun _ => rfl) now

end Scope

end DocContract
