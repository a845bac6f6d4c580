import DocContract.Proofs.Engine.Sound

/-!
# When a cache is transparent

A key tells files apart by everything that bears on their findings except for the language. So the
reports of every history are those of an engine without a cache exactly when no two source files of
the corpus with the same path, text and symbols are checked differently, which takes two languages.
-/

namespace DocContract

namespace Engine

variable {e : Engine} {k : Corpus}

/-- What is taken for granted: paths hold no NUL character, digests of different key texts differ,
and findings that are kept in files read back as they were written. -/
structure Assumptions (e : Engine) (k : Corpus) : Prop where
  sourcePaths : ∀ u, k.sources u → NulFree u.path
  testPaths : ∀ t, k.tests t → NulFree t.path
  noCollisions : ∀ v w, k.Has v → k.Has w → e.digest v = e.digest w →
    v.keyText e.settings.fingerprint = w.keyText e.settings.fingerprint
  readsBack : e.ReadsBack k

/-- Source files of the corpus that a key does not tell apart are checked the same. -/
def ChecksAlike (e : Engine) (k : Corpus) : Prop :=
  ∀ u v, k.sources u → k.sources v → u.Alike v →
    validateUnit e.settings u = validateUnit e.settings v

private theorem outcome_source_eq {u v : SourceUnit} (h : u.Alike v)
    (hv : validateUnit e.settings u = validateUnit e.settings v) :
    e.outcome (.source u) = e.outcome (.source v) := by
  unfold outcome Work.check
  dsimp only
  rw [hv, h.path]

/-- When source files with the same key text are checked the same, the key of any file decides its
outcome. -/
theorem Assumptions.keysDecide (ha : e.Assumptions k) (hk : e.ChecksAlike k) : e.KeysDecide k := by
  intro v w hv hw hdigest
  have htext := ha.noCollisions v w hv hw hdigest
  cases v with
  | source u =>
    cases w with
    | source v =>
      obtain ⟨hpath, htext, hsymbols⟩ :=
        CacheKey.sourceText_inj (ha.sourcePaths u hv) (ha.sourcePaths v hw) htext
      exact outcome_source_eq ⟨hpath, htext, hsymbols⟩ (hk u v hv hw ⟨hpath, htext, hsymbols⟩)
    | test t source? => exact absurd htext (CacheKey.sourceText_ne_testText u t source?)
  | test t source? =>
    cases w with
    | source v => exact absurd htext.symm (CacheKey.sourceText_ne_testText v t source?)
    | test t' source?' =>
      obtain ⟨hpath, htext, hkind, hsource⟩ := CacheKey.testText_inj (ha.testPaths t hv.1)
        (ha.testPaths t' hw.1) (fun s hs => ha.sourcePaths s (hv.2 s hs))
        (fun s hs => ha.sourcePaths s (hw.2 s hs)) htext
      exact congrArg Outcome.checked (e.layout.validate_eq hpath htext hkind hsource)

end Engine

/-! ### Histories -/

namespace Session

variable {x : Session} {e : Engine} {k : Corpus} {made : FileTree}

/-- The session is one of the engine, possibly with more in its cache, and no directory of the cache
was taken away. -/
structure Sound (x : Session) (e : Engine) (k : Corpus) (made : FileTree) : Prop where
  engine : x.engine = { e with cache? := x.engine.cache? }
  within : made.DirectoriesWithin x.tree
  holds : e.Holds k ⟨x.engine.cache?, x.tree⟩

/-- The session with which a history begins. -/
theorem sound_of_create {s : Settings} (henabled : s.cache.enabled = true) {before : FileTree}
    (hcreate : Engine.create before s = (made, .ok e))
    (hempty : ∀ c ∈ e.cache?, ∀ key, c.stored? made key = none) :
    (Session.mk e made).Sound e k made := by
  obtain ⟨rfl, c, hc, hfingerprint, hdir, hmemory⟩ := Engine.create_eq_ok henabled hcreate
  exact ⟨rfl, .refl made, c, hc, hfingerprint, hdir,
    ResultCache.sound_of_empty hmemory (hempty c hc)⟩

/-- An event preserves the invariant and reports what an engine without a cache reports. -/
theorem Sound.step {s : Settings} (henabled : s.cache.enabled = true) {before : FileTree}
    (hcreate : Engine.create before s = (made, .ok e)) (hread : e.ReadsBack k)
    (hkeys : e.KeysDecide k) (hx : x.Sound e k made) (tree : FileTree) (now : Instant)
    {event : Event} (hevent : k.Allows event) :
    (x.step event).1.Sound e k made ∧ (x.step event).2 = event.plainReport? e tree now := by
  obtain ⟨engine, current⟩ := x
  obtain ⟨hengine, hwithin, hholds⟩ := hx
  dsimp only at hengine hwithin hholds
  cases event with
  | run m turns =>
    have hwork := Corpus.has_of_mem_ofUnits hevent.1 hevent.2.1
    rw [hengine]
    constructor
    · obtain ⟨hafter, hkept⟩ := Engine.processBy_holds (e := { e with cache? := engine.cache? })
        hread hwork turns hholds
      exact ⟨rfl, hwithin.trans hkept, hafter⟩
    · have hreport := Engine.runBy_report (e := { e with cache? := engine.cache? }) hread hkeys
        hevent hholds
      have hplain := e.run_withoutCache tree now m
      exact congrArg some (hreport.trans hplain.symm)
  | reopen =>
    obtain ⟨hsettings, c, hc, hfingerprint, hdir, hmemory⟩ :=
      Engine.create_eq_ok henabled hcreate
    have hagain := Engine.create_again henabled hcreate hwithin
    have hstep : step ⟨engine, current⟩ .reopen = (⟨e, current⟩, none) := by
      unfold step
      dsimp only
      rw [hengine]
      dsimp only
      rw [hsettings, hagain]
    rw [hstep]
    obtain ⟨c', -, -, hdir', hsound⟩ := hholds
    refine ⟨⟨rfl, hwithin, c, hc, ?_, ?_, ?_⟩, rfl⟩
    · rw [hfingerprint, hsettings]
    · rw [hdir, hsettings]
    · -- The files of the entries are still there; only the memory is lost.
      constructor
      · intro key entry h
        rw [hmemory] at h
        cases h
      · intro key entry hdigest h
        apply hsound.stored key entry hdigest
        rw [ResultCache.stored?_eq_some] at h ⊢
        rwa [hdir', hsettings, ← hdir]

/-- The reports of a whole history are those of an engine without a cache. -/
theorem Sound.reports_eq {s : Settings} (henabled : s.cache.enabled = true) {before : FileTree}
    (hcreate : Engine.create before s = (made, .ok e)) (hread : e.ReadsBack k)
    (hkeys : e.KeysDecide k) (hx : x.Sound e k made) (tree : FileTree) (now : Instant)
    {events : List Event} (hevents : ∀ event ∈ events, k.Allows event) :
    x.reports events = events.filterMap (Event.plainReport? e tree now) := by
  induction events generalizing x with
  | nil => rfl
  | cons event events ih =>
    obtain ⟨hevent, hrest⟩ := List.forall_mem_cons.mp hevents
    obtain ⟨hafter, hreport⟩ := hx.step henabled hcreate hread hkeys tree now hevent
    rw [reports, hreport, ih hafter hrest, List.filterMap_cons]
    cases Event.plainReport? e tree now event <;> rfl

end Session

/-! ### Two files with the same key -/

namespace Engine

variable {e : Engine} {k : Corpus} {state : RunState} {c : ResultCache} {w : Work}

/-- What is not in the cache is checked and kept. -/
theorem process_fresh (hc : state.cache? = some c) (hmemory : c.memory = [])
    (hstored : c.stored? state.tree (w.key c) = none) {ds : List Diagnostic}
    (hcheck : e.outcome w = .checked ds) (now : Instant) :
    (e.process now state w).2 = .checked ds
      ∧ (e.process now state w).1.tree = c.persist state.tree (w.key c) ⟨ds, now⟩
      ∧ ∃ c', (e.process now state w).1.cache? = some c' ∧ c'.fingerprint = c.fingerprint
        ∧ c'.memory.lookup (w.key c) = some ⟨ds, now⟩ := by
  have hget : c.get state.tree (w.key c) w.modified?
      = ({ c with misses := c.misses + 1 }, none) := by
    unfold ResultCache.get
    rw [hmemory, hstored]
    rfl
  have hcheck' : w.check e.settings e.layout = .checked ds := hcheck
  unfold process
  rw [hc]
  dsimp only
  rw [hget]
  dsimp only
  rw [hcheck']
  refine ⟨rfl, rfl, _, rfl, rfl, ?_⟩
  change (ResultCache.remember c.memory (w.key c) ⟨ds, now⟩).lookup (w.key c) = _
  rw [ResultCache.lookup_remember, if_pos rfl]

/-- What is in the cache is not checked again. -/
theorem process_known (hc : state.cache? = some c) {ds : List Diagnostic}
    (hanswer : (c.get state.tree (w.key c) w.modified?).2 = some ds) (now : Instant) :
    (e.process now state w).2 = .checked ds := by
  obtain ⟨c', ds', hget, hturn⟩ | ⟨c', hget, -⟩ := e.process_cases hc now w
  all_goals rw [hget] at hanswer
  · rw [hturn, ← Option.some.inj hanswer]
  · cases hanswer

/-- The report of one file that was checked lists its findings. -/
theorem reportOf_checked (strict : Bool) (ds : List Diagnostic) :
    reportOf strict [.checked ds] = .ok (Report.assemble strict true 1 ds) := by
  have hfailures : [Outcome.checked ds].filterMap Outcome.failure? = [] := rfl
  unfold reportOf
  rw [hfailures]
  simp [firstFailure?, Outcome.isSkipped, Outcome.isChecked, Outcome.diagnostics]

/-- A source file that has findings is checked. -/
theorem outcome_source {u : SourceUnit} {ds : List Diagnostic}
    (h : validateUnit e.settings u = .ok ds) : e.outcome (.source u) = .checked ds := by
  unfold outcome Work.check
  dsimp only
  rw [h]

end Engine

private theorem Instant.notBefore_self (t : Instant) : t.notBefore t = true := by
  simp [notBefore, order]

/-- An entry of the time at which a file was last changed counts, and so does any entry when that is
not known. -/
theorem CacheEntry.isFresh_getD (ds : List Diagnostic) (modified? : Option Instant)
    (now : Instant) : isFresh modified? ⟨ds, modified?.getD now⟩ = true := by
  cases modified? with
  | none => rfl
  | some time => exact time.notBefore_self

private theorem SourceUnit.Alike.sourceText_eq {u v : SourceUnit} (h : u.Alike v)
    (fingerprint : Text) :
    CacheKey.sourceText fingerprint u = CacheKey.sourceText fingerprint v := by
  unfold CacheKey.sourceText
  rw [h.path, h.text, h.symbols]

namespace Session

/-- Two runs over one source file each are two turns. -/
theorem reports_pair (e : Engine) (tree : FileTree) (u v : SourceUnit) (time : Instant) :
    (Session.mk e tree).reports
        [.run ⟨[u], []⟩ [⟨0, time⟩], .run ⟨[v], []⟩ [⟨0, time⟩]]
      = [reportOf e.settings.strictMode [(e.process time ⟨e.cache?, tree⟩ (.source u)).2],
        reportOf e.settings.strictMode
          [(e.process time (e.process time ⟨e.cache?, tree⟩ (.source u)).1 (.source v)).2]] :=
  rfl

/-- After a source file, another one that its key does not tell apart from it is reported with the
findings of the first. -/
theorem reports_second {s : Settings} (henabled : s.cache.enabled = true)
    {before made : FileTree} {e : Engine} (hcreate : Engine.create before s = (made, .ok e))
    (hempty : ∀ c ∈ e.cache?, ∀ key, c.stored? made key = none) {u v : SourceUnit}
    (halike : u.Alike v) {ds : List Diagnostic} (hu : validateUnit e.settings u = .ok ds)
    (now : Instant) :
    (Session.mk e made).reports [.run ⟨[u], []⟩ [⟨0, v.modified?.getD now⟩],
        .run ⟨[v], []⟩ [⟨0, v.modified?.getD now⟩]]
      = [.ok (Report.assemble e.settings.strictMode true 1 ds),
        .ok (Report.assemble e.settings.strictMode true 1 ds)] := by
  obtain ⟨-, c, hc, -, -, hmemory⟩ := Engine.create_eq_ok henabled hcreate
  obtain ⟨hfirst, -, c', hc', hfingerprint, hlookup⟩ :=
    @Engine.process_fresh e ⟨e.cache?, made⟩ c (.source u) hc hmemory
      (hempty c hc _) ds (Engine.outcome_source hu) (v.modified?.getD now)
  have hkey : Work.key c' (.source v) = Work.key c (.source u) := by
    rw [Work.key_eq, Work.key_eq, hfingerprint]
    exact congrArg CacheKey.ofText (halike.sourceText_eq _).symm
  rw [← hkey] at hlookup
  have hsecond := Engine.process_known (e := e) (w := .source v) hc'
    (ResultCache.get_of_lookup _ hlookup (CacheEntry.isFresh_getD ds v.modified? now))
    (v.modified?.getD now)
  rw [reports_pair, hfirst, hsecond, Engine.reportOf_checked]

/-- When the report about the second of two files that the key does not tell apart is right, the two
are checked the same. -/
theorem validateUnit_eq_of_reports {s : Settings} (henabled : s.cache.enabled = true)
    {before made : FileTree} {e : Engine} (hcreate : Engine.create before s = (made, .ok e))
    (hempty : ∀ c ∈ e.cache?, ∀ key, c.stored? made key = none) {u v : SourceUnit}
    (halike : u.Alike v) (tree : FileTree) (now : Instant)
    (h : (Session.mk e made).reports [.run ⟨[u], []⟩ [⟨0, v.modified?.getD now⟩],
          .run ⟨[v], []⟩ [⟨0, v.modified?.getD now⟩]]
        = [Event.run ⟨[u], []⟩ [⟨0, v.modified?.getD now⟩],
            Event.run ⟨[v], []⟩ [⟨0, v.modified?.getD now⟩]].filterMap
          (Event.plainReport? e tree now)) :
    validateUnit e.settings u = validateUnit e.settings v := by
  have hsymm : v.Alike u := ⟨halike.path.symm, halike.text.symm, halike.symbols.symm⟩
  cases hcheck : validateUnit e.settings u with
  | error cause => exact (halike.validateUnit_eq_of_error hcheck).symm
  | ok ds =>
    cases hcheck' : validateUnit e.settings v with
    | error cause =>
      rw [hsymm.validateUnit_eq_of_error hcheck'] at hcheck
      cases hcheck
    | ok es =>
      rw [reports_second henabled hcreate hempty halike hcheck now] at h
      have hplain := e.run_withoutCache tree now ⟨[v], []⟩
      rw [show (Work.ofUnits [v] []).map e.outcome = [e.outcome (.source v)] from rfl,
        Engine.outcome_source hcheck', Engine.reportOf_checked] at hplain
      have hsecond : Except.ok (Report.assemble e.settings.strictMode true 1 ds)
          = (e.withoutCache.run tree now false ⟨[v], []⟩).2.2 :=
        (List.cons.inj (List.cons.inj h).2).1
      rw [hplain] at hsecond
      have hlists := congrArg Report.diagnostics (Except.ok.inj hsecond)
      rw [← hcheck, ← hcheck']
      exact halike.validateUnit_eq_of_report hcheck hcheck' hlists

/-- The reports of all histories over a corpus are those of an engine without a cache exactly when
source files with the same path, text and symbols are checked the same. -/
theorem reports_transparent_iff {s : Settings} (henabled : s.cache.enabled = true)
    {before made : FileTree} {e : Engine} (hcreate : Engine.create before s = (made, .ok e))
    (hempty : ∀ c ∈ e.cache?, ∀ key, c.stored? made key = none) {k : Corpus}
    (ha : e.Assumptions k) (tree : FileTree) (now : Instant) :
    (∀ events, (∀ event ∈ events, k.Allows event) →
        (Session.mk e made).reports events = events.filterMap (Event.plainReport? e tree now))
      ↔ e.ChecksAlike k := by
  constructor
  · intro h u v hu hv halike
    have hallow : ∀ w, k.sources w → k.Allows (.run ⟨[w], []⟩ [⟨0, v.modified?.getD now⟩]) := by
      intro w hw
      exact ⟨List.forall_mem_singleton.mpr hw, List.forall_mem_nil _, .refl _⟩
    apply validateUnit_eq_of_reports henabled hcreate hempty halike tree now
    apply h
    exact List.forall_mem_cons.mpr ⟨hallow u hu, List.forall_mem_singleton.mpr (hallow v hv)⟩
  · intro hk events hevents
    exact (sound_of_create henabled hcreate hempty).reports_eq henabled hcreate ha.readsBack
      (ha.keysDecide hk) tree now hevents

/-- The default settings with a cache in memory. -/
def cachedSettings : Settings where
  cache := { enabled := true }

/-- With these settings an engine can be made, and no file is asked for entries. -/
theorem exists_create (tree : FileTree) : ∃ e, Engine.create tree cachedSettings = (tree, .ok e)
    ∧ e.settings = cachedSettings ∧ ∀ c ∈ e.cache?, ∀ key, c.stored? tree key = none := by
  have hcreate : Engine.create tree cachedSettings
      = (tree, Engine.withCache cachedSettings (some (.inMemory cachedSettings))) := rfl
  have hvalid : (Engine.withCache cachedSettings (some (.inMemory cachedSettings))).toBool
      = true := by
    decide +kernel
  cases hwith : Engine.withCache cachedSettings (some (.inMemory cachedSettings)) with
  | error cause =>
    rw [hwith] at hvalid
    cases hvalid
  | ok e =>
    obtain ⟨hsettings, hcache⟩ := Engine.withCache_eq_ok hwith
    refine ⟨e, by rw [hcreate, hwith], hsettings, fun c hc key => ?_⟩
    rw [hcache] at hc
    cases hc
    rfl

/-- A documented function, in a file of any language. -/
def plainExample (l : Language) : SourceUnit where
  path := "src/a"
  text := "/** Adds. */\nadd"
  language := l
  symbols := [{ kind := .function, name := "add", isExported := true, declarationLine := 2 }]

/-- Two files that the key does not tell apart. -/
def exampleCorpus : Corpus where
  sources u := u = plainExample .java ∨ u = plainExample .php
  tests _ := False

private theorem assumptions_exampleCorpus {e : Engine} (hs : e.settings = cachedSettings) :
    e.Assumptions exampleCorpus := by
  have htext : ∀ w, exampleCorpus.Has w → w.keyText e.settings.fingerprint
      = CacheKey.sourceText e.settings.fingerprint (plainExample .java) := by
    intro w hw
    cases w with
    | source u => rcases hw with rfl | rfl <;> rfl
    | test t source? => exact hw.1.elim
  refine ⟨?_, nofun, fun v w hv hw _ => (htext v hv).trans (htext w hw).symm, fun hdir => ?_⟩
  · rintro u (rfl | rfl) <;> decide
  · rw [hs] at hdir
    cases hdir

/-- Without usage snippets the languages do not matter, so a cache is transparent. -/
theorem reports_exampleCorpus : ∃ e, Engine.create (.empty []) cachedSettings = (.empty [], .ok e)
    ∧ ∀ events, (∀ event ∈ events, exampleCorpus.Allows event) → ∀ now,
      (Session.mk e (.empty [])).reports events
        = events.filterMap (Event.plainReport? e (.empty []) now) := by
  obtain ⟨e, hcreate, hs, hempty⟩ := exists_create (.empty [])
  have halike : e.ChecksAlike exampleCorpus := by
    have hsame : validateUnit cachedSettings (plainExample .java)
        = validateUnit cachedSettings (plainExample .php) := by decide +kernel
    rintro u v (rfl | rfl) (rfl | rfl) - <;> rw [hs]
    · exact hsame
    · exact hsame.symm
  refine ⟨e, hcreate, fun events hevents now => ?_⟩
  exact (reports_transparent_iff rfl hcreate hempty (assumptions_exampleCorpus hs) (.empty [])
    now).mpr halike events hevents

/-- A function with a usage snippet in Java, in a file of any language. -/
def javaSnippetExample (l : Language) : SourceUnit where
  path := "a"
  text := "/**\n * A.\n * @usage\n * ```java\n * f();\n * ```\n */\nf"
  language := l
  symbols := [{ kind := .function, name := "f", declarationLine := 8 }]

/-- The same file as Java and then as PHP: the second run reports nothing, while an engine without a
cache reports the fence tag. -/
theorem reports_javaThenPhp : ∃ e, Engine.create (.empty []) cachedSettings = (.empty [], .ok e)
    ∧ ∀ now,
      (Session.mk e (.empty [])).reports [.run ⟨[javaSnippetExample .java], []⟩ [⟨0, now⟩],
          .run ⟨[javaSnippetExample .php], []⟩ [⟨0, now⟩]]
        ≠ [Event.run ⟨[javaSnippetExample .java], []⟩ [⟨0, now⟩],
            Event.run ⟨[javaSnippetExample .php], []⟩ [⟨0, now⟩]].filterMap
          (Event.plainReport? e (.empty []) now) := by
  obtain ⟨e, hcreate, hs, hempty⟩ := exists_create (.empty [])
  have hjava : validateUnit e.settings (javaSnippetExample .java) = .ok [] := by
    rw [hs]
    decide +kernel
  have hphp : validateUnit e.settings (javaSnippetExample .php)
      = .ok [⟨"a", 3, 4, .languageTagMismatch, .warning,
        "usage snippet is tagged `java` but `f` is PHP code", some "f@8"⟩] := by
    rw [hs]
    decide +kernel
  refine ⟨e, hcreate, fun now hreports => ?_⟩
  have hcached := reports_second rfl hcreate hempty (u := javaSnippetExample .java)
    (v := javaSnippetExample .php) ⟨rfl, rfl, rfl⟩ hjava now
  have hplain := hreports.symm.trans hcached
  have hsecond : (e.withoutCache.run (.empty []) now false ⟨[javaSnippetExample .php], []⟩).2.2
      = .ok (Report.assemble e.settings.strictMode true 1 []) :=
    (List.cons.inj (List.cons.inj hplain).2).1
  rw [Engine.run_withoutCache, show (Work.ofUnits [javaSnippetExample .php] []).map e.outcome
    = [e.outcome (.source (javaSnippetExample .php))] from rfl, Engine.outcome_source hphp,
    Engine.reportOf_checked, hs] at hsecond
  have hcount := congrArg (fun r => r.diagnostics.length) (Except.ok.inj hsecond)
  revert hcount
  decide +kernel

end Session

end DocContract
