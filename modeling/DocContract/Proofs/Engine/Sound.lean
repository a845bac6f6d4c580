import DocContract.Proofs.Cache.Sound
import DocContract.Proofs.Engine.Check
import DocContract.Proofs.Engine.History

/-!
# Histories over a sound cache

The invariant of a history: what the cache holds under a key, in memory or in a file, was found in
some file with that key. One turn preserves it, so a run does, and so does making the engine anew.
If files with the same key are checked the same, every outcome is then that of the check itself.
-/

namespace DocContract

/-! ### The files of a history -/

/-- The files that the runs of a history may be over. -/
structure Corpus where
  sources : SourceUnit → Prop
  tests : TestUnit → Prop

namespace Corpus

/-- The file belongs to the corpus, and so does the source file that it is paired with. -/
def Has (k : Corpus) : Work → Prop
  | .source u => k.sources u
  | .test t source? => k.tests t ∧ ∀ s ∈ source?, k.sources s

/-- The event is over files of the corpus, and each of them has a turn. -/
def Allows (k : Corpus) : Event → Prop
  | .run m turns =>
    (∀ u ∈ m.sources, k.sources u) ∧ (∀ t ∈ m.tests, k.tests t)
      ∧ turns.IsFor (Work.ofUnits m.sources m.tests).length
  | .reopen => True

/-- The files of a run belong to the corpus that the run is over. -/
theorem has_of_mem_ofUnits {k : Corpus} {m : Manifest} (hs : ∀ u ∈ m.sources, k.sources u)
    (ht : ∀ t ∈ m.tests, k.tests t) : ∀ w ∈ Work.ofUnits m.sources m.tests, k.Has w := by
  intro w hw
  rcases List.mem_append.mp hw with hw | hw
  · obtain ⟨u, hu, rfl⟩ := List.mem_map.mp hw
    exact hs u hu
  · obtain ⟨t, htm, rfl⟩ := List.mem_map.mp hw
    refine ⟨ht t htm, fun s hsource => ?_⟩
    obtain ⟨p, -, hlast⟩ := Option.bind_eq_some_iff.mp hsource
    exact hs s (List.mem_filter.mp (List.mem_of_getLast? hlast)).1

end Corpus

/-- The key text of a file under some options. -/
def Work.keyText (fingerprint : Text) : Work → Text
  | .source u => CacheKey.sourceText fingerprint u
  | .test u source? => CacheKey.testText fingerprint u source?

/-- The key of a file is the digest of its key text under the settings of the cache. -/
theorem Work.key_eq (c : ResultCache) (w : Work) :
    w.key c = .ofText (w.keyText c.fingerprint) := by
  cases w <;> rfl

namespace Engine

variable {e : Engine} {k : Corpus} {state : RunState}

/-- The outcome of checking a file. -/
def outcome (e : Engine) (w : Work) : Outcome := w.check e.settings e.layout

/-- The digest of a file's key text. -/
def digest (e : Engine) (w : Work) : CacheKey := .ofText (w.keyText e.settings.fingerprint)

/-- Some file of the corpus has that key and those findings. -/
def Finds (e : Engine) (k : Corpus) (key : CacheKey) (ds : List Diagnostic) : Prop :=
  ∃ w, k.Has w ∧ e.digest w = key ∧ e.outcome w = .checked ds

/-- The cache is one for the settings of the engine, and what it holds was found. -/
def Holds (e : Engine) (k : Corpus) (state : RunState) : Prop :=
  ∃ c, state.cache? = some c ∧ c.fingerprint = e.settings.fingerprint
    ∧ c.dir? = e.settings.cache.dir? ∧ c.Sound (e.Finds k) state.tree

/-- Findings that are kept in a file read back as they were written. -/
def ReadsBack (e : Engine) (k : Corpus) : Prop :=
  e.settings.cache.dir?.isSome → ∀ w, k.Has w → ∀ ds, e.outcome w = .checked ds →
    ∀ now, ResultCache.ReadsBack ⟨ds, now⟩

/-- Files with the same key are checked the same. -/
def KeysDecide (e : Engine) (k : Corpus) : Prop :=
  ∀ v w, k.Has v → k.Has w → e.digest v = e.digest w → e.outcome v = e.outcome w

/-! ### One turn -/

/-- What a turn does with a cache: it takes the findings from there, or it checks the file and keeps
the findings, or the check fails and nothing is kept. -/
theorem process_cases {c : ResultCache} (hc : state.cache? = some c) (now : Instant) (w : Work) :
    (∃ c' ds, c.get state.tree (w.key c) w.modified? = (c', some ds)
        ∧ e.process now state w = (⟨some c', state.tree⟩, .checked ds))
      ∨ ∃ c', c.get state.tree (w.key c) w.modified? = (c', none)
        ∧ ((∃ ds, e.outcome w = .checked ds ∧ e.process now state w
            = (⟨some (c'.put state.tree (w.key c) ds now).1,
              (c'.put state.tree (w.key c) ds now).2⟩, .checked ds))
          ∨ e.process now state w = (⟨some c', state.tree⟩, e.outcome w)) := by
  unfold process
  rw [hc]
  dsimp only
  split
  · next c' ds hget => exact .inl ⟨c', ds, hget, rfl⟩
  · next c' hget =>
    refine .inr ⟨c', hget, ?_⟩
    split
    · next ds hcheck => exact .inl ⟨ds, hcheck, rfl⟩
    · exact .inr rfl

/-- A turn preserves the invariant and takes no directory away. -/
theorem process_holds (hread : e.ReadsBack k) (hs : e.Holds k state) {w : Work} (hw : k.Has w)
    (now : Instant) :
    e.Holds k (e.process now state w).1
      ∧ state.tree.DirectoriesWithin (e.process now state w).1.tree := by
  obtain ⟨c, hc, hfingerprint, hdir, hsound⟩ := hs
  have hkey : w.key c = e.digest w := by rw [Work.key_eq, hfingerprint, digest]
  have hdigest : (w.key c).IsDigest := ⟨_, Work.key_eq c w⟩
  obtain ⟨hget, -⟩ := hsound.get hdigest w.modified?
  have hsettings := ResultCache.get_settings (c := c) state.tree (w.key c) w.modified?
  obtain ⟨c', ds, hg, hturn⟩ | ⟨c', hg, ⟨ds, hcheck, hturn⟩ | hturn⟩ :=
    e.process_cases hc now w
  all_goals rw [hg] at hget hsettings
  all_goals rw [hturn]
  · exact ⟨⟨c', rfl, hsettings.1.trans hfingerprint, hsettings.2.trans hdir, hget⟩, .refl _⟩
  · have hback : c'.dir?.isSome → ResultCache.ReadsBack ⟨ds, now⟩ := by
      intro h
      rw [hsettings.2, hdir] at h
      exact hread h w hw ds hcheck now
    have hput := hget.put hdigest ⟨w, hw, hkey.symm, hcheck⟩ hback
    refine ⟨⟨_, rfl, hsettings.1.trans hfingerprint, hsettings.2.trans hdir, hput⟩, ?_⟩
    exact ResultCache.directoriesWithin_persist hdigest _
  · exact ⟨⟨c', rfl, hsettings.1.trans hfingerprint, hsettings.2.trans hdir, hget⟩, .refl _⟩

/-- The outcome of a turn is that of the check, whether the cache answered or not. -/
theorem process_outcome (hkeys : e.KeysDecide k) (hs : e.Holds k state) {w : Work} (hw : k.Has w)
    (now : Instant) : (e.process now state w).2 = e.outcome w := by
  obtain ⟨c, hc, hfingerprint, -, hsound⟩ := hs
  have hkey : w.key c = e.digest w := by rw [Work.key_eq, hfingerprint, digest]
  obtain ⟨-, hanswer⟩ := hsound.get ⟨_, Work.key_eq c w⟩ w.modified?
  obtain ⟨c', ds, hg, hturn⟩ | ⟨c', -, ⟨ds, hcheck, hturn⟩ | hturn⟩ := e.process_cases hc now w
  all_goals rw [hturn]
  · rw [hg] at hanswer
    obtain ⟨v, hv, hvkey, hvcheck⟩ := hanswer ds rfl
    rw [← hkeys v w hv hw (hvkey.trans hkey), hvcheck]
  · exact hcheck.symm

/-! ### A run -/

/-- Going over files in turn keeps what holds of the cache and every directory. -/
theorem processBy_holds (hread : e.ReadsBack k) {work : List Work} (hwork : ∀ w ∈ work, k.Has w)
    (turns : Schedule) (hs : e.Holds k state) :
    e.Holds k (e.processBy work state turns).1
      ∧ state.tree.DirectoriesWithin (e.processBy work state turns).1.tree := by
  have hturn : ∀ later, e.Holds k later ∧ state.tree.DirectoriesWithin later.tree → ∀ w ∈ work,
      ∀ now, (e.Holds k (e.process now later w).1
        ∧ state.tree.DirectoriesWithin (e.process now later w).1.tree) ∧ True := by
    intro later h w hw now
    obtain ⟨hstep, hwithin⟩ := process_holds hread h.1 (hwork w hw) now
    exact ⟨⟨hstep, h.2.trans hwithin⟩, trivial⟩
  exact (processBy_induction (R := fun _ _ => True) hturn turns ⟨hs, .refl _⟩).1

/-- A run with a sound cache reports the outcomes of the checks, in whatever order the files are
processed. -/
theorem runBy_report (hread : e.ReadsBack k) (hkeys : e.KeysDecide k) {m : Manifest}
    {turns : Schedule} (hm : k.Allows (.run m turns)) {tree : FileTree}
    (hs : e.Holds k ⟨e.cache?, tree⟩) :
    (e.runBy tree turns m).2.2
      = reportOf e.settings.strictMode ((Work.ofUnits m.sources m.tests).map e.outcome) := by
  obtain ⟨hsources, htests, hturns⟩ := hm
  have hwork := Corpus.has_of_mem_ofUnits hsources htests
  exact runBy_eq (fun _ h w hw now => ⟨(process_holds hread h (hwork w hw) now).1,
    process_outcome hkeys h (hwork w hw) now⟩) hturns hs

private theorem processAll_withoutCache (now : Instant) (tree : FileTree) (work : List Work) :
    e.withoutCache.processAll now ⟨none, tree⟩ work = (⟨none, tree⟩, work.map e.outcome) := by
  induction work with
  | nil => rfl
  | cons w ws ih =>
    rw [processAll]
    simp only [process, ih]
    rfl

/-- Without a cache a run reports the outcomes of the checks. -/
theorem run_withoutCache (tree : FileTree) (now : Instant) (m : Manifest) :
    (e.withoutCache.run tree now false m).2.2
      = reportOf e.settings.strictMode ((Work.ofUnits m.sources m.tests).map e.outcome) := by
  unfold run
  simp only [Bool.false_eq_true, if_false]
  rw [show e.withoutCache.cache? = none from rfl, processAll_withoutCache]
  rfl

/-! ### Making the engine anew -/

/-- A cache that was opened is empty, and opening it where no directory was taken away changes no
file and gives the same cache. -/
theorem openIn_eq_ok {s : Settings} {tree made : FileTree} {c : ResultCache}
    (h : ResultCache.openIn tree s = (made, .ok c)) :
    (c.fingerprint = s.fingerprint ∧ c.dir? = s.cache.dir? ∧ c.memory = [])
      ∧ ∀ later, made.DirectoriesWithin later → ResultCache.openIn later s = (later, .ok c) := by
  refine ⟨?_, fun later hlater => ResultCache.openIn_again h hlater⟩
  rw [ResultCache.eq_of_openIn h]
  exact ⟨rfl, rfl, rfl⟩

/-- An engine has the settings and the cache that it was made with. -/
theorem withCache_eq_ok {s : Settings} {cache? : Option ResultCache}
    (h : withCache s cache? = .ok e) : e.settings = s ∧ e.cache? = cache? := by
  unfold withCache at h
  split at h
  · cases h
  · next s' hs =>
    have hvalid : s' = s := by
      unfold Settings.validated at hs
      split at hs
      · cases hs
      · exact (Except.ok.inj hs).symm
    split at h
    · cases h
    · cases h
      exact ⟨hvalid, rfl⟩

private theorem exists_openIn_of_create {s : Settings} (henabled : s.cache.enabled = true)
    {tree made : FileTree} (h : create tree s = (made, .ok e)) :
    ∃ c, ResultCache.openIn tree s = (made, .ok c) ∧ withCache s (some c) = .ok e := by
  unfold create at h
  rw [if_pos henabled] at h
  split at h
  · cases (Prod.mk.inj h).2
  · next tree' c hopen =>
    obtain ⟨rfl, hwith⟩ := Prod.mk.inj h
    exact ⟨c, hopen, hwith⟩

/-- An engine that was made with a cache has its settings and an empty cache for them. -/
theorem create_eq_ok {s : Settings} (henabled : s.cache.enabled = true) {tree made : FileTree}
    (h : create tree s = (made, .ok e)) :
    e.settings = s ∧ ∃ c, e.cache? = some c ∧ c.fingerprint = s.fingerprint
      ∧ c.dir? = s.cache.dir? ∧ c.memory = [] := by
  obtain ⟨c, hopen, hwith⟩ := exists_openIn_of_create henabled h
  obtain ⟨hsettings, hcache⟩ := withCache_eq_ok hwith
  exact ⟨hsettings, c, hcache, (openIn_eq_ok hopen).1⟩

/-- Making an engine anew where no directory was taken away changes no file and gives the same
engine. -/
theorem create_again {s : Settings} (henabled : s.cache.enabled = true) {tree made later : FileTree}
    (h : create tree s = (made, .ok e)) (hlater : made.DirectoriesWithin later) :
    create later s = (later, .ok e) := by
  obtain ⟨c, hopen, hwith⟩ := exists_openIn_of_create henabled h
  unfold create
  rw [if_pos henabled, (openIn_eq_ok hopen).2 later hlater]
  dsimp only
  rw [hwith]

end Engine

end DocContract
