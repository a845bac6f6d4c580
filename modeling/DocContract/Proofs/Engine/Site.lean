import DocContract.Proofs.Engine.Sound

/-!
# Engines that share files

At a site there may be many engines, made at any time and with any settings, and one tree of files,
so that several caches can have one directory. A run may be over any files with any turns, which
includes a run that was broken off. The invariant of a site is about keys: every entry, in the
memory of a cache or in a file that a cache could read it from, is under a key that something was
kept under.
-/

namespace DocContract

variable {belongs : CacheKey → Prop}

/-! ### The entries of a tree -/

namespace FileTree

variable {tree : FileTree}

/-- Every entry that a cache could read from a file, in whatever directory, is under one of these
keys. -/
def EntriesBelong (belongs : CacheKey → Prop) (tree : FileTree) : Prop :=
  ∀ (d : Location) (key : CacheKey) (t : Text), key.IsDigest →
    tree.node? (d ++ [key.fileName]) = some (.file (some t)) →
      (CacheEntry.ofText? t).isSome → belongs key

private theorem EntriesBelong.stored (h : tree.EntriesBelong belongs) {c : ResultCache}
    {key : CacheKey}
    {entry : CacheEntry} (hk : key.IsDigest) (hs : c.stored? tree key = some entry) :
    belongs key := by
  obtain ⟨dir, -, t, ht, hentry⟩ := ResultCache.stored?_eq_some.mp hs
  obtain ⟨d, -, hnode⟩ := (read_eq_ok hk.isFileName).mp ht
  exact h d key t hk hnode (by rw [hentry]; rfl)

/-- An entry is written into the file of its key and nowhere else. -/
theorem EntriesBelong.persist (h : tree.EntriesBelong belongs) (c : ResultCache) {key : CacheKey}
    (hk : key.IsDigest) (hbelongs : belongs key) (entry : CacheEntry) :
    (c.persist tree key entry).EntriesBelong belongs := by
  unfold ResultCache.persist
  split
  · exact h
  · next file hfile =>
    split
    · exact h
    · next tree' hwrite =>
      obtain ⟨dir, -, rfl⟩ := Option.map_eq_some_iff.mp hfile
      obtain ⟨d, -, -, rfl⟩ := write_eq_ok hk.isFileName hwrite
      intro d' other t ho hnode ht
      rw [node?_set] at hnode
      split at hnode
      · next heq =>
        have hname := List.singleton_inj.mp (List.append_inj' heq rfl).2
        rw [CacheKey.fileName_inj hname]
        exact hbelongs
      · exact h d' other t ho hnode ht

private theorem EntriesBelong.makeDirs (h : tree.EntriesBelong belongs) (dir : Path) :
    (tree.makeDirs dir).1.EntriesBelong belongs :=
  fun d key t hk hnode => h d key t hk (file_of_makeDirs hnode)

end FileTree

/-! ### One engine -/

namespace Engine

variable {e : Engine} {state : RunState}

/-- The cache, if there is one, is for the options of the engine, and its entries and those of the
tree are under these keys. -/
structure Keeps (e : Engine) (belongs : CacheKey → Prop) (state : RunState) : Prop where
  fingerprint : ∀ c ∈ state.cache?, c.fingerprint = e.settings.fingerprint
  memory : ∀ c ∈ state.cache?, ∀ key entry, c.memory.lookup key = some entry → belongs key
  entries : state.tree.EntriesBelong belongs

/-- The outcome is that of the check, or it is some findings and the key of the file is one of
these. -/
def Answers (e : Engine) (belongs : CacheKey → Prop) (w : Work) (o : Outcome) : Prop :=
  o = e.outcome w ∨ belongs (e.digest w) ∧ ∃ ds, o = .checked ds

/-- A turn preserves the invariant if what it may keep belongs there, and unless the findings were
kept before under the key of the file it checks the file. -/
theorem process_keeps (h : e.Keeps belongs state) {w : Work}
    (hw : ∀ ds, e.outcome w = .checked ds → belongs (e.digest w)) (now : Instant) :
    e.Keeps belongs (e.process now state w).1
      ∧ e.Answers belongs w (e.process now state w).2 := by
  cases hc : state.cache? with
  | none =>
    have hturn : e.process now state w = (state, e.outcome w) := by
      unfold process
      rw [hc]
      rfl
    rw [hturn]
    exact ⟨h, .inl rfl⟩
  | some c =>
    have hfingerprint := h.fingerprint c hc
    have hkey : w.key c = e.digest w := by rw [Work.key_eq, hfingerprint, digest]
    have hdigest : (w.key c).IsDigest := ⟨_, Work.key_eq c w⟩
    have hsound : c.Sound (fun key _ => belongs key) state.tree :=
      ⟨h.memory c hc, fun _ _ hk hs => h.entries.stored hk hs⟩
    obtain ⟨hget, hanswer⟩ := hsound.get hdigest w.modified?
    have hsettings := ResultCache.get_settings (c := c) state.tree (w.key c) w.modified?
    -- A cache for the same options that holds only such keys keeps the invariant.
    have hkeeps : ∀ {c' : ResultCache} {tree' : FileTree}, c'.fingerprint = c.fingerprint →
        c'.Sound (fun key _ => belongs key) state.tree → tree'.EntriesBelong belongs →
        e.Keeps belongs ⟨some c', tree'⟩ := by
      intro c' tree' hf hs ht
      refine ⟨fun c'' hc'' => ?_, fun c'' hc'' => ?_, ht⟩
      · cases hc''
        exact hf.trans hfingerprint
      · cases hc''
        exact hs.memory
    obtain ⟨c', ds, hg, hturn⟩ | ⟨c', hg, ⟨ds, hcheck, hturn⟩ | hturn⟩ := e.process_cases hc now w
    all_goals rw [hg] at hget hsettings
    all_goals rw [hturn]
    · rw [hg] at hanswer
      rw [hkey] at hanswer
      exact ⟨hkeeps hsettings.1 hget h.entries, .inr ⟨hanswer ds rfl, ds, rfl⟩⟩
    · have hbelongs : belongs (w.key c) := hkey ▸ hw ds hcheck
      have hput := hget.remember (e := ⟨ds, now⟩) hbelongs
      exact ⟨hkeeps hsettings.1 hput (h.entries.persist c' hdigest hbelongs _), .inl hcheck.symm⟩
    · exact ⟨hkeeps hsettings.1 hget h.entries, .inl rfl⟩

/-- An engine that was made has the settings that were asked for, which are valid, and its cache, if
it has one, is empty. -/
theorem of_create {s : Settings} {tree made : FileTree} (h : create tree s = (made, .ok e)) :
    e.settings = s ∧ s.defect? = none
      ∧ ∀ c ∈ e.cache?, c.fingerprint = s.fingerprint ∧ c.memory = [] := by
  have hwith : ∃ cache?, withCache s cache? = .ok e
      ∧ ∀ c ∈ cache?, c.fingerprint = s.fingerprint ∧ c.memory = [] := by
    unfold create at h
    split at h
    · split at h
      · cases (Prod.mk.inj h).2
      · next c hopen =>
        refine ⟨some c, (Prod.mk.inj h).2, fun c' hc' => ?_⟩
        cases hc'
        obtain ⟨hfingerprint, -, hmemory⟩ := (openIn_eq_ok hopen).1
        exact ⟨hfingerprint, hmemory⟩
    · exact ⟨none, (Prod.mk.inj h).2, nofun⟩
  obtain ⟨cache?, hwith, hempty⟩ := hwith
  obtain ⟨hsettings, rfl⟩ := withCache_eq_ok hwith
  refine ⟨hsettings, ?_, hempty⟩
  unfold withCache Settings.validated at hwith
  cases hdefect : s.defect? with
  | none => rfl
  | some cause =>
    rw [hdefect] at hwith
    cases hwith

/-- Making an engine writes no entry, whether it succeeds or not. -/
theorem entriesBelong_create {tree : FileTree} (h : tree.EntriesBelong belongs) (s : Settings) :
    (create tree s).1.EntriesBelong belongs := by
  have hopen : (ResultCache.openIn tree s).1.EntriesBelong belongs := by
    unfold ResultCache.openIn
    split
    · exact h
    · next dir hdir =>
      have hmade := h.makeDirs dir
      split
      all_goals
        next hmake =>
          rw [hmake] at hmade
          exact hmade
  unfold create
  split
  · split
    all_goals
      next heq =>
        rw [heq] at hopen
        exact hopen
  · exact h

end Engine

/-! ### A site -/

/-- The options of a run without those of the cache. -/
def Settings.uncached (s : Settings) : Settings := { s with cache := {} }

/-- The files that the runs at a site may be over, and the options of its engines but for those of
the cache. -/
structure Scope extends Corpus where
  options : Settings → Prop

/-- Some engines and the files around them. -/
structure Site where
  engines : List Engine
  tree : FileTree

/-- What may be asked for at a site. -/
inductive Request where
  | create (s : Settings)
  /-- The engine in some place takes these turns over the files of a manifest. -/
  | run (place : Nat) (m : Manifest) (turns : Schedule)

namespace Scope

/-- The settings are valid and their options are in the scope, whatever the cache. -/
def Accepts (k : Scope) (s : Settings) : Prop := k.options s.uncached ∧ s.defect? = none

/-- The files of a manifest are in the scope. -/
def Covers (k : Scope) (m : Manifest) : Prop :=
  (∀ u ∈ m.sources, k.sources u) ∧ ∀ t ∈ m.tests, k.tests t

/-- The request stays within the scope. -/
def Allows (k : Scope) : Request → Prop
  | .create s => k.options s.uncached
  | .run _ m _ => k.Covers m

/-- A scope that covers a manifest has every file of it. -/
theorem Covers.has {k : Scope} {m : Manifest} (h : k.Covers m) :
    ∀ w ∈ Work.ofUnits m.sources m.tests, k.Has w :=
  Corpus.has_of_mem_ofUnits h.1 h.2

/-- Whatever an engine of the scope finds in a file of the scope, it finds under one of these
keys. -/
def Feeds (k : Scope) (belongs : CacheKey → Prop) : Prop :=
  ∀ e : Engine, k.Accepts e.settings → ∀ w, k.Has w → ∀ ds, e.outcome w = .checked ds →
    belongs (e.digest w)

end Scope

namespace Site

variable {k : Scope} {x : Site}

/-- The effect of a request. -/
def step (x : Site) : Request → Site
  | .create s =>
    match Engine.create x.tree s with
    | (tree, .ok e) => ⟨x.engines ++ [e], tree⟩
    | (tree, .error _) => { x with tree }
  | .run place m turns =>
    match x.engines[place]? with
    | none => x
    | some e =>
      let (e, tree, _) := e.runBy x.tree turns m
      ⟨x.engines.set place e, tree⟩

/-- The effect of some requests, one after the other. -/
def after (x : Site) (requests : List Request) : Site := requests.foldl step x

/-- The engines of the site are in the scope, and all entries are under these keys. -/
structure Keeps (x : Site) (k : Scope) (belongs : CacheKey → Prop) : Prop where
  accepts : ∀ e ∈ x.engines, k.Accepts e.settings
  engines : ∀ e ∈ x.engines, e.Keeps belongs ⟨e.cache?, x.tree⟩
  entries : x.tree.EntriesBelong belongs

/-- The other engines keep to the keys when the tree does. -/
theorem Keeps.withTree (h : x.Keeps k belongs) {tree : FileTree}
    (ht : tree.EntriesBelong belongs) : ({ x with tree } : Site).Keeps k belongs :=
  ⟨h.accepts, fun e he => ⟨(h.engines e he).fingerprint, (h.engines e he).memory, ht⟩, ht⟩

private theorem Keeps.create (h : x.Keeps k belongs) {s : Settings} (hs : k.options s.uncached) :
    (x.step (.create s)).Keeps k belongs := by
  have hentries := Engine.entriesBelong_create h.entries s
  rw [step]
  split
  · next tree e hcreate =>
    rw [hcreate] at hentries
    obtain ⟨rfl, hvalid, hcache⟩ := Engine.of_create hcreate
    have hrest := h.withTree hentries
    refine ⟨List.forall_mem_append.mpr ⟨hrest.accepts, List.forall_mem_singleton.mpr ⟨hs, hvalid⟩⟩,
      List.forall_mem_append.mpr ⟨hrest.engines, List.forall_mem_singleton.mpr ?_⟩, hentries⟩
    refine ⟨fun c hc => (hcache c hc).1, fun c hc key entry hlookup => ?_, hentries⟩
    rw [(hcache c hc).2] at hlookup
    cases hlookup
  · next tree cause hcreate =>
    rw [hcreate] at hentries
    exact h.withTree hentries

/-- Checking a file keeps the cache true and answers truly. -/
theorem Keeps.process (h : x.Keeps k belongs) (hfeeds : k.Feeds belongs) {e : Engine}
    (he : e ∈ x.engines) {m : Manifest} (hm : k.Covers m) :
    ∀ state, e.Keeps belongs state → ∀ w ∈ Work.ofUnits m.sources m.tests, ∀ now,
      e.Keeps belongs (e.process now state w).1
        ∧ e.Answers belongs w (e.process now state w).2 :=
  fun _ hstate w hw now =>
    Engine.process_keeps hstate (hfeeds e (h.accepts e he) w (hm.has w hw)) now

private theorem Keeps.run (h : x.Keeps k belongs) (hfeeds : k.Feeds belongs) (place : Nat)
    {m : Manifest}
    (hm : k.Covers m) (turns : Schedule) : (x.step (.run place m turns)).Keeps k belongs := by
  rw [step]
  split
  · exact h
  · next e hplace =>
    have he := List.mem_of_getElem? hplace
    have hafter := (Engine.processBy_induction (h.process hfeeds he hm) turns (h.engines e he)).1
    have hrest := h.withTree hafter.entries
    constructor
    · intro other hother
      rcases List.mem_or_eq_of_mem_set hother with hother | rfl
      · exact h.accepts other hother
      · exact h.accepts e he
    · intro other hother
      rcases List.mem_or_eq_of_mem_set hother with hother | rfl
      · exact hrest.engines other hother
      · exact ⟨hafter.fingerprint, hafter.memory, hafter.entries⟩
    · exact hafter.entries

/-- A request within the scope preserves the invariant. -/
theorem Keeps.step (h : x.Keeps k belongs) (hfeeds : k.Feeds belongs) {r : Request}
    (hr : k.Allows r) : (x.step r).Keeps k belongs := by
  cases r with
  | create s => exact h.create hr
  | run place m turns => exact h.run hfeeds place hr turns

/-- Requests within the scope preserve the invariant. -/
theorem Keeps.after (h : x.Keeps k belongs) (hfeeds : k.Feeds belongs) {requests : List Request}
    (hrequests : ∀ r ∈ requests, k.Allows r) : (x.after requests).Keeps k belongs := by
  induction requests generalizing x with
  | nil => exact h
  | cons r requests ih =>
    obtain ⟨hr, hrest⟩ := List.forall_mem_cons.mp hrequests
    exact ih (h.step hfeeds hr) hrest

/-- A site without engines, where no file holds an entry, keeps to any keys. -/
theorem keeps_of_empty {tree : FileTree} (h : tree.EntriesBelong fun _ => False) :
    (Site.mk [] tree).Keeps k belongs :=
  ⟨List.forall_mem_nil _, List.forall_mem_nil _,
    fun d key t hk hnode ht => (h d key t hk hnode ht).elim⟩

end Site

end DocContract
