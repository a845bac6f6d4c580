import DocContract.Proofs.Cache.Event
import DocContract.Proofs.Cache.Files

/-!
# A cache is a map

As long as the file operations succeed, a cache answers as a plain map from keys to entries would,
whether its entries are in memory or in files. The invariant relates the two levels to the map: the
memory holds nothing that the map does not hold, and without a directory all of it; with one, the
file of each key holds the entry of that key.
-/

namespace DocContract

open Text

/-! ### Sessions -/

/-- A cache, the files around it and what it has answered since it was opened, in order. -/
structure CacheSession where
  cache : ResultCache
  tree : FileTree
  answers : List (Option (List Diagnostic)) := []

namespace CacheSession

/-- The session after an event, if its file operations succeed. -/
def step? (s : Settings) (st : CacheSession) : CacheEvent → Option CacheSession
  | .put key ds now =>
    if st.cache.canPersist st.tree key ⟨ds, now⟩ then
      let (cache, tree) := st.cache.put st.tree key ds now
      some { st with cache, tree }
    else none
  | .get key modified? =>
    let (cache, answer) := st.cache.get st.tree key modified?
    some { st with cache, answers := st.answers ++ [answer] }
  | .clear =>
    match st.cache.clear st.tree with
    | (cache, tree, none) => some { st with cache, tree }
    | (_, _, some _) => none
  | .reopen =>
    match ResultCache.openIn st.tree s with
    | (tree, .ok cache) => some { cache, tree }
    | (_, .error _) => none

/-- The session after some events, if all their file operations succeed. -/
def run? (s : Settings) (st : CacheSession) : List CacheEvent → Option CacheSession
  | [] => some st
  | event :: es => (st.step? s event).bind fun st => st.run? s es

private theorem run?_append (s : Settings) (st : CacheSession) (es es' : List CacheEvent) :
    st.run? s (es ++ es') = (st.run? s es).bind fun st => st.run? s es' := by
  induction es generalizing st with
  | nil => rfl
  | cons event es ih =>
    rw [List.cons_append, run?, run?, Option.bind_assoc]
    congr 1
    funext st
    exact ih st

/-! ### What a step does -/

section Steps

variable {s : Settings} {st st' : CacheSession}

private theorem step?_put {key : CacheKey} {ds : List Diagnostic} {now : Instant}
    (h : st.step? s (.put key ds now) = some st') :
    st.cache.canPersist st.tree key ⟨ds, now⟩ = true
      ∧ st' = ⟨(st.cache.put st.tree key ds now).1, (st.cache.put st.tree key ds now).2,
        st.answers⟩ := by
  rw [step?] at h
  split at h
  · next hw => exact ⟨hw, (Option.some.inj h).symm⟩
  · cases h

private theorem step?_clear (h : st.step? s .clear = some st') : ∃ cache tree,
    st.cache.clear st.tree = (cache, tree, none) ∧ st' = ⟨cache, tree, st.answers⟩ := by
  rw [step?] at h
  split at h
  · next cache tree hclear => exact ⟨cache, tree, hclear, (Option.some.inj h).symm⟩
  · cases h

private theorem step?_reopen (h : st.step? s .reopen = some st') : ∃ cache tree,
    ResultCache.openIn st.tree s = (tree, .ok cache) ∧ st' = ⟨cache, tree, []⟩ := by
  rw [step?] at h
  split at h
  · next tree cache hopen => exact ⟨cache, tree, hopen, (Option.some.inj h).symm⟩
  · cases h

end Steps

/-! ### The invariant -/

/-- The session holds what the map holds, in memory and in the files. -/
structure Represents (s : Settings) (map : CacheKey → Option CacheEntry) (st : CacheSession) :
    Prop where
  dir : st.cache.dir? = s.cache.dir?
  /-- The memory holds nothing else. -/
  memory : ∀ key e, st.cache.memory.lookup key = some e → map key = some e
  /-- Without a directory the memory holds everything. -/
  all : s.cache.dir? = none → ∀ key e, map key = some e → st.cache.memory.lookup key = some e
  /-- With a directory the files hold everything. -/
  files : s.cache.dir?.isSome = true → ∀ key : CacheKey, key.IsDigest →
    st.cache.stored? st.tree key = map key
  /-- Opening the cache anew changes no file. -/
  opens : ResultCache.openIn st.tree s
    = (st.tree, .ok { ResultCache.inMemory s with dir? := s.cache.dir? })

variable {s : Settings} {map : CacheKey → Option CacheEntry} {st st' : CacheSession}

namespace Represents

variable (h : st.Represents s map) {key : CacheKey}
include h

private theorem stored_le (hk : key.IsDigest) {e : CacheEntry}
    (he : st.cache.stored? st.tree key = some e) : map key = some e := by
  cases hdir : s.cache.dir? with
  | none =>
    rw [ResultCache.stored?_of_dir_none (h.dir.trans hdir)] at he
    cases he
  | some dir => rw [← h.files (by rw [hdir]; rfl) key hk, he]

/-- A key is answered as the map answers it. -/
theorem answer_eq (hk : key.IsDigest) (modified? : Option Instant) :
    (st.cache.get st.tree key modified?).2
      = ((map key).filter (CacheEntry.isFresh modified?)).map CacheEntry.diagnostics := by
  unfold ResultCache.get
  split
  · next e he =>
    obtain ⟨hmemory, hfresh⟩ := Option.filter_eq_some_iff.mp he
    rw [h.memory key e hmemory, Option.filter_some, hfresh]
    rfl
  · next hmemory =>
    split
    · next e he =>
      obtain ⟨hstored, hfresh⟩ := Option.filter_eq_some_iff.mp he
      rw [h.stored_le hk hstored, Option.filter_some, hfresh]
      rfl
    · next hstored =>
      -- Whatever the map holds is in the memory or in the file of the key.
      cases hmap : map key with
      | none => rfl
      | some e =>
        cases hdir : s.cache.dir? with
        | none => rw [← h.all hdir key e hmap, hmemory]; rfl
        | some dir => rw [← hmap, ← h.files (by rw [hdir]; rfl) key hk, hstored]; rfl

private theorem get (hk : key.IsDigest) (modified? : Option Instant)
    (answers : List (Option (List Diagnostic))) :
    Represents s map ⟨(st.cache.get st.tree key modified?).1, st.tree, answers⟩ := by
  unfold ResultCache.get
  split
  · exact ⟨h.dir, h.memory, h.all, h.files, h.opens⟩
  · split
    · next e he =>
      have hmap : map key = some e := h.stored_le hk (Option.filter_eq_some_iff.mp he).1
      refine ⟨h.dir, fun other old hold => ?_, fun hdir other old hold => ?_, h.files, h.opens⟩
      · rw [ResultCache.lookup_remember] at hold
        split at hold
        · next heq => rw [heq, hmap, hold]
        · exact h.memory other old hold
      · rw [ResultCache.lookup_remember]
        split
        · next heq => rw [← hmap, ← heq, hold]
        · exact h.all hdir other old hold
    · exact ⟨h.dir, h.memory, h.all, h.files, h.opens⟩

private theorem put (hk : key.IsDigest) {ds : List Diagnostic} (hds : ∀ d ∈ ds, d.InRange)
    {now : Instant}
    (hw : st.cache.canPersist st.tree key ⟨ds, now⟩ = true) :
    Represents s (CacheEvent.apply s.cache.dir?.isSome map (.put key ds now))
      ⟨(st.cache.put st.tree key ds now).1, (st.cache.put st.tree key ds now).2, st.answers⟩ := by
  have hread : ResultCache.ReadsBack ⟨ds, now⟩ := CacheEntry.ofText?_compact hds
  refine ⟨h.dir, fun other e he => ?_, fun hdir other e he => ?_, fun hdir other ho => ?_,
    ResultCache.openIn_again h.opens (ResultCache.directoriesWithin_persist hk _)⟩
  · rw [ResultCache.put, ResultCache.lookup_remember] at he
    rw [CacheEvent.apply_put]
    split
    · next heq => rwa [if_pos heq] at he
    · next hne =>
      rw [if_neg hne] at he
      exact h.memory other e he
  · rw [CacheEvent.apply_put] at he
    rw [ResultCache.put, ResultCache.lookup_remember]
    split
    · next heq => rwa [if_pos heq] at he
    · next hne =>
      rw [if_neg hne] at he
      exact h.all hdir other e he
  · have hpersist := ResultCache.stored?_persist_eq hk ho hread (h.dir ▸ hdir) hw
    rw [CacheEvent.apply_put, ← h.files hdir other ho]
    exact hpersist

private theorem clear {cleared : ResultCache} {tree' : FileTree}
    (hclear : st.cache.clear st.tree = (cleared, tree', none)) :
    Represents s (fun _ => none) ⟨cleared, tree', st.answers⟩ := by
  obtain ⟨rfl, hwithin, hnone⟩ := ResultCache.clear_eq_none hclear
  exact ⟨h.dir, by simp, by simp, fun _ key hk => hnone key hk,
    ResultCache.openIn_again h.opens hwithin⟩

private theorem reopen {cache : ResultCache} {tree' : FileTree}
    (hopen : ResultCache.openIn st.tree s = (tree', .ok cache)) :
    Represents s (CacheEvent.apply s.cache.dir?.isSome map .reopen) ⟨cache, tree', []⟩ := by
  rw [h.opens] at hopen
  obtain ⟨rfl, hcache⟩ := Prod.mk.inj hopen
  obtain rfl := Except.ok.inj hcache
  refine ⟨rfl, by simp [ResultCache.inMemory], fun hdir => ?_, fun hdir key hk => ?_, h.opens⟩
  · simp [CacheEvent.apply, hdir]
  · rw [CacheEvent.apply, if_pos hdir, ← h.files hdir key hk, ResultCache.stored?,
      ResultCache.stored?, ResultCache.entryPath?, ResultCache.entryPath?, h.dir]

private theorem step {event : CacheEvent} (hevent : event.IsProper)
    (hstep : st.step? s event = some st') :
    st'.Represents s (event.apply s.cache.dir?.isSome map) := by
  cases event with
  | put key ds now =>
    obtain ⟨hw, rfl⟩ := step?_put hstep
    exact h.put hevent.1 hevent.2 hw
  | get key modified? =>
    cases hstep
    exact h.get hevent modified? _
  | clear =>
    obtain ⟨cache, tree, hclear, rfl⟩ := step?_clear hstep
    exact h.clear hclear
  | reopen =>
    obtain ⟨cache, tree, hopen, rfl⟩ := step?_reopen hstep
    exact h.reopen hopen

/-- After any events the session holds what the map holds after them. -/
theorem run {es : List CacheEvent} (hes : ∀ event ∈ es, event.IsProper)
    (hrun : st.run? s es = some st') :
    st'.Represents s (es.foldl (CacheEvent.apply s.cache.dir?.isSome) map) := by
  induction es generalizing st map with
  | nil =>
    cases hrun
    exact h
  | cons event es ih =>
    obtain ⟨hevent, hrest⟩ := List.forall_mem_cons.mp hes
    obtain ⟨next, hstep, hnext⟩ := Option.bind_eq_some_iff.mp hrun
    exact ih (h.step hevent hstep) hrest hnext

end Represents

/-! ### Events that change no file -/

/-- Two sessions with the same files. -/
structure SameFiles (a b : CacheSession) : Prop where
  tree : b.tree = a.tree
  dir : b.cache.dir? = a.cache.dir?

/-- Sessions with the same files do the same to them. -/
theorem SameFiles.step {a b a' : CacheSession} (h : a.SameFiles b) {event : CacheEvent}
    (hstep : a.step? s event = some a') : ∃ b', b.step? s event = some b' ∧ a'.SameFiles b' := by
  cases event with
  | put key ds now =>
    obtain ⟨hw, rfl⟩ := step?_put hstep
    rw [step?, h.tree, ResultCache.canPersist_congr h.dir, if_pos hw]
    exact ⟨_, rfl, ResultCache.persist_congr h.dir a.tree key ⟨ds, now⟩, h.dir⟩
  | get key modified? =>
    cases hstep
    have hdir : ∀ c : ResultCache, ∀ tree, (c.get tree key modified?).1.dir? = c.dir? :=
      fun c tree => (c.get_settings tree key modified?).2
    exact ⟨_, rfl, h.tree, (hdir b.cache b.tree).trans (h.dir.trans (hdir a.cache a.tree).symm)⟩
  | clear =>
    obtain ⟨cache, tree, hclear, rfl⟩ := step?_clear hstep
    have hdir : cache.dir? = a.cache.dir? := by
      rw [(ResultCache.clear_eq_none hclear).1]
    rw [step?, h.tree, ResultCache.clear_congr h.dir, hclear]
    exact ⟨_, rfl, rfl, h.dir.trans hdir.symm⟩
  | reopen =>
    obtain ⟨cache, tree, hopen, rfl⟩ := step?_reopen hstep
    rw [step?, h.tree, hopen]
    exact ⟨_, rfl, rfl, rfl⟩

private theorem SameFiles.run {a b a' : CacheSession} (h : a.SameFiles b) {es : List CacheEvent}
    (hrun : a.run? s es = some a') : ∃ b', b.run? s es = some b' := by
  induction es generalizing a b with
  | nil => exact ⟨b, rfl⟩
  | cons event es ih =>
    obtain ⟨next, hstep, hnext⟩ := Option.bind_eq_some_iff.mp hrun
    obtain ⟨next', hstep', hsame⟩ := h.step hstep
    obtain ⟨b', hb'⟩ := ih hsame hnext
    exact ⟨b', Option.bind_eq_some_iff.mpr ⟨next', hstep', hb'⟩⟩

/-- Events succeed without a question among them. -/
theorem run?_without_get {front back : List CacheEvent} {key : CacheKey}
    {modified? : Option Instant}
    (hrun : st.run? s (front ++ .get key modified? :: back) = some st') :
    ∃ other, st.run? s (front ++ back) = some other := by
  rw [run?_append] at hrun ⊢
  obtain ⟨asked, hfront, hrest⟩ := Option.bind_eq_some_iff.mp hrun
  have hsame : SameFiles ⟨(asked.cache.get asked.tree key modified?).1, asked.tree,
      asked.answers ++ [(asked.cache.get asked.tree key modified?).2]⟩ asked :=
    ⟨rfl, (ResultCache.get_settings _ _ _).2.symm⟩
  obtain ⟨other, hother⟩ := hsame.run hrest
  exact ⟨other, Option.bind_eq_some_iff.mpr ⟨asked, hfront, hother⟩⟩

/-! ### Statistics -/

/-- The hits and misses are those of the answers. -/
structure Counts (st : CacheSession) : Prop where
  hits : st.cache.hits = st.answers.countP Option.isSome
  misses : st.cache.misses = st.answers.countP Option.isNone

private theorem Counts.get (h : st.Counts) (key : CacheKey) (modified? : Option Instant) :
    Counts ⟨(st.cache.get st.tree key modified?).1, st.tree,
      st.answers ++ [(st.cache.get st.tree key modified?).2]⟩ := by
  obtain ⟨hhits, hmisses⟩ := h
  unfold ResultCache.get
  split
  · exact ⟨by simp [hhits], by simp [hmisses]⟩
  · split <;> exact ⟨by simp [hhits], by simp [hmisses]⟩

private theorem Counts.step (h : st.Counts) {event : CacheEvent}
    (hstep : st.step? s event = some st') : st'.Counts := by
  cases event with
  | put key ds now =>
    obtain ⟨-, rfl⟩ := step?_put hstep
    exact ⟨h.hits, h.misses⟩
  | get key modified? =>
    cases hstep
    exact h.get key modified?
  | clear =>
    obtain ⟨cache, tree, hclear, rfl⟩ := step?_clear hstep
    rw [(ResultCache.clear_eq_none hclear).1]
    exact ⟨h.hits, h.misses⟩
  | reopen =>
    obtain ⟨cache, tree, hopen, rfl⟩ := step?_reopen hstep
    rw [ResultCache.eq_of_openIn hopen]
    exact ⟨rfl, rfl⟩

private theorem Counts.run (h : st.Counts) {es : List CacheEvent} (hrun : st.run? s es = some st') :
    st'.Counts := by
  induction es generalizing st with
  | nil =>
    cases hrun
    exact h
  | cons event es ih =>
    obtain ⟨next, hstep, hnext⟩ := Option.bind_eq_some_iff.mp hrun
    exact ih (h.step hstep) hnext

/-! ### Histories of a cache -/

private theorem represents_of_openIn {before tree : FileTree} {cache : ResultCache}
    (hopen : ResultCache.openIn before s = (tree, .ok cache))
    (hempty : ∀ key : CacheKey, key.IsDigest → cache.stored? tree key = none) :
    Represents s (fun _ => none) ⟨cache, tree, []⟩ := by
  have hagain := ResultCache.openIn_again hopen (.refl tree)
  obtain rfl := ResultCache.eq_of_openIn hopen
  exact ⟨rfl, by simp [ResultCache.inMemory], by simp, fun _ => hempty, hagain⟩

private theorem isFresh_iff {modified? : Option Instant} {e : CacheEntry} :
    e.isFresh modified? = true ↔ ∀ modified ∈ modified?, e.timestamp.notBefore modified = true := by
  cases modified? <;> simp [CacheEntry.isFresh]

/-- Let a cache be opened where no entries are, and let the file operations of some events succeed.
Then a key is answered with the findings that were put under it last, unless the cache was cleared
since, or opened anew without files, or the findings are older than asked for. An earlier question
changes none of these answers. The hits and misses count the answers since the cache was opened. -/
theorem run?_refines (s : Settings) {before tree : FileTree} {cache : ResultCache}
    (hopen : ResultCache.openIn before s = (tree, .ok cache))
    (hempty : ∀ key : CacheKey, key.IsDigest → cache.stored? tree key = none)
    {es : List CacheEvent} (hes : ∀ event ∈ es, event.IsProper) {st : CacheSession}
    (hrun : run? s ⟨cache, tree, []⟩ es = some st) :
    (∀ (key : CacheKey) modified? ds, key.IsDigest →
      ((st.cache.get st.tree key modified?).2 = some ds ↔
        ∃ time, CacheEvent.IsLastPut s.cache.dir?.isSome es key ⟨ds, time⟩
          ∧ ∀ modified ∈ modified?, time.notBefore modified = true))
      ∧ (∀ front key modified? back, es = front ++ .get key modified? :: back →
        ∃ other, run? s ⟨cache, tree, []⟩ (front ++ back) = some other
          ∧ ∀ (key : CacheKey) modified?, key.IsDigest →
            (other.cache.get other.tree key modified?).2
              = (st.cache.get st.tree key modified?).2)
      ∧ st.cache.hits = st.answers.countP Option.isSome
      ∧ st.cache.misses = st.answers.countP Option.isNone := by
  have hstart := represents_of_openIn hopen hempty
  have hst := hstart.run hes hrun
  refine ⟨fun key modified? ds hk => ?_, ?_, ?_⟩
  · rw [hst.answer_eq hk, Option.map_eq_some_iff]
    constructor
    · rintro ⟨⟨ds, time⟩, he, rfl⟩
      obtain ⟨hmap, hfresh⟩ := Option.filter_eq_some_iff.mp he
      exact ⟨time, CacheEvent.contents_eq_some_iff.mp hmap, isFresh_iff.mp hfresh⟩
    · rintro ⟨time, hlast, hfresh⟩
      exact ⟨⟨ds, time⟩, Option.filter_eq_some_iff.mpr
        ⟨CacheEvent.contents_eq_some_iff.mpr hlast, isFresh_iff.mpr hfresh⟩, rfl⟩
  · rintro front key modified? back rfl
    obtain ⟨other, hother⟩ := run?_without_get hrun
    have hproper : ∀ event ∈ front ++ back, event.IsProper := by
      intro event hevent
      exact hes event (by simp only [List.mem_append, List.mem_cons] at hevent ⊢; tauto)
    have hcontents : CacheEvent.contents s.cache.dir?.isSome (front ++ .get key modified? :: back)
        = CacheEvent.contents s.cache.dir?.isSome (front ++ back) :=
      CacheEvent.contents_without_get front back key modified?
    refine ⟨other, hother, fun key modified? hk => ?_⟩
    unfold CacheEvent.contents at hcontents
    rw [(hstart.run hproper hother).answer_eq hk, hst.answer_eq hk, hcontents]
  · have hcounts : Counts ⟨cache, tree, []⟩ := by
      rw [ResultCache.eq_of_openIn hopen]
      exact ⟨rfl, rfl⟩
    exact ⟨(hcounts.run hrun).hits, (hcounts.run hrun).misses⟩

/-- Settings that keep entries in files. -/
def filedSettings : Settings where
  cache := { enabled := true, dir? := some "d" }

/-- A tree in which the directory of these settings has been made. -/
def madeTree : FileTree := ((FileTree.empty []).makeDirs "d").1

/-- The cache that is opened there. -/
def filedCache : ResultCache := { ResultCache.inMemory filedSettings with dir? := some "d" }

/-- The directory of the example is there. -/
theorem directory?_madeTree : madeTree.directory? "d" = some [['d']] := by decide +kernel

/-- The example tree has no other node. -/
theorem nodes_madeTree : madeTree.nodes = [([], .directory), ([['d']], .directory)] := by
  decide +kernel

/-- There is no entry file in the directory of the example. -/
theorem node?_madeTree (key : CacheKey) : madeTree.node? ([['d']] ++ [key.fileName]) = none := by
  rw [FileTree.node?, nodes_madeTree, List.lookup_eq_none_iff]
  simp

/-- The cache of the example finds nothing in its files. -/
theorem stored?_filedCache (key : CacheKey) (hk : key.IsDigest) :
    filedCache.stored? madeTree key = none :=
  ResultCache.stored?_of_node_none hk rfl directory?_madeTree (node?_madeTree key)

/-- The key of the empty text. -/
def emptyKey : CacheKey := .ofText []

/-- The first instant of a year. -/
def newYear : Instant := ⟨2024, 1, 1, 0, 0, 0, 0, by decide, by decide⟩

/-- What is put, asked for, and asked for again of a cache that was opened anew. -/
def filedEvents : List CacheEvent :=
  [.put emptyKey [.ofCode .missingDoc "a.ts" 1 1 "no doc"] newYear, .get emptyKey none, .reopen,
    .get emptyKey (some newYear)]

/-- The entry is read back from its file. -/
theorem run?_refines_filedEvents :
    ResultCache.openIn (.empty []) filedSettings = (madeTree, .ok filedCache)
      ∧ (∀ key : CacheKey, key.IsDigest → filedCache.stored? madeTree key = none)
      ∧ (∀ event ∈ filedEvents, event.IsProper)
      ∧ ∃ st, run? filedSettings ⟨filedCache, madeTree, []⟩ filedEvents = some st
        ∧ (st.cache.get st.tree emptyKey (some newYear)).2
          = some [.ofCode .missingDoc "a.ts" 1 1 "no doc"] := by
  have hopen : ResultCache.openIn (.empty []) filedSettings = (madeTree, .ok filedCache) := rfl
  have hdigest : emptyKey.IsDigest := ⟨[], rfl⟩
  have hes : ∀ event ∈ filedEvents, event.IsProper := by
    simp only [filedEvents, List.forall_mem_cons]
    exact ⟨⟨hdigest, by decide⟩, hdigest, trivial, hdigest, by simp⟩
  have hsome : (run? filedSettings ⟨filedCache, madeTree, []⟩ filedEvents).isSome = true := by
    decide +kernel
  obtain ⟨st, hrun⟩ := Option.isSome_iff_exists.mp hsome
  refine ⟨hopen, stored?_filedCache, hes, st, hrun, ?_⟩
  obtain ⟨hanswers, -⟩ := run?_refines filedSettings hopen stored?_filedCache hes hrun
  refine (hanswers emptyKey (some newYear) _ hdigest).mpr ⟨newYear, ⟨[], _, rfl, ?_⟩, ?_⟩
  · simp [CacheEvent.supersedes, filedSettings]
  · decide

end CacheSession

end DocContract
