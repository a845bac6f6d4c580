import DocContract.Cache
import DocContract.Proofs.FileTree

/-!
# What a cache answers

A cache answers only with what was put under the same key before, in memory or in the file of the
key. Two keys never share a file. So whatever holds of everything that is put under its key holds of
everything that is answered.
-/

namespace DocContract

open Text

/-! ### Files of keys -/

namespace CacheKey

/-- The key is the digest of some text. -/
def IsDigest (key : CacheKey) : Prop := ∃ t, key = ofText t

private theorem isHexDigit_of_mem_hexWord {w : UInt32} {c : Char} (h : c ∈ Sha256.hexWord w) :
    ∃ n, n < 16 ∧ c = Nat.digitChar n := by
  obtain ⟨i, -, rfl⟩ := List.mem_map.mp h
  exact ⟨_, Nat.mod_lt _ (by decide), rfl⟩

/-- A digest is written in hexadecimal digits. -/
theorem isHexDigit_of_mem {t : Text} {c : Char} (h : c ∈ (ofText t).hex) :
    ∃ n, n < 16 ∧ c = Nat.digitChar n := by
  simp only [ofText, Sha256.hex, List.mem_append] at h
  rcases h with ((((((h | h) | h) | h) | h) | h) | h) | h <;> exact isHexDigit_of_mem_hexWord h

/-- The name of the file of a key. -/
def fileName (key : CacheKey) : Text := key.hex ++ ".json"

/-- Different keys have different entry files. -/
theorem fileName_inj {key other : CacheKey} (h : key.fileName = other.fileName) : key = other := by
  cases key
  cases other
  exact congrArg CacheKey.mk (List.append_cancel_right h)

/-- The name of an entry file is a single name. -/
theorem IsDigest.isFileName {key : CacheKey} (h : key.IsDigest) :
    FileTree.IsFileName key.fileName := by
  obtain ⟨t, rfl⟩ := h
  have hlength : (ofText t).fileName.length = (ofText t).hex.length + 5 := List.length_append
  have hdigit : ∀ n : Fin 16, Nat.digitChar n.val ≠ '/' ∧ (Nat.digitChar n.val).toNat ≠ 0 := by
    decide
  have hsuffix : ∀ c ∈ (".json" : Text), c ≠ '/' ∧ c.toNat ≠ 0 :=
    forall_mem_of_all (by decide)
  have hchar : ∀ c ∈ (ofText t).fileName, c ≠ '/' ∧ c.toNat ≠ 0 := by
    intro c hc
    rcases List.mem_append.mp hc with hc | hc
    · obtain ⟨n, hn, rfl⟩ := isHexDigit_of_mem hc
      exact hdigit ⟨n, hn⟩
    · exact hsuffix c hc
  refine ⟨?_, ?_, ?_, fun hc => (hchar _ hc).1 rfl, fun c hc => (hchar c hc).2⟩
  all_goals
    intro h
    rw [h] at hlength
    simp only [List.length_cons, List.length_nil] at hlength
    omega

end CacheKey

namespace ResultCache

variable {c : ResultCache} {tree : FileTree} {key : CacheKey}

/-- An entry is found in the files when the cache has a directory whose file for the key reads as
the entry. -/
theorem stored?_eq_some {e : CacheEntry} : c.stored? tree key = some e
    ↔ ∃ dir, c.dir? = some dir ∧ ∃ t, tree.read (Path.append dir key.fileName) = .ok t
      ∧ CacheEntry.ofText? t = some e := by
  unfold stored? entryPath?
  cases c.dir? with
  | none => simp
  | some dir =>
    have hfile : key.hex ++ ".json" = key.fileName := rfl
    rw [Option.map_some, Option.bind_some, hfile]
    simp only [Option.some.injEq, exists_eq_left']
    cases tree.read (Path.append dir key.fileName) with
    | error failure => simp
    | ok t => simp

/-- What is remembered under a key is found under it and hides no other key. -/
theorem lookup_remember (memory : List (CacheKey × CacheEntry)) (key other : CacheKey)
    (e : CacheEntry) :
    (remember memory key e).lookup other = if other = key then some e else memory.lookup other := by
  have h := lookup_put memory key other e
  by_cases ho : other = key
  · rw [if_pos ho]
    rw [if_pos (beq_iff_eq.mpr ho)] at h
    exact h
  · rw [if_neg ho]
    rw [if_neg fun hb => ho (beq_iff_eq.mp hb)] at h
    exact h

/-- An entry that is kept in a file reads back as it was written. -/
def ReadsBack (e : CacheEntry) : Prop := CacheEntry.ofText? e.toJson.compact = some e

/-- Writing an entry leaves every directory in place. -/
theorem directoriesWithin_persist (hk : key.IsDigest) (e : CacheEntry) :
    tree.DirectoriesWithin (c.persist tree key e) := by
  unfold persist
  split
  · exact .refl tree
  · next file hfile =>
    split
    · exact .refl tree
    · next tree' hw =>
      obtain ⟨dir, -, rfl⟩ := Option.map_eq_some_iff.mp hfile
      exact FileTree.directoriesWithin_write hk.isFileName hw

/-- After an entry is written, the file of its key holds it and the file of any other key holds what
it held; a file that could not be written may hold an older entry. -/
theorem stored?_persist {other : CacheKey} {e old : CacheEntry} (hk : key.IsDigest)
    (ho : other.IsDigest) (hread : c.dir?.isSome → ReadsBack e)
    (h : c.stored? (c.persist tree key e) other = some old) :
    c.stored? tree other = some old ∨ other = key ∧ old = e := by
  unfold persist at h
  split at h
  · exact .inl h
  · next file hfile =>
    split at h
    · exact .inl h
    · next tree' hw =>
      obtain ⟨dir, hdir, rfl⟩ := Option.map_eq_some_iff.mp hfile
      obtain ⟨dir', hdir', t, ht, hold⟩ := stored?_eq_some.mp h
      rw [hdir] at hdir'
      cases hdir'
      rw [FileTree.read_write hk.isFileName ho.isFileName hw] at ht
      split at ht
      · next hname =>
        right
        have hback : ReadsBack e := hread (by rw [hdir]; rfl)
        rw [ht, hback] at hold
        exact ⟨CacheKey.fileName_inj hname, (Option.some.inj hold).symm⟩
      · exact .inl (stored?_eq_some.mpr ⟨dir, hdir, t, ht, hold⟩)

/-! ### Opening a cache -/

/-- A cache that was opened is empty. -/
theorem eq_of_openIn {s : Settings} {before : FileTree} (h : openIn before s = (tree, .ok c)) :
    c = { inMemory s with dir? := s.cache.dir? } := by
  unfold openIn at h
  split at h
  · next hdir =>
    obtain ⟨-, hc⟩ := Prod.mk.inj h
    rw [hdir, ← Except.ok.inj hc]
    rfl
  · next dir hdir =>
    split at h
    · cases h
    · obtain ⟨-, hc⟩ := Prod.mk.inj h
      rw [hdir, ← Except.ok.inj hc]

/-- Opening a cache where no directory was taken away since changes no file and gives the same
cache. -/
theorem openIn_again {s : Settings} {before later : FileTree}
    (h : openIn before s = (tree, .ok c)) (hlater : tree.DirectoriesWithin later) :
    openIn later s = (later, .ok c) := by
  unfold openIn at h ⊢
  split at h
  · obtain ⟨-, hc⟩ := Prod.mk.inj h
    rw [hc]
  · next dir hdir =>
    split at h
    · cases h
    · next made hmake =>
      obtain ⟨rfl, hc⟩ := Prod.mk.inj h
      rw [FileTree.makeDirs_again hmake hlater, hc]

/-! ### Sound caches -/

/-- Every entry of the cache, in memory or in a file, holds findings that belong to its key. -/
structure Sound (belongs : CacheKey → List Diagnostic → Prop) (c : ResultCache) (tree : FileTree) :
    Prop where
  memory : ∀ key e, c.memory.lookup key = some e → belongs key e.diagnostics
  stored : ∀ key e, key.IsDigest → c.stored? tree key = some e → belongs key e.diagnostics

variable {belongs : CacheKey → List Diagnostic → Prop}

/-- An empty cache over files that hold no entries is sound. -/
theorem sound_of_empty (hm : c.memory = []) (hs : ∀ key, c.stored? tree key = none) :
    c.Sound belongs tree := by
  constructor
  · intro key e h
    rw [hm] at h
    cases h
  · intro key e _ h
    rw [hs key] at h
    cases h

/-- Remembering findings that belong to their key keeps a cache sound. -/
theorem Sound.remember (h : c.Sound belongs tree) {e : CacheEntry}
    (he : belongs key e.diagnostics) :
    Sound belongs { c with memory := remember c.memory key e } tree := by
  refine ⟨fun other old hl => ?_, h.stored⟩
  rw [lookup_remember] at hl
  split at hl
  · next hk =>
    cases hl
    rw [hk]
    exact he
  · exact h.memory other old hl

/-- Asking a sound cache leaves it sound, and what it answers belongs to the key. -/
theorem Sound.get (h : c.Sound belongs tree) (hk : key.IsDigest) (modified? : Option Instant) :
    (c.get tree key modified?).1.Sound belongs tree
      ∧ ∀ ds ∈ (c.get tree key modified?).2, belongs key ds := by
  unfold ResultCache.get
  split
  · next e he =>
    refine ⟨⟨h.memory, h.stored⟩, fun ds hds => ?_⟩
    cases hds
    exact h.memory key e (Option.filter_eq_some_iff.mp he).1
  · split
    · next e he =>
      have hbelongs := h.stored key e hk (Option.filter_eq_some_iff.mp he).1
      have hremember := h.remember hbelongs
      refine ⟨⟨hremember.memory, hremember.stored⟩, fun ds hds => ?_⟩
      cases hds
      exact hbelongs
    · exact ⟨⟨h.memory, h.stored⟩, nofun⟩

/-- Putting findings under a key that they belong to leaves a cache sound. -/
theorem Sound.put (h : c.Sound belongs tree) (hk : key.IsDigest) {ds : List Diagnostic}
    {now : Instant} (hds : belongs key ds) (hread : c.dir?.isSome → ReadsBack ⟨ds, now⟩) :
    (c.put tree key ds now).1.Sound belongs (c.put tree key ds now).2 := by
  have hremember := h.remember (e := ⟨ds, now⟩) hds
  refine ⟨hremember.memory, fun other old ho hs => ?_⟩
  rcases stored?_persist hk ho hread hs with hs | ⟨rfl, rfl⟩
  · exact h.stored other old ho hs
  · exact hds

/-- What is in memory is answered if it counts. -/
theorem get_of_lookup (tree : FileTree) {e : CacheEntry} {modified? : Option Instant}
    (h : c.memory.lookup key = some e) (hfresh : e.isFresh modified? = true) :
    (c.get tree key modified?).2 = some e.diagnostics := by
  unfold ResultCache.get
  rw [h, Option.filter_some, if_pos hfresh]

/-- What is in the file alone is answered if it counts. -/
theorem get_of_stored {e : CacheEntry} {modified? : Option Instant}
    (hmemory : c.memory.lookup key = none) (h : c.stored? tree key = some e)
    (hfresh : e.isFresh modified? = true) :
    (c.get tree key modified?).2 = some e.diagnostics := by
  unfold ResultCache.get
  rw [hmemory, h, Option.filter_none, Option.filter_some, if_pos hfresh]

/-- A lookup changes neither the digest of the settings nor the directory. -/
theorem get_settings (tree : FileTree) (key : CacheKey) (modified? : Option Instant) :
    (c.get tree key modified?).1.fingerprint = c.fingerprint
      ∧ (c.get tree key modified?).1.dir? = c.dir? := by
  unfold ResultCache.get
  split
  · exact ⟨rfl, rfl⟩
  · split <;> exact ⟨rfl, rfl⟩

end ResultCache

end DocContract
