import DocContract.Proofs.Cache.Sound

/-!
# Files of entries

What a cache does to the files of its directory: writing an entry changes the file of its key and no
other, and clearing leaves no file with an entry. Neither takes a directory away, and both do the
same for every cache with the directory.
-/

namespace DocContract

open Text

/-- The file of a key has the extension of an entry. -/
theorem CacheKey.IsDigest.extension? {key : CacheKey} (h : key.IsDigest) :
    Path.extension? key.fileName = some "json".toList := by
  have hname : Path.fileName? key.fileName = some key.fileName := h.isFileName.fileName?
  obtain ⟨t, rfl⟩ := h
  have hdot : '.' ∉ (ofText t).hex := by
    intro hc
    obtain ⟨n, hn, hdigit⟩ := isHexDigit_of_mem hc
    have hne : ∀ n : Fin 16, '.' ≠ Nat.digitChar n.val := by decide
    exact hne ⟨n, hn⟩ hdigit
  have hhex : (ofText t).hex.isEmpty = false := rfl
  have hsplit : Text.splitOn '.' (ofText t).fileName = [(ofText t).hex, "json"] := by
    have hfile : (ofText t).fileName = (ofText t).hex ++ '.' :: "json" := rfl
    rw [hfile, splitOn_append, splitOn_of_not_mem hdot, splitOn_of_not_mem (by decide)]
    rfl
  rw [Path.extension?, hname]
  simp only [hsplit, List.reverse_cons, List.reverse_nil, List.nil_append, List.singleton_append,
    hhex, Bool.false_and, Bool.false_eq_true, if_false]

namespace ResultCache

variable {c : ResultCache} {tree tree' : FileTree} {dir : Path}

/-- Can an entry be written into the file of its key, if the cache uses files? -/
def canPersist (c : ResultCache) (tree : FileTree) (key : CacheKey) (e : CacheEntry) : Bool :=
  match c.entryPath? key with
  | none => true
  | some file => (tree.write file e.toJson.compact).isOk

/-- The file of an entry that is written holds it, and the file of any other key what it held. -/
theorem stored?_persist_eq {key other : CacheKey} {e : CacheEntry} (hk : key.IsDigest)
    (ho : other.IsDigest) (hread : ReadsBack e) (hdir : c.dir?.isSome = true)
    (hw : c.canPersist tree key e = true) :
    c.stored? (c.persist tree key e) other
      = if other = key then some e else c.stored? tree other := by
  obtain ⟨dir, hdir⟩ := Option.isSome_iff_exists.mp hdir
  have hfile : c.entryPath? key = some (Path.append dir key.fileName) := by
    rw [entryPath?, hdir]
    rfl
  unfold canPersist at hw
  unfold persist
  rw [hfile] at hw ⊢
  dsimp only at hw ⊢
  cases hwrite : tree.write (Path.append dir key.fileName) e.toJson.compact with
  | error cause =>
    rw [hwrite] at hw
    cases hw
  | ok tree' =>
    dsimp only
    ext old
    rw [stored?_eq_some]
    simp only [hdir, Option.some.injEq, exists_eq_left',
      FileTree.read_write hk.isFileName ho.isFileName hwrite]
    by_cases hkey : other = key
    · have hback : CacheEntry.ofText? e.toJson.compact = some e := hread
      simp [hkey, hback]
    · have hname : other.fileName ≠ key.fileName := fun h => hkey (CacheKey.fileName_inj h)
      rw [if_neg hkey, stored?_eq_some]
      simp [hname, hdir]

/-- A cache without a directory finds nothing in the files. -/
theorem stored?_of_dir_none (h : c.dir? = none) (tree : FileTree) (key : CacheKey) :
    c.stored? tree key = none := by
  rw [stored?, entryPath?, h]
  rfl

/-- No entry is kept where there is no file. -/
theorem stored?_of_node_none {key : CacheKey} {d : Location} (hk : key.IsDigest)
    (hdir : c.dir? = some dir) (hd : tree.directory? dir = some d)
    (hnode : tree.node? (d ++ [key.fileName]) = none) : c.stored? tree key = none := by
  refine Option.eq_none_iff_forall_ne_some.mpr fun e he => ?_
  obtain ⟨dir', hdir', t, ht, -⟩ := stored?_eq_some.mp he
  obtain rfl := Option.some.inj (hdir.symm.trans hdir')
  obtain ⟨d', hd', hfile⟩ := (FileTree.read_eq_ok hk.isFileName).mp ht
  obtain rfl := Option.some.inj (hd.symm.trans hd')
  rw [hnode] at hfile
  cases hfile

/-! ### Clearing -/

/-- One tree comes of another by taking files away: all directories remain. -/
structure Removes (tree tree' : FileTree) : Prop where
  within : tree.DirectoriesWithin tree'
  node : ∀ l, tree.node? l = none → tree'.node? l = none

private theorem Removes.refl (tree : FileTree) : Removes tree tree := ⟨.refl tree, fun _ hl => hl⟩

private theorem Removes.trans {later : FileTree} (h : Removes tree tree')
    (hl : Removes tree' later) : Removes tree later :=
  ⟨h.within.trans hl.within, fun l hnode => hl.node l (h.node l hnode)⟩

private theorem removes_remove {d : Location} {name : Text} (hd : tree.directory? dir = some d)
    (h : tree.remove (Path.append dir name) = .ok tree') :
    Removes tree tree' ∧ (FileTree.IsFileName name → tree'.node? (d ++ [name]) = none) := by
  obtain ⟨l, hl, hnode, rfl⟩ := FileTree.remove_eq_ok h
  refine ⟨⟨FileTree.directoriesWithin_erase hnode, fun m hm => ?_⟩, fun hfile => ?_⟩
  · rw [FileTree.node?_erase, hm, ite_self]
  · obtain ⟨d', hd', rfl⟩ := (FileTree.locate_eq_ok hfile).mp hl
    obtain rfl := Option.some.inj (hd.symm.trans hd')
    rw [FileTree.node?_erase, if_pos rfl]

/-- Of the files with the extension of an entry none is left. -/
theorem removeEntries_eq_none {d : Location} {names : List Text}
    (hd : tree.directory? dir = some d) (h : removeEntries dir tree names = (tree', none)) :
    Removes tree tree' ∧ ∀ name ∈ names, FileTree.IsFileName name →
      Path.extension? name = some "json".toList → tree'.node? (d ++ [name]) = none := by
  induction names generalizing tree with
  | nil =>
    cases h
    exact ⟨.refl _, fun _ h => absurd h List.not_mem_nil⟩
  | cons first names ih =>
    rw [removeEntries] at h
    split at h
    · split at h
      · cases h
      · next smaller hremove =>
        obtain ⟨hfirst, hgone⟩ := removes_remove hd hremove
        obtain ⟨hlater, hnames⟩ := ih (hfirst.within.directory? hd) h
        refine ⟨hfirst.trans hlater, List.forall_mem_cons.mpr ⟨fun hfile _ => ?_, hnames⟩⟩
        exact hlater.node _ (hgone hfile)
    · next hother =>
      obtain ⟨hlater, hnames⟩ := ih hd h
      refine ⟨hlater, List.forall_mem_cons.mpr ⟨fun _ hjson => ?_, hnames⟩⟩
      exact absurd (beq_iff_eq.mpr hjson) hother

/-- Clearing empties both levels. -/
theorem clear_eq_none {cleared : ResultCache} (h : c.clear tree = (cleared, tree', none)) :
    cleared = { c with memory := [] } ∧ tree.DirectoriesWithin tree'
      ∧ ∀ key : CacheKey, key.IsDigest → c.stored? tree' key = none := by
  unfold clear at h
  split at h
  · next hdir =>
    cases h
    exact ⟨rfl, .refl tree, fun key _ => stored?_of_dir_none hdir tree key⟩
  · next dir hdir =>
    split at h
    · cases h
    · next names hlist =>
      obtain ⟨d, hd, rfl⟩ := FileTree.directory?_of_list hlist
      obtain ⟨hc, hrest⟩ := Prod.mk.inj h
      obtain ⟨htree, hcause⟩ := Prod.mk.inj hrest
      have hremove : removeEntries dir tree (tree.namesAt d) = (tree', none) :=
        Prod.ext htree (Option.map_eq_none_iff.mp hcause)
      obtain ⟨hremoves, hgone⟩ := removeEntries_eq_none hd hremove
      refine ⟨hc.symm, hremoves.within, fun key hk => ?_⟩
      refine stored?_of_node_none hk hdir (hremoves.within.directory? hd) ?_
      cases hnode : tree.node? (d ++ [key.fileName]) with
      | none => exact hremoves.node _ hnode
      | some node => exact hgone _ (FileTree.mem_namesAt hnode) hk.isFileName hk.extension?

/-! ### Caches with one directory -/

section Same

variable {c' : ResultCache} (h : c'.dir? = c.dir?) (tree : FileTree)

include h

/-- Whether an entry can be written depends on the directory of the cache alone. -/
theorem canPersist_congr (key : CacheKey) (e : CacheEntry) :
    c'.canPersist tree key e = c.canPersist tree key e := by
  rw [canPersist, canPersist, entryPath?, entryPath?, h]

/-- What is written depends on the directory of the cache alone. -/
theorem persist_congr (key : CacheKey) (e : CacheEntry) :
    c'.persist tree key e = c.persist tree key e := by
  rw [persist, persist, entryPath?, entryPath?, h]

/-- What is found in the files depends on the directory of the cache alone. -/
theorem stored?_congr (key : CacheKey) : c'.stored? tree key = c.stored? tree key := by
  rw [stored?, stored?, entryPath?, entryPath?, h]

/-- Clearing empties the memory and leaves what depends on the directory. -/
theorem clear_congr : c'.clear tree = ({ c' with memory := [] }, (c.clear tree).2) := by
  unfold clear
  rw [h]
  split
  · rfl
  · split <;> rfl

end Same

end ResultCache

end DocContract
