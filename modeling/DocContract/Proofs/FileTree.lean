import DocContract.FileTree
import DocContract.Proofs.Lookup
import DocContract.Proofs.Text.Lines

/-!
# Files of one directory

A file name leads from the directory at a path to the place of that file, so files with different
names in one directory never share a place. Writing a file changes what is read from that file and
nothing else, and a directory that was made is there for good: making it again changes nothing.
-/

namespace DocContract

open Text

namespace FileTree

/-! ### Nodes -/

/-- A node that is set is found at its place and leaves all the others. -/
theorem node?_set (tree : FileTree) (l m : Location) (node : FileNode) :
    (tree.set l node).node? m = if m = l then some node else tree.node? m := by
  have h := lookup_put tree.nodes l m node
  by_cases hml : m = l
  · rw [if_pos hml]
    rw [if_pos (beq_iff_eq.mpr hml)] at h
    exact h
  · rw [if_neg hml]
    rw [if_neg fun hb => hml (beq_iff_eq.mp hb)] at h
    exact h

/-- The trees have the same working directory, and the first has no directory that the second
lacks. -/
structure DirectoriesWithin (tree other : FileTree) : Prop where
  cwd : other.cwd = tree.cwd
  directory : ∀ l, tree.node? l = some .directory → other.node? l = some .directory

/-- A tree has its own directories. -/
theorem DirectoriesWithin.refl (tree : FileTree) : tree.DirectoriesWithin tree :=
  ⟨rfl, fun _ h => h⟩

/-- A tree that keeps the directories of a tree keeps those that it kept. -/
theorem DirectoriesWithin.trans {a b c : FileTree} (hab : a.DirectoriesWithin b)
    (hbc : b.DirectoriesWithin c) : a.DirectoriesWithin c :=
  ⟨hbc.cwd.trans hab.cwd, fun l h => hbc.directory l (hab.directory l h)⟩

/-- A file in a place that is no directory takes no directory away. -/
theorem directoriesWithin_set_file {tree : FileTree} {l : Location}
    (hl : tree.node? l ≠ some .directory) (content? : Option Text) :
    tree.DirectoriesWithin (tree.set l (.file content?)) := by
  refine ⟨rfl, fun m hm => ?_⟩
  rw [node?_set, if_neg]
  · exact hm
  · rintro rfl
    exact hl hm

/-! ### Following names -/

/-- A name that stands for an entry of a directory. -/
structure IsFileName (name : Text) : Prop where
  ne_nil : name ≠ []
  ne_current : name ≠ ['.']
  ne_parent : name ≠ ['.', '.']
  noSeparator : '/' ∉ name
  noNul : ∀ c ∈ name, c.toNat ≠ 0

/-- A single name is the file name of its path. -/
theorem IsFileName.fileName? {name : Text} (h : IsFileName name) :
    Path.fileName? name = some name := by
  have hempty : name.isEmpty = false := List.isEmpty_eq_false_iff.mpr h.ne_nil
  have hcurrent : (name == ['.']) = false := beq_eq_false_iff_ne.mpr h.ne_current
  have hparent : (name == ['.', '.']) = false := beq_eq_false_iff_ne.mpr h.ne_parent
  have hpieces : Path.pieces name = [name] := splitOn_of_not_mem h.noSeparator
  simp [Path.fileName?, Path.components, Path.pieceComponent?, hpieces, hempty, hcurrent, hparent]

private theorem follow_append {tree : FileTree} {l : Location} (names more : List Text) :
    tree.follow l (names ++ more) = (tree.follow l names).bind fun d => tree.follow d more := by
  induction names generalizing l with
  | nil => rfl
  | cons name names ih =>
    rw [List.cons_append, follow, follow]
    cases tree.node? l with
    | none => rfl
    | some node =>
      cases node with
      | file content? => rfl
      | directory =>
        dsimp only
        split
        · exact ih
        · split <;> exact ih

private theorem follow_singleton {tree : FileTree} {d : Location} {name : Text}
    (hn : IsFileName name) : tree.follow d [name] = (tree.follow d [[]]).map (· ++ [name]) := by
  have hempty : ¬ (name.isEmpty || name == ['.']) = true := by
    simpa using ⟨hn.ne_nil, hn.ne_current⟩
  have hparent : ¬ (name == ['.', '.']) = true := by simpa using hn.ne_parent
  cases hd : tree.node? d with
  | none =>
    simp only [follow, hd]
    rfl
  | some node =>
    cases node with
    | file content? =>
      simp only [follow, hd]
      rfl
    | directory =>
      simp only [follow, hd]
      rw [if_neg hempty, if_neg hparent]
      rfl

/-- Where names lead to in a tree they lead to in any tree that has the directories of that one. -/
theorem DirectoriesWithin.follow {tree other : FileTree} (h : tree.DirectoriesWithin other)
    {l m : Location} {names : List Text} (hm : tree.follow l names = .ok m) :
    other.follow l names = .ok m := by
  induction names generalizing l with
  | nil => exact hm
  | cons name names ih =>
    rw [FileTree.follow] at hm ⊢
    cases hl : tree.node? l with
    | none =>
      rw [hl] at hm
      cases hm
    | some node =>
      cases node with
      | file content? =>
        rw [hl] at hm
        cases hm
      | directory =>
        rw [h.directory l hl]
        rw [hl] at hm
        dsimp only at hm ⊢
        split at hm
        · next hname =>
          rw [if_pos hname]
          exact ih hm
        · next hname =>
          rw [if_neg hname]
          split at hm
          · next hname =>
            rw [if_pos hname]
            exact ih hm
          · next hname =>
            rw [if_neg hname]
            exact ih hm

/-! ### The directory at a path -/

/-- The place of the directory at a path, which may be written with or without a separator at its
end. -/
def directory? (tree : FileTree) (dir : Path) : Option Location :=
  if dir.any (·.toNat == 0) then none
  else (tree.follow (tree.start (Path.append dir [])).1
    (tree.start (Path.append dir [])).2).toOption

/-- A path that a file name is put behind ends where the name begins. -/
theorem append_eq (dir : Path) {name : Text} (hn : '/' ∉ name) :
    Path.append dir name = Path.append dir [] ++ name := by
  have hstart : ∀ (r : Text), name ≠ '/' :: r := by
    rintro r rfl
    exact hn List.mem_cons_self
  have hnil : Path.append dir []
      = if dir.isEmpty || dir.getLast? = some '/' then dir ++ [] else dir ++ ['/'] ++ [] := rfl
  rw [hnil]
  unfold Path.append
  split
  · next r => exact absurd rfl (hstart r)
  · split <;> simp

private theorem append_nil_cases (dir : Path) :
    Path.append dir [] = [] ∨ ∃ front, Path.append dir [] = front ++ ['/'] := by
  unfold Path.append
  dsimp only
  split
  · next h =>
    rw [Bool.or_eq_true, decide_eq_true_eq] at h
    rcases h with h | h
    · exact .inl (by rw [List.isEmpty_iff.mp h]; rfl)
    · right
      obtain ⟨front, hfront⟩ := List.getLast?_eq_some_iff.mp h
      exact ⟨front, by rw [List.append_nil, hfront]⟩
  · exact .inr ⟨dir, by rw [List.append_nil]⟩

/-- The names to follow for a file are those for its directory, with its own name in the last
place. -/
theorem start_append (tree : FileTree) (dir : Path) : ∃ l names, ∀ name : Text, '/' ∉ name →
    tree.start (Path.append dir name) = (l, names ++ [name]) := by
  have hpieces : ∀ {name : Text}, '/' ∉ name → Path.pieces name = [name] := splitOn_of_not_mem
  have hbehind : ∀ (front : Text) {name : Text}, '/' ∉ name →
      Path.pieces (front ++ '/' :: name) = Path.pieces front ++ [name] := by
    intro front name hn
    rw [Path.pieces, splitOn_append, splitOn_of_not_mem hn]
    rfl
  rcases append_nil_cases dir with hdir | ⟨front, hdir⟩
  · refine ⟨tree.cwd, [], fun name hn => ?_⟩
    rw [append_eq dir hn, hdir, List.nil_append, List.nil_append, ← hpieces hn]
    unfold start
    split
    · exact absurd List.mem_cons_self hn
    · rfl
  · cases front with
    | nil =>
      refine ⟨[], [], fun name hn => ?_⟩
      rw [append_eq dir hn, hdir, List.nil_append, ← hpieces hn]
      rfl
    | cons c front =>
      by_cases hc : c = '/'
      · refine ⟨[], Path.pieces front, fun name hn => ?_⟩
        rw [append_eq dir hn, hdir, hc, ← hbehind front hn]
        simp [start]
      · refine ⟨tree.cwd, Path.pieces (c :: front), fun name hn => ?_⟩
        rw [append_eq dir hn, hdir, ← hbehind (c :: front) hn]
        unfold start
        simp [hc]

/-- A file name leads from the directory at a path to the place of the file. -/
theorem locate_eq_ok {tree : FileTree} {dir : Path} {name : Text} (hn : IsFileName name)
    {m : Location} : tree.locate (Path.append dir name) = .ok m
      ↔ ∃ d, tree.directory? dir = some d ∧ m = d ++ [name] := by
  obtain ⟨l, names, hstart⟩ := start_append tree dir
  have hne : (Path.append dir name).isEmpty = false := by
    rw [append_eq dir hn.noSeparator, List.isEmpty_eq_false_iff]
    simp [hn.ne_nil]
  have hnul : (Path.append dir name).any (·.toNat == 0) = dir.any (·.toNat == 0) := by
    have hname : name.any (·.toNat == 0) = false := by simpa using hn.noNul
    rw [append_eq dir hn.noSeparator, List.any_append, hname, Bool.or_false]
    unfold Path.append
    dsimp only
    split <;> simp
  unfold locate directory?
  rw [hne, hnul, hstart name hn.noSeparator, hstart [] nofun, if_neg Bool.false_ne_true]
  cases dir.any (·.toNat == 0) with
  | true => simp
  | false =>
    simp only [Bool.false_eq_true, if_false]
    rw [follow_append, follow_append]
    cases tree.follow l names with
    | error e => simp [Except.bind, Except.toOption]
    | ok d =>
      simp only [Except.bind]
      rw [follow_singleton hn]
      cases tree.follow d [[]] with
      | error e => simp [Except.map, Except.toOption]
      | ok d => simp [Except.map, Except.toOption, eq_comm]

/-- A directory is still found in a tree that keeps it. -/
theorem DirectoriesWithin.directory? {tree other : FileTree} (h : tree.DirectoriesWithin other)
    {dir : Path} {d : Location} (hd : tree.directory? dir = some d) :
    other.directory? dir = some d := by
  have hstart : ∀ p, other.start p = tree.start p := by
    intro p
    unfold start
    rw [h.cwd]
  unfold FileTree.directory? at hd ⊢
  split at hd
  · cases hd
  · next hnul =>
    rw [if_neg hnul, hstart]
    cases hf : tree.follow (tree.start (Path.append dir [])).1
        (tree.start (Path.append dir [])).2 with
    | error e =>
      rw [hf] at hd
      cases hd
    | ok m =>
      rw [hf] at hd
      rw [h.follow hf]
      exact hd

/-! ### Reading and writing -/

/-- What is read from a file of a directory is what stands in its place. -/
theorem read_eq_ok {tree : FileTree} {dir : Path} {name t : Text} (hn : IsFileName name) :
    tree.read (Path.append dir name) = .ok t
      ↔ ∃ d, tree.directory? dir = some d ∧ tree.node? (d ++ [name]) = some (.file (some t)) := by
  unfold read
  constructor
  · intro h
    split at h
    · cases h
    · next l hl =>
      obtain ⟨d, hd, rfl⟩ := (locate_eq_ok hn).mp hl
      split at h
      · cases h
      · cases h
      · cases h
      · next hnode =>
        cases h
        exact ⟨d, hd, hnode⟩
  · rintro ⟨d, hd, hnode⟩
    rw [(locate_eq_ok hn).mpr ⟨d, hd, rfl⟩]
    simp only [hnode]

/-- A file of a directory is written in its place, unless there is a directory. -/
theorem write_eq_ok {tree tree' : FileTree} {dir : Path} {name content : Text}
    (hn : IsFileName name) (h : tree.write (Path.append dir name) content = .ok tree') :
    ∃ d, tree.directory? dir = some d ∧ tree.node? (d ++ [name]) ≠ some .directory
      ∧ tree' = tree.set (d ++ [name]) (.file (some content)) := by
  unfold write at h
  split at h
  · cases h
  · next l hl =>
    obtain ⟨d, hd, rfl⟩ := (locate_eq_ok hn).mp hl
    split at h
    · cases h
    · next hnode =>
      cases h
      exact ⟨d, hd, hnode, rfl⟩

/-- Writing a file leaves every directory in place. -/
theorem directoriesWithin_write {tree tree' : FileTree} {dir : Path} {name content : Text}
    (hn : IsFileName name) (h : tree.write (Path.append dir name) content = .ok tree') :
    tree.DirectoriesWithin tree' := by
  obtain ⟨d, -, hnode, rfl⟩ := write_eq_ok hn h
  exact directoriesWithin_set_file hnode _

/-- Writing a file of a directory changes what is read from that file and from no other one. -/
theorem read_write {tree tree' : FileTree} {dir : Path} {name other content t : Text}
    (hn : IsFileName name) (ho : IsFileName other)
    (h : tree.write (Path.append dir name) content = .ok tree') :
    tree'.read (Path.append dir other) = .ok t
      ↔ if other = name then t = content else tree.read (Path.append dir other) = .ok t := by
  obtain ⟨d, hd, hnode, rfl⟩ := write_eq_ok hn h
  have hd' := (directoriesWithin_set_file hnode (some content)).directory? hd
  rw [read_eq_ok ho, read_eq_ok ho, hd, hd']
  simp only [Option.some.injEq, exists_eq_left', node?_set, List.append_cancel_left_eq,
    List.cons.injEq, and_true]
  split
  · simp [eq_comm]
  · rfl

/-! ### Making directories -/

private theorem directoriesWithin_makeFrom (tree : FileTree) (l : Location) (names : List Text) :
    tree.DirectoriesWithin (tree.makeFrom l names).1 := by
  induction names generalizing tree l with
  | nil => exact .refl tree
  | cons name names ih =>
    rw [makeFrom]
    split
    · exact ih tree l
    · split
      · exact ih tree _
      · split
        · have hset : tree.DirectoriesWithin (tree.set (l ++ [name]) .directory) := by
            refine ⟨rfl, fun m hm => ?_⟩
            rw [node?_set]
            split
            · rfl
            · exact hm
          exact hset.trans (ih _ _)
        · exact ih tree _
        · exact .refl tree

/-- Making directories makes no file. -/
theorem file_of_makeFrom {tree : FileTree} {l m : Location} {names : List Text}
    {content? : Option Text}
    (h : (tree.makeFrom l names).1.node? m = some (.file content?)) :
    tree.node? m = some (.file content?) := by
  induction names generalizing tree l with
  | nil => exact h
  | cons name names ih =>
    rw [makeFrom] at h
    split at h
    · exact ih h
    · split at h
      · exact ih h
      · split at h
        · have hset := ih h
          rw [node?_set] at hset
          split at hset
          · cases hset
          · exact hset
        · exact ih h
        · exact h

/-- Making directories makes no files. -/
theorem file_of_makeDirs {tree : FileTree} {dir : Path} {m : Location} {content? : Option Text}
    (h : (tree.makeDirs dir).1.node? m = some (.file content?)) :
    tree.node? m = some (.file content?) := by
  unfold makeDirs at h
  split at h
  · exact h
  · exact file_of_makeFrom h

/-- Directories that were made need not be made again. -/
theorem makeFrom_again {tree made later : FileTree} {l : Location} {names : List Text}
    (h : tree.makeFrom l names = (made, none)) (hlater : made.DirectoriesWithin later) :
    later.makeFrom l names = (later, none) := by
  induction names generalizing tree l with
  | nil => rfl
  | cons name names ih =>
    rw [makeFrom] at h ⊢
    split at h
    · next hname =>
      rw [if_pos hname]
      exact ih h
    · next hname =>
      rw [if_neg hname]
      split at h
      · next hname =>
        rw [if_pos hname]
        exact ih h
      · next hname =>
        rw [if_neg hname]
        -- In either case the directory is there when the names behind it have been made.
        have hthere : ∀ {before : FileTree}, before.node? (l ++ [name]) = some .directory →
            before.makeFrom (l ++ [name]) names = (made, none) →
            later.node? (l ++ [name]) = some .directory := by
          intro before hbefore hmade
          have hwithin := directoriesWithin_makeFrom before (l ++ [name]) names
          rw [hmade] at hwithin
          exact hlater.directory _ (hwithin.directory _ hbefore)
        split at h
        · next hnode =>
          have hset : (tree.set (l ++ [name]) .directory).node? (l ++ [name])
              = some .directory := by
            rw [node?_set, if_pos rfl]
          simp only [hthere hset h]
          exact ih h
        · next hnode =>
          simp only [hthere hnode h]
          exact ih h
        · cases h

/-- Directories that were made need not be made again. -/
theorem makeDirs_again {tree made later : FileTree} {dir : Path}
    (h : tree.makeDirs dir = (made, none)) (hlater : made.DirectoriesWithin later) :
    later.makeDirs dir = (later, none) := by
  unfold makeDirs at h ⊢
  split at h
  · cases h
  · next hnul =>
    have hcwd : later.cwd = tree.cwd := by
      have hwithin := directoriesWithin_makeFrom tree (tree.start dir).1 (tree.start dir).2
      rw [h] at hwithin
      exact hlater.cwd.trans hwithin.cwd
    have hstart : later.start dir = tree.start dir := by
      unfold start
      rw [hcwd]
    rw [if_neg hnul, hstart]
    exact makeFrom_again h hlater

/-! ### Listing and removing -/

/-- A node that is erased is gone, and all the others stay. -/
theorem node?_erase (tree : FileTree) (l m : Location) :
    (tree.erase l).node? m = if m = l then none else tree.node? m := by
  unfold node? erase
  induction tree.nodes with
  | nil => simp
  | cons p nodes ih =>
    rw [List.filter_cons]
    by_cases hp : p.1 = l
    · rw [if_neg (by simpa using hp), ih, lookup_cons_eq]
      by_cases hm : m = l
      · simp [hm]
      · rw [if_neg hm, if_neg hm, if_neg]
        simpa [hp] using hm
    · rw [if_pos (by simpa using hp), lookup_cons_eq, lookup_cons_eq, ih]
      by_cases hm : m = p.1
      · have hl : m ≠ l := hm ▸ hp
        simp [hm, hp]
      · simp [hm]

/-- A file that is removed takes no directory away, and nothing else appears. -/
theorem remove_eq_ok {tree tree' : FileTree} {p : Path} (h : tree.remove p = .ok tree') :
    ∃ l, tree.locate p = .ok l ∧ tree.node? l ≠ some .directory ∧ tree' = tree.erase l := by
  unfold remove at h
  split at h
  · cases h
  · next l hl =>
    split at h
    · cases h
    · cases h
    · next hnode =>
      cases h
      exact ⟨l, hl, by rw [hnode]; nofun, rfl⟩

/-- Erasing what is no directory leaves every directory in place. -/
theorem directoriesWithin_erase {tree : FileTree} {l : Location}
    (hl : tree.node? l ≠ some .directory) : tree.DirectoriesWithin (tree.erase l) := by
  refine ⟨rfl, fun m hm => ?_⟩
  rw [node?_erase, if_neg]
  · exact hm
  · rintro rfl
    exact hl hm

/-- The name of a node is listed in its directory. -/
theorem mem_namesAt {tree : FileTree} {d : Location} {name : Text} {node : FileNode}
    (h : tree.node? (d ++ [name]) = some node) : name ∈ tree.namesAt d := by
  refine List.mem_filterMap.mpr ⟨_, mem_of_lookup h, ?_⟩
  simp

private theorem start_slash (tree : FileTree) {dir : Path} (h : dir ≠ []) :
    tree.start (dir ++ ['/']) = ((tree.start dir).1, (tree.start dir).2 ++ [[]]) := by
  have hpieces : ∀ front : Text, Path.pieces (front ++ ['/']) = Path.pieces front ++ [[]] := by
    intro front
    rw [Path.pieces, splitOn_append]
    rfl
  cases dir with
  | nil => exact absurd rfl h
  | cons c r =>
    by_cases hc : c = '/'
    · rw [hc]
      exact Prod.ext rfl (hpieces r)
    · rw [List.cons_append, start, start]
      · rw [← List.cons_append, hpieces]
      · rintro s ⟨⟩
        exact hc rfl
      · rintro s ⟨⟩
        exact hc rfl

/-- The place of a path that is a directory is the one in which the files of the path lie. -/
theorem directory?_of_locate {tree : FileTree} {dir : Path} {d : Location}
    (h : tree.locate dir = .ok d) (hnode : tree.node? d = some .directory) :
    tree.directory? dir = some d := by
  unfold locate at h
  split at h
  · cases h
  · next hne =>
    split at h
    · cases h
    · next hnul =>
      have hhere : tree.follow d [[]] = .ok d := by
        rw [FileTree.follow, hnode]
        rfl
      have hslash : tree.follow (tree.start (dir ++ ['/'])).1 (tree.start (dir ++ ['/'])).2
          = .ok d := by
        rw [start_slash tree (List.isEmpty_eq_false_iff.mp (Bool.not_eq_true _ ▸ hne)),
          follow_append, h]
        exact hhere
      have hfollow : tree.follow (tree.start (Path.append dir [])).1
          (tree.start (Path.append dir [])).2 = .ok d := by
        unfold Path.append
        dsimp only
        split
        · rw [List.append_nil]
          exact h
        · rw [List.append_nil]
          exact hslash
      rw [directory?, if_neg hnul, hfollow]
      rfl

/-- What is listed are the names in the directory in which the files of the path lie. -/
theorem directory?_of_list {tree : FileTree} {dir : Path} {names : List Text}
    (h : tree.list dir = .ok names) :
    ∃ d, tree.directory? dir = some d ∧ names = tree.namesAt d := by
  unfold list at h
  split at h
  · cases h
  · next d hd =>
    split at h
    · cases h
    · cases h
    · next hnode => exact ⟨d, directory?_of_locate hd hnode, (Except.ok.inj h).symm⟩

end FileTree

end DocContract
