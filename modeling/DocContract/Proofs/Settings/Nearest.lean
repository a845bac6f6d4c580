import DocContract.Settings.Discovery

/-!
# The nearest configuration file

The nearest directory with a configuration file ought to decide: by its file if that can be used,
and by the defaults if not. The search does so unless the nearest file cannot be used and one
further up holds other settings than the defaults, for it passes over what it cannot use.
-/

namespace DocContract

namespace FileTree

/-- Is there anything at the path? -/
def holds (tree : FileTree) (p : Path) : Bool := (tree.realPath? p).isSome

/-- Names lead nowhere because one is missing or is no directory. -/
theorem follow_error {tree : FileTree} {l : Location} {names : List Text} {e : FileError}
    (h : tree.follow l names = .error e) : e = .notFound ∨ e = .notDirectory := by
  induction names generalizing l with
  | nil => cases h
  | cons name names ih =>
    rw [follow] at h
    split at h
    · exact .inl (Except.error.inj h).symm
    · exact .inr (Except.error.inj h).symm
    · split at h
      · exact ih h
      · split at h
        · exact ih h
        · exact ih h

private theorem locate_error {tree : FileTree} {p : Path} {e : FileError}
    (h : tree.locate p = .error e) : e = .notFound ∨ e = .notDirectory ∨ e = .badPath := by
  unfold locate at h
  split at h
  · exact .inl (Except.error.inj h).symm
  · split at h
    · exact .inr (.inr (Except.error.inj h).symm)
    · exact (follow_error h).imp_right .inl

/-- An attempt to read tells whether there is anything. -/
theorem holds_eq (tree : FileTree) (p : Path) : tree.holds p =
    match tree.read p with
    | .ok _ => true
    | .error e => e == .isDirectory || e == .notText := by
  unfold holds realPath? read
  cases hl : tree.locate p with
  | error e =>
    obtain rfl | rfl | rfl := locate_error hl <;> rfl
  | ok l =>
    dsimp only
    cases tree.node? l with
    | none => rfl
    | some node =>
      cases node with
      | directory => rfl
      | file content? => cases content? <;> rfl

private theorem holds_congr {tree other : FileTree} {p : Path} (h : other.read p = tree.read p) :
    other.holds p = tree.holds p := by
  rw [holds_eq, holds_eq, h]

end FileTree

namespace Settings

variable {tree other : FileTree} {start : Path} {front back : List Path} {file : Path}

private theorem load?_congr (h : other.read file = tree.read file) :
    load? other file = load? tree file := by
  unfold load?
  rw [h]

private theorem load?_eq_none (h : tree.holds file = false) : load? tree file = none := by
  rw [FileTree.holds_eq] at h
  unfold load?
  split at h
  · cases h
  · next e he => rw [he]

/-- The nearest configuration file, which may be one that cannot be used. -/
def nearestFile? (tree : FileTree) (start : Path) : Option Path :=
  (candidates start).find? tree.holds

/-- The settings that hold when the nearest configuration file decides. -/
def nearest (tree : FileTree) (start : Path) : Settings :=
  ((nearestFile? tree start).bind (load? tree)).getD {}

/-- The file is the nearest one: nothing is in front of it among those that are looked for, and some
are looked for further up. -/
structure IsNearest (tree : FileTree) (start : Path) (front : List Path) (file : Path)
    (back : List Path) : Prop where
  candidates : candidates start = front ++ file :: back
  nothing : ∀ p ∈ front, tree.holds p = false
  holds : tree.holds file = true

private theorem IsNearest.nearestFile? (h : IsNearest tree start front file back) :
    nearestFile? tree start = some file := by
  unfold Settings.nearestFile?
  rw [h.candidates, List.find?_append, List.find?_eq_none.mpr, Option.none_or,
    List.find?_cons_of_pos h.holds]
  exact fun p hp => Bool.eq_false_iff.mp (h.nothing p hp)

private theorem exists_isNearest (h : nearestFile? tree start = some file) :
    ∃ front back, IsNearest tree start front file back := by
  obtain ⟨hholds, front, back, heq, hnothing⟩ := List.find?_eq_some_iff_append.mp h
  exact ⟨front, back, heq, fun p hp => by simpa using hnothing p hp, hholds⟩

/-- A nearest file that can be used decides; the files further up decide in the place of one that
cannot be used. -/
theorem IsNearest.discover (h : IsNearest tree start front file back) :
    discover tree start = ((load? tree file).or (back.findSome? (load? tree))).getD {} := by
  have hfront : front.findSome? (load? tree) = none :=
    List.findSome?_eq_none_iff.mpr fun p hp => load?_eq_none (h.nothing p hp)
  unfold Settings.discover
  rw [h.candidates, List.findSome?_append, hfront, Option.none_or, List.findSome?_cons]
  cases load? tree file <;> rfl

private theorem discover_of_nearestFile?_eq_none (h : nearestFile? tree start = none) :
    discover tree start = {} := by
  have hnone : (candidates start).findSome? (load? tree) = none := by
    refine List.findSome?_eq_none_iff.mpr fun p hp => load?_eq_none ?_
    exact Bool.eq_false_iff.mpr (List.find?_eq_none.mp h p hp)
  unfold discover
  rw [hnone, Option.getD_none]

private theorem IsNearest.nearest (h : IsNearest tree start front file back) :
    nearest tree start = (load? tree file).getD {} := by
  unfold Settings.nearest
  rw [h.nearestFile?, Option.bind_some]

/-- A tree in which the files up to the nearest one read the same has the same nearest file. -/
theorem IsNearest.congr (h : IsNearest tree start front file back)
    (hread : ∀ p ∈ front ++ [file], other.read p = tree.read p) :
    IsNearest other start front file back := by
  refine ⟨h.candidates, fun p hp => ?_, ?_⟩
  · rw [FileTree.holds_congr (hread p (List.mem_append_left _ hp))]
    exact h.nothing p hp
  · rw [FileTree.holds_congr (hread file (List.mem_append_right _ List.mem_cons_self))]
    exact h.holds

/-- The nearest configuration file decides, and no file further up has any influence, exactly when
no settings other than the defaults are found behind a nearest file that cannot be used. -/
theorem discover_eq_nearest_iff (tree : FileTree) (start : Path) :
    (discover tree start = nearest tree start
        ↔ ∀ front file back s, IsNearest tree start front file back → load? tree file = none →
            back.findSome? (load? tree) = some s → s = {})
      ∧ ∀ front file back other, IsNearest tree start front file back →
          (∀ p ∈ front ++ [file], other.read p = tree.read p) →
          nearest other start = nearest tree start := by
  constructor
  · cases hnearest : nearestFile? tree start with
    | none =>
      have hdefaults : nearest tree start = {} := by
        unfold nearest
        rw [hnearest]
        rfl
      rw [discover_of_nearestFile?_eq_none hnearest, hdefaults]
      refine iff_of_true rfl fun front file back s h => ?_
      rw [h.nearestFile?] at hnearest
      cases hnearest
    | some file =>
      obtain ⟨front, back, h⟩ := exists_isNearest hnearest
      constructor
      · intro hsame front file back s h hload hfound
        rw [h.discover, h.nearest, hload, hfound] at hsame
        exact hsame
      · intro hdefaults
        rw [h.discover, h.nearest]
        cases hload : load? tree file with
        | some s => rfl
        | none =>
          rw [Option.none_or, Option.getD_none]
          cases hfound : back.findSome? (load? tree) with
          | none => rfl
          | some s => exact hdefaults front file back s h hload hfound
  · intro front file back other h hread
    rw [(h.congr hread).nearest, h.nearest,
      load?_congr (hread file (List.mem_append_right _ List.mem_cons_self))]

/-- A directory with a configuration file inside another one with a configuration file. -/
def nestedTree (outer inner : String) : FileTree where
  cwd := []
  nodes := [([], .directory), ([fileName], .file (some outer)), (["a"], .directory),
    (["a", fileName], .file (some inner))]

/-- The settings of the outer directory hold in the inner one, whose own are invalid. -/
theorem discover_invalidExample :
    discover (nestedTree "strict_mode = true" "max_tag_depth = 0") "a"
      ≠ nearest (nestedTree "strict_mode = true" "max_tag_depth = 0") "a" := by
  have hdiscover : (discover (nestedTree "strict_mode = true" "max_tag_depth = 0") "a").strictMode
      = true := by decide +kernel
  have hnearest : (nearest (nestedTree "strict_mode = true" "max_tag_depth = 0") "a").strictMode
      = false := by decide +kernel
  intro h
  rw [h, hnearest] at hdiscover
  cases hdiscover

end Settings

end DocContract
