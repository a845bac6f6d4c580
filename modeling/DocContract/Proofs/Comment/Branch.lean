import DocContract.Comment.Group

/-!
# The branch of open fields

Closing fields of a branch moves them into the field or the tag above. It changes neither the whole
tag nor the parts of the root other than its fields, and closing the same fields in two goes is
closing them in one.
-/

namespace DocContract.Branch

/-- The branch without the fields that are indented at least as far as `n`. -/
def upTo (n : Nat) (b : Branch) : Branch := closeTo n b.root b.path

/-- Every open field is indented less than `n`, the deepest one at least. -/
def IsBelow (n : Nat) (b : Branch) : Prop := ∀ f ∈ b.path.head?, f.indent < n

/-- The branch with more fields at the end of the entry that came last. -/
def graft (b : Branch) (ts : List Tag) : Branch :=
  match b.path with
  | [] => { b with root := { b.root with children := b.root.children ++ ts } }
  | f :: path =>
    { b with
      path := { f with field := { f.field with children := f.field.children ++ ts } } :: path }

/-! ### Grafting -/

/-- Grafting no tags changes nothing. -/
theorem graft_nil (b : Branch) : b.graft [] = b := by
  obtain ⟨root, path⟩ := b
  cases path with
  | nil => cases root; simp [graft]
  | cons f path => obtain ⟨indent, ⟨⟩⟩ := f; simp [graft]

/-- Grafting twice is grafting all the tags at once. -/
theorem graft_graft (b : Branch) (ts us : List Tag) :
    (b.graft ts).graft us = b.graft (ts ++ us) := by
  obtain ⟨root, path⟩ := b
  cases path <;> simp [graft]

/-- Grafting leaves the length of the path. -/
theorem length_path_graft (b : Branch) (ts : List Tag) :
    (b.graft ts).path.length = b.path.length := by
  obtain ⟨root, path⟩ := b
  cases path <;> simp [graft]

private theorem isBelow_graft {n : Nat} {b : Branch} (ts : List Tag) (h : b.IsBelow n) :
    (b.graft ts).IsBelow n := by
  obtain ⟨root, path⟩ := b
  cases path with
  | nil => exact h
  | cons f path =>
    intro g hg
    cases hg
    exact h f rfl

private theorem closeDeepest_eq (root field : Tag) (path : List OpenField) :
    closeDeepest root field path = graft ⟨root, path⟩ [field] := by
  cases path <;> rfl

/-! ### Closing -/

/-- A branch without open fields has nothing to close. -/
theorem upTo_nil (n : Nat) (root : Tag) : upTo n ⟨root, []⟩ = ⟨root, []⟩ := by
  rw [upTo, closeTo]

/-- Closing goes up from the innermost field and stops at the first that is indented less. -/
theorem upTo_cons (n : Nat) (root : Tag) (f : OpenField) (path : List OpenField) :
    upTo n ⟨root, f :: path⟩ =
      if n ≤ f.indent then upTo n (graft ⟨root, path⟩ [f.field]) else ⟨root, f :: path⟩ := by
  cases path with
  | nil =>
    rw [upTo, closeTo]
    split
    · rw [← closeDeepest_eq, closeDeepest, upTo_nil]
    · rfl
  | cons up path =>
    rw [upTo, closeTo]
    rfl

/-- A branch without open fields is its root. -/
theorem toTag_nil (root : Tag) : toTag ⟨root, []⟩ = root := by rw [toTag, close]

/-- A branch is closed by grafting its innermost field on the others. -/
theorem toTag_cons (root : Tag) (f : OpenField) (path : List OpenField) :
    toTag ⟨root, f :: path⟩ = toTag (graft ⟨root, path⟩ [f.field]) := by
  cases path with
  | nil =>
    rw [toTag, close, ← closeDeepest_eq, closeDeepest, toTag_nil]
  | cons up path =>
    rw [toTag, close]
    rfl

private theorem upTo_of_isBelow {n : Nat} {b : Branch} (h : b.IsBelow n) : b.upTo n = b := by
  obtain ⟨root, path⟩ := b
  cases path with
  | nil => exact upTo_nil n root
  | cons f path =>
    have hf : f.indent < n := h f rfl
    rw [upTo_cons, if_neg (by omega)]

/-- What is proved of a branch with the deepest field closed holds of the branch: the induction on
the fields that are open. -/
theorem closing_induction {motive : Branch → Prop} (nil : ∀ root, motive ⟨root, []⟩)
    (cons : ∀ root f path, motive (graft ⟨root, path⟩ [f.field]) → motive ⟨root, f :: path⟩)
    (b : Branch) : motive b := by
  generalize hn : b.path.length = n
  induction n generalizing b with
  | zero =>
    obtain ⟨root, path⟩ := b
    obtain rfl := List.length_eq_zero_iff.mp hn
    exact nil root
  | succ n ih =>
    obtain ⟨root, path⟩ := b
    cases path with
    | nil => cases hn
    | cons f path =>
      refine cons root f path (ih _ ?_)
      rw [length_path_graft]
      simpa using hn

section Invariant

variable {motive : Branch → Prop} (close : ∀ {root : Tag} {f : OpenField} {path : List OpenField},
  motive ⟨root, f :: path⟩ → motive (graft ⟨root, path⟩ [f.field]))

include close

/-- What holds whenever the deepest field is closed holds when several are closed. -/
theorem upTo_invariant (n : Nat) {b : Branch} (h : motive b) : motive (b.upTo n) := by
  induction b using closing_induction with
  | nil root =>
    rw [upTo_nil]
    exact h
  | cons root f path ih =>
    rw [upTo_cons]
    split
    · exact ih (close h)
    · exact h

/-- It holds at last of the whole tag, when no field is open. -/
theorem toTag_invariant {b : Branch} (h : motive b) : motive ⟨b.toTag, []⟩ := by
  induction b using closing_induction with
  | nil root =>
    rw [toTag_nil]
    exact h
  | cons root f path ih =>
    rw [toTag_cons]
    exact ih (close h)

end Invariant

/-- What is left open by closing to an indent is indented less than that. -/
theorem isBelow_upTo (n : Nat) (b : Branch) : (b.upTo n).IsBelow n := by
  induction b using closing_induction with
  | nil root =>
    rw [upTo_nil]
    simp [IsBelow]
  | cons root f path ih =>
    rw [upTo_cons]
    split
    · exact ih
    · intro g hg
      cases hg
      omega

/-- Closing some fields first leaves fewer to close. -/
theorem upTo_upTo {m n : Nat} (h : m ≤ n) (b : Branch) : (b.upTo n).upTo m = b.upTo m := by
  induction b using closing_induction with
  | nil root => rw [upTo_nil]
  | cons root f path ih =>
    rw [upTo_cons n]
    split
    · rw [ih, upTo_cons m, if_pos (by omega)]
    · rfl

/-- Closing fields does not change the whole tag. -/
theorem toTag_upTo (n : Nat) (b : Branch) : (b.upTo n).toTag = b.toTag := by
  apply upTo_invariant (motive := fun b' => b'.toTag = b.toTag) (fun h => ?_) n rfl
  rw [← toTag_cons]
  exact h

/-- A new field goes below the fields that are indented less. -/
theorem push_eq (b : Branch) (n : Nat) (field : Tag) :
    b.push n field = ⟨(b.upTo n).root,
      ⟨n, { field with depth := (b.upTo n).path.length + 1 }⟩ :: (b.upTo n).path⟩ := rfl

/-- Two branches grow from the same tag, whatever fields it has so far. -/
def SameRoot (b b' : Branch) : Prop :=
  { b.root with children := [] } = { b'.root with children := [] }

/-- Branches with the same root have the same kind. -/
theorem SameRoot.kind {b b' : Branch} (h : SameRoot b b') : b'.root.kind = b.root.kind :=
  (congrArg Tag.kind h).symm

/-- Branches with the same root have the same column. -/
theorem SameRoot.column {b b' : Branch} (h : SameRoot b b') : b'.root.column = b.root.column :=
  (congrArg Tag.column h).symm

/-- Grafting keeps the root. -/
theorem sameRoot_graft (b : Branch) (ts : List Tag) : SameRoot b (b.graft ts) := by
  obtain ⟨root, path⟩ := b
  cases path <;> rfl

private theorem SameRoot.closed {b : Branch} {root : Tag} {f : OpenField} {path : List OpenField}
    (h : SameRoot b ⟨root, f :: path⟩) : SameRoot b (graft ⟨root, path⟩ [f.field]) :=
  Eq.trans h (sameRoot_graft ⟨root, path⟩ [f.field])

/-- Closing fields keeps the root. -/
theorem sameRoot_upTo (n : Nat) (b : Branch) : SameRoot b (b.upTo n) :=
  upTo_invariant SameRoot.closed n rfl

/-- Closing the whole branch keeps the root. -/
theorem sameRoot_toTag (b : Branch) : SameRoot b ⟨b.toTag, []⟩ :=
  toTag_invariant SameRoot.closed rfl

/-- A field that was added stays open for the fields below it. -/
theorem upTo_push (b : Branch) (n : Nat) (field : Tag) :
    (b.push (2 * n) field).upTo (2 * (n + 1)) = b.push (2 * n) field := by
  apply upTo_of_isBelow
  rw [push_eq]
  intro f hf
  cases hf
  change 2 * n < 2 * (n + 1)
  omega

/-- A field that is pushed stands one below what it leaves open. -/
theorem length_path_push (b : Branch) (n : Nat) (field : Tag) :
    (b.push n field).path.length = (b.upTo n).path.length + 1 := rfl

/-- Pushing a field keeps the kind of the root. -/
theorem kind_push (b : Branch) (n : Nat) (field : Tag) :
    (b.push n field).root.kind = b.root.kind := (sameRoot_upTo n b).kind

/-- A field that is open alone at its indentation, when it is closed with its own fields. -/
theorem upTo_graft_open {n : Nat} {b : Branch} (h : b.IsBelow n) (field : Tag) (ts : List Tag) :
    (graft ⟨b.root, ⟨n, field⟩ :: b.path⟩ ts).upTo n
      = b.graft [{ field with children := field.children ++ ts }] := by
  rw [graft, upTo_cons, if_pos (Nat.le_refl n)]
  exact upTo_of_isBelow (isBelow_graft _ h)

/-! ### Properties along a branch -/

/-- A tag keeps one property and a field another one, which depends on its depth, when fields with
that property are added to it. -/
structure Grows (entry : Tag → Prop) (field : Nat → Tag → Prop) : Prop where
  entry : ∀ {t : Tag} {ts : List Tag}, entry t → t.kind.acceptsChildren = true →
    (∀ child ∈ ts, field 1 child) → entry { t with children := t.children ++ ts }
  field : ∀ {n : Nat} {t : Tag} {ts : List Tag}, field n t →
    (∀ child ∈ ts, field (n + 1) child) → field n { t with children := t.children ++ ts }

/-- Each open field has the property at its depth, which is the number of fields open so far. -/
def PathHolds (field : Nat → Tag → Prop) : List OpenField → Prop
  | [] => True
  | f :: path => field (path.length + 1) f.field ∧ PathHolds field path

/-- The tag and the open fields have these properties. -/
structure Holds (entry : Tag → Prop) (field : Nat → Tag → Prop) (b : Branch) : Prop where
  root : entry b.root
  path : PathHolds field b.path
  accepting : b.path ≠ [] → b.root.kind.acceptsChildren = true

variable {entry : Tag → Prop} {field : Nat → Tag → Prop}

/-- What holds of a root holds of the branch that has nothing else. -/
theorem holds_nil {root : Tag} (h : entry root) : Holds entry field ⟨root, []⟩ :=
  ⟨h, trivial, fun hne => absurd rfl hne⟩

/-- Closing the deepest field adds it to an entry that may have fields. -/
theorem Holds.closed (hg : Grows entry field) {root : Tag} {f : OpenField} {path : List OpenField}
    (h : Holds entry field ⟨root, f :: path⟩) :
    Holds entry field (graft ⟨root, path⟩ [f.field]) := by
  have hk := h.accepting (by simp)
  obtain ⟨hf, hpath⟩ := h.path
  cases path with
  | nil => exact holds_nil (hg.entry h.root hk (List.forall_mem_singleton.mpr hf))
  | cons up path =>
    have hup := hg.field hpath.1 (List.forall_mem_singleton.mpr hf)
    exact ⟨h.root, ⟨hup, hpath.2⟩, fun _ => hk⟩

/-- What grows with its children still holds when fields are closed. -/
theorem Holds.upTo (hg : Grows entry field) (n : Nat) {b : Branch} (h : b.Holds entry field) :
    (b.upTo n).Holds entry field :=
  upTo_invariant (fun h => h.closed hg) n h

/-- The whole tag of a branch has the property of tags. -/
theorem Holds.toTag (hg : Grows entry field) {b : Branch} (h : b.Holds entry field) :
    entry b.toTag :=
  (toTag_invariant (motive := Holds entry field) (fun h => h.closed hg) h).root

/-- Text is added to the entry that came last. -/
theorem Holds.extend {b : Branch} (h : b.Holds entry field) {text : Text}
    (he : ∀ {t : Tag}, entry t → entry (t.extend text))
    (hf : ∀ {n : Nat} {t : Tag}, field n t → field n (t.extend text)) :
    (b.extend text).Holds entry field := by
  obtain ⟨root, path⟩ := b
  cases path with
  | nil => exact holds_nil (he h.root)
  | cons f path => exact ⟨h.root, ⟨hf h.path.1, h.path.2⟩, fun _ => h.accepting (by simp)⟩

/-- A new field goes below the fields that are indented less. -/
theorem Holds.push (hg : Grows entry field) {b : Branch} (h : b.Holds entry field)
    (hk : b.root.kind.acceptsChildren = true) {n : Nat} {t : Tag}
    (ht : ∀ depth, field depth { t with depth }) : (b.push n t).Holds entry field := by
  have hb := h.upTo hg n
  refine ⟨hb.root, ⟨ht _, hb.path⟩, fun _ => ?_⟩
  exact (congrArg TagKind.acceptsChildren (b.kind_push n t)).trans hk

end DocContract.Branch
