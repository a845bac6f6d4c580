import DocContract.Proofs.Comment.Nesting

/-!
# The shape of what is read

Whatever the lines are, a tag that is handed out has the shape of its kind: a snippet belongs to
usage tags and fields belong to the kinds that accept them, and each field is a named property one
level below the entry that it was put into. The reader keeps this shape from line to line, defects
included.
-/

namespace DocContract

open Text

/-! ### Names of nested fields -/

namespace Header

private theorem isName_of_ofNamed? {bare : Bool} {t : Text} {h : Header}
    (hh : ofNamed? bare t = some h) : ∃ name, h.name? = some name ∧ isName name = true := by
  obtain ⟨hname, type?, d, -, rfl⟩ := ofNamed?_eq_some_iff.mp hh
  exact ⟨_, rfl, hname⟩

private theorem isName_of_braced? {t : Text} {h : Header} (hh : braced? t = some h) :
    ∃ name, h.name? = some name ∧ isName name = true := by
  obtain ⟨type, rest, -, -, hname, d, -, rfl⟩ := braced?_eq_some_iff.mp hh
  exact ⟨_, rfl, hname⟩

end Header

/-- The header of a nested field has a name, in either convention. -/
theorem FieldLine.isName_of_parse? {line : Text} {field : FieldLine}
    (hf : FieldLine.parse? line = some field) {h : Header} (hh : field.header? = some h) :
    ∃ name, h.name? = some name ∧ Header.isName name = true := by
  have hcontent : ∀ content, (readContent content).2 = some h →
      ∃ name, h.name? = some name ∧ Header.isName name = true := by
    intro content hc
    unfold readContent at hc
    split at hc
    · exact Header.isName_of_braced? hc
    · exact Header.isName_of_ofNamed? hc
  obtain ⟨c, r, marker, -, -, -, rfl⟩ := FieldLine.parse?_eq_some_iff.mp hf
  exact hcontent _ hh

/-! ### Tags and fields -/

namespace Tag

/-- A nested field at a depth: a named property, with its own fields one level below. -/
inductive IsNested : Nat → Tag → Prop
  | intro {depth : Nat} {t : Tag} (kind : t.kind = .property) (level : t.depth = depth)
      (name : ∃ name, t.name? = some name ∧ Header.isName name = true)
      (plain : t.snippet? = none)
      (children : ∀ child ∈ t.children, IsNested (depth + 1) child) : IsNested depth t

/-- A tag that a sigil introduces has what belongs to its kind. -/
structure IsEntry (t : Tag) : Prop where
  sigil : t.kind ≠ .brief
  level : t.depth = 0
  snippet : t.snippet?.isSome = true ↔ t.kind = .usage
  children : ∀ child ∈ t.children, child.IsNested 1
  childless : t.kind.acceptsChildren = false → t.children = []

/-- A usage tag in front of its snippet. -/
structure IsUsage (t : Tag) : Prop where
  kind : t.kind = .usage
  level : t.depth = 0
  childless : t.children = []

variable {t : Tag}

private theorem IsNested.extend {depth : Nat} (h : t.IsNested depth) (text : Text) :
    (t.extend text).IsNested depth := by
  obtain ⟨d, hd, -⟩ := t.extend_eq text
  rw [hd]
  cases h with
  | intro kind level name plain children => exact .intro kind level name plain children

private theorem IsNested.graft {depth : Nat} (h : t.IsNested depth) {ts : List Tag}
    (hts : ∀ child ∈ ts, child.IsNested (depth + 1)) :
    IsNested depth { t with children := t.children ++ ts } := by
  cases h with
  | intro kind level name plain children =>
    exact .intro kind level name plain (List.forall_mem_append.mpr ⟨children, hts⟩)

private theorem IsNested.deepens {depth : Nat} (h : t.IsNested depth) : t.Deepens depth := by
  induction h with
  | intro _ level _ _ _ ih => exact .intro level ih

private theorem IsEntry.extend (h : t.IsEntry) (text : Text) : (t.extend text).IsEntry := by
  obtain ⟨d, hd, -⟩ := t.extend_eq text
  rw [hd]
  exact ⟨h.sigil, h.level, h.snippet, h.children, h.childless⟩

private theorem IsEntry.graft (h : t.IsEntry) {ts : List Tag} (hk : t.kind.acceptsChildren = true)
    (hts : ∀ child ∈ ts, child.IsNested 1) : IsEntry { t with children := t.children ++ ts } := by
  refine ⟨h.sigil, h.level, h.snippet, List.forall_mem_append.mpr ⟨h.children, hts⟩, fun hf => ?_⟩
  have hboth := hk.symm.trans hf
  cases hboth

private theorem IsEntry.deepens (h : t.IsEntry) : t.Deepens 0 :=
  .intro h.level fun child hc => (h.children child hc).deepens

private theorem IsUsage.extend (h : t.IsUsage) (text : Text) : (t.extend text).IsUsage := by
  obtain ⟨d, hd, -⟩ := t.extend_eq text
  rw [hd]
  exact ⟨h.kind, h.level, h.childless⟩

/-- A usage tag with its snippet. -/
theorem IsUsage.isEntry (h : t.IsUsage) (snippet : Snippet) :
    IsEntry { t with snippet? := some snippet } where
  sigil := by simp [h.kind]
  level := h.level
  snippet := by simp [h.kind]
  children := by simp [h.childless]
  childless := fun _ => h.childless

private theorem grows_isEntry : Branch.Grows IsEntry IsNested :=
  ⟨fun h hk hts => h.graft hk hts, fun h hts => h.graft hts⟩

end Tag

/-! ### Groups -/

namespace Group

/-- The tag of the group has the shape of its kind so far. -/
def IsEntry : Group → Prop
  | .skip => True
  | .entry branch _ => branch.Holds Tag.IsEntry Tag.IsNested
  | .awaitFence tag => tag.IsUsage
  | .fence tag _ _ => tag.IsUsage

variable {s : Settings}

private theorem IsEntry.finish {g : Group} (h : g.IsEntry) : ∀ t ∈ g.finish.tags, t.IsEntry := by
  cases g with
  | entry branch swallow =>
    exact List.forall_mem_singleton.mpr (Branch.Holds.toTag Tag.grows_isEntry h)
  | _ => exact List.forall_mem_nil _

private theorem isEntry_opened (sigil : SigilLine) (line column : Nat) :
    (opened s sigil line column).1.IsEntry := by
  generalize h : opened s sigil line column = next
  cases Opens.of_eq h with
  | usage known =>
    have husage : (Tag.ofKind .usage line column).IsUsage := ⟨rfl, rfl, rfl⟩
    exact husage.extend sigil.rest
  | entry known read =>
    refine Branch.holds_nil ⟨TagKind.ne_brief_of_header? read, rfl, ?_, List.forall_mem_nil _,
      fun _ => rfl⟩
    exact iff_of_false Bool.false_ne_true (TagKind.ne_usage_of_header? read)
  | _ => trivial

private theorem isEntry_continued {g : Group} (hg : g.IsEntry) (l : InteriorLine) :
    (continued s l g).1.IsEntry := by
  generalize h : continued s l g = next
  cases Continues.of_eq h with
  | field _ adds read grows =>
    obtain ⟨hk, hf⟩ := fieldOf?_eq_some_iff.mp adds
    have hname := FieldLine.isName_of_parse? hf read
    subst grows
    have hb : Branch.Holds Tag.IsEntry Tag.IsNested _ := hg
    exact hb.push Tag.grows_isEntry hk fun _ => .intro rfl rfl hname rfl (List.forall_mem_nil _)
  | text => exact Branch.Holds.extend hg (fun h => h.extend l.text) fun h => h.extend l.text
  | waits => exact Tag.IsUsage.extend hg l.text
  | closed _ => exact Branch.holds_nil (Tag.IsUsage.isEntry hg _)
  | _ => exact hg

/-- One line keeps the shape of the open tag, and a tag that it hands out has its shape. -/
theorem isEntry_step {g : Group} (hg : g.IsEntry) (l : InteriorLine) :
    (step s g l).1.IsEntry ∧ ∀ t ∈ (step s g l).2.tags, t.IsEntry := by
  unfold step
  split
  · next sigil _ =>
    refine ⟨isEntry_opened sigil l.line l.contentColumn, ?_⟩
    rw [Output.tags_append, tags_opened, List.append_nil]
    exact hg.finish
  · refine ⟨isEntry_continued hg l, ?_⟩
    rw [tags_continued]
    exact List.forall_mem_nil _

/-- All tags of a run have the shape of their kind. -/
theorem isEntry_run {g : Group} (hg : g.IsEntry) (ls : List InteriorLine) :
    ∀ t ∈ (run s g ls).tags, t.IsEntry := by
  induction ls generalizing g with
  | nil => exact hg.finish
  | cons l ls ih =>
    obtain ⟨hnext, htags⟩ := isEntry_step (s := s) hg l
    rw [run_cons, Output.tags_append]
    exact List.forall_mem_append.mpr ⟨htags, ih hnext⟩

end Group

/-! ### Whole comments -/

/-- The tags of a comment are its brief, if it has one, and then entries. -/
theorem tags_parseLines (s : Settings) (ls : List InteriorLine) :
    ∃ brief entries : List Tag, (parseLines s ls).block.tags = brief ++ entries
      ∧ entries = (Group.run s .skip (groupLines ls)).tags
      ∧ brief = ((paragraphs (ls.takeWhile fun l => l.sigil?.isNone)).head?.toList.map
        Paragraph.toBrief)
      ∧ ∀ t ∈ entries, t.IsEntry :=
  ⟨_, _, rfl, rfl, rfl, Group.isEntry_run (g := .skip) trivial _⟩

/-- In every tree each field lies one level below its parent, and the tags themselves at zero. -/
theorem deepens_parseLines (s : Settings) (ls : List InteriorLine) :
    ∀ t ∈ (parseLines s ls).block.tags, t.Deepens 0 := by
  obtain ⟨brief, entries, htags, -, hbrief, hentries⟩ := tags_parseLines s ls
  rw [htags, List.forall_mem_append]
  refine ⟨fun t ht => ?_, fun t ht => (hentries t ht).deepens⟩
  rw [hbrief] at ht
  obtain ⟨p, -, rfl⟩ := List.mem_map.mp ht
  exact .intro rfl (List.forall_mem_nil _)

end DocContract
