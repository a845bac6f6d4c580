import DocContract.Proofs.Schema.Removal

/-!
# Nested and dotted documentation

A tree of tags documents the same paths as the list of its tags in preorder, each without children
and named by the segments on the way to it. What is found about paths looks at the keys and at the
type, the option and the place of each tag, never at the nesting. So the check reports the same
diagnostics in the same order.
-/

namespace DocContract

open Text

/-! ### Flattened tags -/

namespace Tag

/-- The tag alone, as a tag of a kind at the top that is named by a whole path. -/
def atPath (t : Tag) (kind : TagKind) (path : List Text) : Tag :=
  { t with kind, name? := some (join ['.'] path), depth := 0, children := [] }

mutual
/-- The tags of a tree in preorder, as tags of one kind at the top; each is named by the segments
above it and its own. -/
def flattenFrom (kind : TagKind) (above : List Text) : Tag → List Tag
  | t@⟨_, _, _, _, _, _, _, _, _, children⟩ =>
    let path := above ++ t.segments
    t.atPath kind path :: flattenBelow kind path children

/-- The tags of some trees, one tree after the other. -/
def flattenBelow (kind : TagKind) (above : List Text) : List Tag → List Tag
  | [] => []
  | t :: ts => flattenFrom kind above t ++ flattenBelow kind above ts
end

private theorem flattenFrom_eq (kind : TagKind) (above : List Text) (t : Tag) :
    t.flattenFrom kind above = t.atPath kind (above ++ t.segments)
      :: flattenBelow kind (above ++ t.segments) t.children := by
  cases t
  rfl

/-- The dotted form of the nested documentation of a parameter or a property; other tags stay as
they are. -/
def flattened (t : Tag) : List Tag :=
  if t.kind = .param ∨ t.kind = .property then t.flattenFrom t.kind [] else [t]

/-- The tag and all tags below it have names with a segment. -/
inductive IsNamed : Tag → Prop
  | intro {t : Tag} (own : t.segments ≠ []) (below : ∀ child ∈ t.children, IsNamed child) :
    IsNamed t

end Tag

/-! ### Segments of keys -/

/-- A segment as it stands in a key: it is not empty, and holds no dot and no marker at its end. -/
structure IsKeySegment (s : Text) : Prop where
  nonempty : s ≠ []
  noDot : '.' ∉ s
  noMark : dropElementMarks s = s

/-- Dropping markers leaves none at the end. -/
theorem dropElementMarks_idem (t : Text) :
    dropElementMarks (dropElementMarks t) = dropElementMarks t := by
  have hgo : ∀ r : Text, dropElementMarks.go (dropElementMarks.go r).reverse
      = dropElementMarks.go r := by
    intro r
    induction r using dropElementMarks.go.induct with
    | case1 r ih => rwa [dropElementMarks.go]
    | case2 r hne =>
      have hr : dropElementMarks.go r = r.reverse := dropElementMarks.go.eq_2 r hne
      rw [hr, List.reverse_reverse, hr]
  exact hgo t.reverse

private theorem isKeySegment_of_mem {name s : Text} (h : s ∈ pathSegments name) :
    IsKeySegment s := by
  obtain ⟨hm, hne⟩ := List.mem_filter.mp h
  obtain ⟨piece, hp, rfl⟩ := List.mem_map.mp hm
  refine ⟨by simpa using hne, fun hdot => ?_, dropElementMarks_idem piece⟩
  obtain ⟨marks, hmarks⟩ := dropElementMarks_prefix piece
  apply not_mem_of_mem_splitOn hp
  rw [hmarks]
  exact List.mem_append_left _ hdot

private theorem Tag.isKeySegment {t : Tag} {s : Text} (h : s ∈ t.segments) : IsKeySegment s := by
  rw [Tag.segments] at h
  split at h
  · cases h
  · exact isKeySegment_of_mem h

/-- A key is read back as its segments. -/
theorem pathSegments_join {path : List Text} (h : ∀ s ∈ path, IsKeySegment s) :
    pathSegments (join ['.'] path) = path := by
  by_cases hnil : path = []
  · rw [hnil]
    rfl
  · have hmarks : path.map dropElementMarks = path :=
      (List.map_congr_left fun s hs => (h s hs).noMark).trans (List.map_id _)
    rw [pathSegments, splitOn_join hnil fun s hs => (h s hs).noDot, hmarks]
    exact List.filter_eq_self.mpr fun s hs => by simpa using (h s hs).nonempty

/-- The key of a tag below other tags is that of all segments on the way to it. -/
theorem joinKey_join {above own : List Text} (ha : ∀ s ∈ above, IsKeySegment s)
    (hown : own ≠ []) :
    joinKey (join ['.'] above) (join ['.'] own) = join ['.'] (above ++ own) := by
  by_cases hnil : above = []
  · rw [hnil]
    rfl
  · have hne : join ['.'] above ≠ [] := by
      obtain ⟨s, r, rfl⟩ := List.exists_cons_of_ne_nil hnil
      have hs := (ha s List.mem_cons_self).nonempty
      obtain ⟨c, cs, rfl⟩ := List.exists_cons_of_ne_nil hs
      intro he
      have hm : c ∈ join ['.'] ((c :: cs) :: r) := mem_join List.mem_cons_self List.mem_cons_self
      rw [he] at hm
      cases hm
    rw [joinKey_of_ne_nil hne, join_append hnil hown, List.append_assoc]
    rfl

/-! ### What is looked at in a documented path -/

/-- A documented path with the parts of its tag that findings depend on. -/
def DocPath.bare (d : DocPath) : DocPath :=
  ⟨d.key, { Tag.ofKind .param d.tag.line d.tag.column with
    type? := d.tag.type?, optional := d.tag.optional }⟩

section Paths

variable {family : PathFamily} {signature : List SignaturePath}

private theorem documentedFindings_bare {docs : List DocPath} {seen : List Nat} :
    documentedFindings family signature seen (docs.map DocPath.bare)
      = documentedFindings family signature seen docs := by
  induction docs generalizing seen with
  | nil => rfl
  | cons d ds ih =>
    rw [List.map_cons, documentedFindings, documentedFindings]
    simp only [ih]
    rfl

private theorem pathFindings_bare {docs : List DocPath} {place : Nat × Nat} {complete : Bool} :
    pathFindings family (docs.map DocPath.bare) signature place complete
      = pathFindings family docs signature place complete := by
  have hplaces : documentedPlaces signature (docs.map DocPath.bare)
      = documentedPlaces signature docs := List.filterMap_map
  rw [pathFindings, pathFindings, documentedFindings_bare, hplaces]

/-- Paths with the same keys, types, options and places lead to the same findings. -/
theorem pathFindings_congr {docs docs' : List DocPath} {place : Nat × Nat} {complete : Bool}
    (h : docs.map DocPath.bare = docs'.map DocPath.bare) :
    pathFindings family docs signature place complete
      = pathFindings family docs' signature place complete := by
  rw [← pathFindings_bare, h, pathFindings_bare]

end Paths

/-! ### The paths of flattened tags -/

section Flattened

variable {kind : TagKind} {above : List Text} {t : Tag}

/-- A tag that is named by a path has the key of that path. -/
theorem docPathsOf_atPath {path : List Text} (h : ∀ s ∈ path, IsKeySegment s) :
    docPathsOf [] (t.atPath kind path) = [⟨join ['.'] path, t.atPath kind path⟩] := by
  rw [docPathsOf_eq rfl, ownKey, pathSegments_join h]
  rfl

/-- The paths of trees that are flattened one by one. -/
theorem bare_flattenBelow {ts : List Tag}
    (h : ∀ t ∈ ts, (docPaths (t.flattenFrom kind above)).map DocPath.bare
      = (docPathsOf (join ['.'] above) t).map DocPath.bare) :
    (docPaths (Tag.flattenBelow kind above ts)).map DocPath.bare
      = (docPathsBelow (join ['.'] above) ts).map DocPath.bare := by
  induction ts with
  | nil => rfl
  | cons t ts ih =>
    obtain ⟨ht, hts⟩ := List.forall_mem_cons.mp h
    rw [Tag.flattenBelow, docPaths, docPathsBelow_append, docPathsBelow, List.map_append,
      List.map_append]
    exact congrArg₂ (· ++ ·) ht (ih hts)

/-- A flattened tree has the paths of the tree. -/
theorem bare_flattenFrom (ht : t.IsNamed) (ha : ∀ s ∈ above, IsKeySegment s) :
    (docPaths (t.flattenFrom kind above)).map DocPath.bare
      = (docPathsOf (join ['.'] above) t).map DocPath.bare := by
  induction ht generalizing above with
  | @intro t own below ih =>
    have hpath : ∀ s ∈ above ++ t.segments, IsKeySegment s :=
      List.forall_mem_append.mpr ⟨ha, fun _ => Tag.isKeySegment⟩
    obtain ⟨name, hname⟩ : ∃ name, t.name? = some name := by
      refine Option.ne_none_iff_exists'.mp fun hnone => own ?_
      rw [Tag.segments, hnone]
    have hkey : joinKey (join ['.'] above) (ownKey name) = join ['.'] (above ++ t.segments) := by
      have hsegments : t.segments = pathSegments name := by
        rw [Tag.segments, hname]
      rw [ownKey, ← hsegments, joinKey_join ha own]
    rw [Tag.flattenFrom_eq, docPaths, docPathsBelow, docPathsOf_atPath hpath, docPathsOf_eq hname,
      hkey, List.map_append, List.map_cons, List.map_cons]
    exact congrArg (_ :: ·) (bare_flattenBelow fun child hchild => ih child hchild hpath)

mutual
private theorem kind_flattenFrom (kind : TagKind) (above : List Text) : ∀ t : Tag,
    ∀ u ∈ t.flattenFrom kind above, u.kind = kind
  | ⟨_, _, _, _, _, _, _, _, _, children⟩ =>
    List.forall_mem_cons.mpr ⟨rfl, kind_flattenBelow kind _ children⟩

private theorem kind_flattenBelow (kind : TagKind) (above : List Text) : ∀ ts : List Tag,
    ∀ u ∈ Tag.flattenBelow kind above ts, u.kind = kind
  | [] => List.forall_mem_nil _
  | t :: ts => List.forall_mem_append.mpr
    ⟨kind_flattenFrom kind above t, kind_flattenBelow kind above ts⟩
end

/-- Flattening a tag leaves its kind. -/
theorem kind_flattened (t : Tag) : ∀ u ∈ t.flattened, u.kind = t.kind := by
  rw [Tag.flattened]
  split
  · exact kind_flattenFrom t.kind [] t
  · exact List.forall_mem_singleton.mpr rfl

/-- The tags of a kind are flattened among themselves. -/
theorem tagsOf_flattened (tags : List Tag) (kind : TagKind) :
    (tags.flatMap Tag.flattened).filter (fun t => t.kind == kind)
      = (tags.filter fun t => t.kind == kind).flatMap Tag.flattened := by
  induction tags with
  | nil => rfl
  | cons t ts ih =>
    rw [List.flatMap_cons, List.filter_append, ih, List.filter_cons]
    by_cases hk : t.kind = kind
    · have hall : ∀ u ∈ t.flattened, (u.kind == kind) = true := fun u hu => by
        rw [kind_flattened t u hu, hk, beq_self_eq_true]
      rw [List.filter_eq_self.mpr hall, if_pos (beq_iff_eq.mpr hk), List.flatMap_cons]
    · have hnone : ∀ u ∈ t.flattened, ¬ (u.kind == kind) = true := fun u hu => by
        rw [kind_flattened t u hu, beq_iff_eq]
        exact hk
      rw [List.filter_eq_nil_iff.mpr hnone, if_neg fun h => hk (beq_iff_eq.mp h)]
      rfl

/-- Flattened parameters or properties have the paths that they have when they are nested. -/
theorem bare_flattened {tags : List Tag} (h : ∀ t ∈ tags, (t.kind = .param ∨ t.kind = .property)
    ∧ t.IsNamed) : (docPaths (tags.flatMap Tag.flattened)).map DocPath.bare
      = (docPaths tags).map DocPath.bare := by
  induction tags with
  | nil => rfl
  | cons t ts ih =>
    obtain ⟨⟨hkind, hnamed⟩, hts⟩ := List.forall_mem_cons.mp h
    rw [List.flatMap_cons, docPaths, docPathsBelow_append, docPaths, docPathsBelow,
      List.map_append, List.map_append]
    refine congrArg₂ (· ++ ·) ?_ (ih hts)
    rw [Tag.flattened, if_pos hkind]
    exact bare_flattenFrom hnamed (List.forall_mem_nil _)

end Flattened

namespace SchemaCheck

variable {c : SchemaCheck}

/-- The comment with its parameters and properties in dotted form. -/
def flattened (c : SchemaCheck) : SchemaCheck :=
  c.withTags (c.block.tags.flatMap Tag.flattened)

/-- Tags of other kinds stay as they are. -/
theorem tagsOf_flattened_of_ne {kind : TagKind} (hparam : kind ≠ .param)
    (hproperty : kind ≠ .property) : c.flattened.block.tagsOf kind = c.block.tagsOf kind := by
  have hkept : ∀ t ∈ c.block.tags.filter (fun t => t.kind == kind), t.flattened = [t] := by
    intro t ht
    have hkind : t.kind = kind := beq_iff_eq.mp (List.mem_filter.mp ht).2
    rw [Tag.flattened, if_neg]
    rw [hkind]
    exact not_or.mpr ⟨hparam, hproperty⟩
  refine (tagsOf_flattened c.block.tags kind).trans ?_
  rw [List.flatMap_congr hkept]
  exact List.flatMap_singleton' _

/-- A brief stays as it is, and no other tag becomes one. -/
theorem hasBrief_flattened : c.flattened.hasBrief = c.hasBrief := by
  have hfirst : ∀ t : Tag, ∃ u us, t.flattened = u :: us ∧ u.kind = t.kind
      ∧ (t.kind = .brief → u = t) := by
    intro t
    by_cases hkind : t.kind = .param ∨ t.kind = .property
    · have hnot : t.kind ≠ .brief := by
        rintro hb
        rw [hb] at hkind
        exact hkind.elim nofun nofun
      have hform : t.flattened = t.atPath t.kind ([] ++ t.segments)
          :: Tag.flattenBelow t.kind ([] ++ t.segments) t.children := by
        rw [Tag.flattened, if_pos hkind, Tag.flattenFrom_eq]
      exact ⟨_, _, hform, rfl, fun hb => absurd hb hnot⟩
    · exact ⟨t, [], if_neg hkind, rfl, fun _ => rfl⟩
  rw [hasBrief, hasBrief, CommentBlock.brief?, CommentBlock.brief?]
  change Option.any _ (match c.block.tags.flatMap Tag.flattened with
    | [] => none
    | t :: _ => if t.kind = .brief then some t else none) = _
  cases c.block.tags with
  | nil => rfl
  | cons t ts =>
    obtain ⟨u, us, ht, hkind, hsame⟩ := hfirst t
    rw [List.flatMap_cons, ht, List.cons_append]
    dsimp only
    rw [hkind]
    by_cases hb : t.kind = .brief
    · rw [if_pos hb, if_pos hb, hsame hb]
    · rw [if_neg hb, if_neg hb]

/-- Nested documentation of parameters and properties leads to the same diagnostics as its dotted
form, in the same order. -/
theorem run_flattened
    (hnamed : ∀ t ∈ c.block.tags, t.kind = .param ∨ t.kind = .property → t.IsNamed)
    (file : Path) : c.flattened.run file = c.run file := by
  have hdocs : ∀ kind : TagKind, kind = .param ∨ kind = .property →
      (docPaths (c.flattened.block.tagsOf kind)).map DocPath.bare
        = (docPaths (c.block.tagsOf kind)).map DocPath.bare := by
    intro kind hkind
    refine (congrArg _ (congrArg _ (tagsOf_flattened c.block.tags kind))).trans ?_
    refine bare_flattened fun t ht => ?_
    obtain ⟨hmem, hk⟩ := List.mem_filter.mp ht
    rw [← beq_iff_eq.mp hk] at hkind
    exact ⟨hkind, hnamed t hmem hkind⟩
  have hbrief : c.flattened.briefFindings = c.briefFindings := by
    rw [briefFindings, briefFindings, hasBrief_flattened]
    rfl
  have htemplate : c.flattened.templateFindings = c.templateFindings := by
    rw [templateFindings, templateFindings, tagsOf_flattened_of_ne (by decide) (by decide)]
    rfl
  have hparameter : c.flattened.parameterFindings = c.parameterFindings :=
    pathFindings_congr (hdocs .param (.inl rfl))
  have hproperty : c.flattened.propertyFindings = c.propertyFindings :=
    pathFindings_congr (hdocs .property (.inr rfl))
  have hreturn : c.flattened.returnFindings = c.returnFindings := by
    rw [returnFindings, returnFindings, tagsOf_flattened_of_ne (by decide) (by decide)]
    rfl
  have hthrows : c.flattened.throwsFindings = c.throwsFindings := by
    rw [throwsFindings, throwsFindings, tagsOf_flattened_of_ne (by decide) (by decide)]
    rfl
  have husage : c.flattened.usageFindings = c.usageFindings := by
    rw [usageFindings, usageFindings, tagsOf_flattened_of_ne (by decide) (by decide)]
    rfl
  have hfindings : c.flattened.findings = c.findings := by
    rw [findings, findings, hbrief, htemplate, hparameter, hproperty, hreturn, hthrows, husage]
  rw [run, run, hfindings]
  rfl

/-- Options that are documented by nested and dotted names, next to properties and a result. -/
def nestedExample : SchemaCheck where
  language := .typescript
  symbol :=
    { kind := .function
      name := "fetch"
      parameters :=
        [⟨"options",
          some ⟨"", [⟨"retry", some ⟨"", [⟨"limit", none, false⟩], false⟩, false⟩], false⟩, false⟩]
      returnType? := some ⟨"Page", [⟨"body", none, false⟩], false⟩
      declarationLine := 9 }
  block :=
    { startLine := 1
      tags :=
        [{ Tag.ofKind .brief 1 4 with description := "Fetches a page." },
          { Tag.ofKind .param 2 4 with
            name? := some "options"
            children :=
              [{ Tag.ofKind .property 3 6 with name? := some "retry[].limit", depth := 1 },
                { Tag.ofKind .property 4 6 with
                  name? := some ".retry"
                  depth := 1
                  optional := true
                  children :=
                    [{ Tag.ofKind .property 5 8 with name? := some "delay", depth := 2 }] }] },
          { Tag.ofKind .return 6 4 with
            children := [{ Tag.ofKind .property 7 6 with name? := some "body", depth := 1 }] }] }

/-- The options become four entries with dotted names, and the findings are the same: the option of
one of them and a name that the signature does not have. -/
theorem run_flattened_nestedExample :
    nestedExample.flattened.block.tags.map (fun t => (t.name?, t.children.length))
      = [(none, 0), (some "options".toList, 0), (some "options.retry.limit".toList, 0),
          (some "options.retry".toList, 0), (some "options.retry.delay".toList, 0), (none, 1)]
    ∧ nestedExample.flattened.run [] = nestedExample.run []
    ∧ (nestedExample.run []).map Diagnostic.code
      = [.optionalityMismatch, .unknownParam, .unresolvedType] := by
  have hnamed : ∀ t ∈ nestedExample.block.tags, t.kind = .param ∨ t.kind = .property →
      t.IsNamed := by
    have hleaf : ∀ t : Tag, t.children = [] → t.segments ≠ [] → t.IsNamed := fun t hc hs =>
      .intro hs (by rw [hc]; exact List.forall_mem_nil _)
    refine List.forall_mem_cons.mpr ⟨fun h => absurd h (by decide), List.forall_mem_cons.mpr
      ⟨fun _ => .intro (by decide +kernel) (List.forall_mem_cons.mpr ⟨?_, ?_⟩),
        List.forall_mem_singleton.mpr fun h => absurd h (by decide)⟩⟩
    · exact hleaf _ rfl (by decide +kernel)
    · exact List.forall_mem_singleton.mpr (.intro (by decide +kernel)
        (List.forall_mem_singleton.mpr (hleaf _ rfl (by decide +kernel))))
  exact ⟨by decide +kernel, run_flattened hnamed [], by decide +kernel⟩

end SchemaCheck

end DocContract
