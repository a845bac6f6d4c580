import DocContract.Proofs.Comment.Fields

/-!
# Warnings about a written comment

Warnings are about nested fields: their marker, their convention and their depth. The marker of a
written field belongs to its depth, so a reader that is configured for the convention and sets no
limit to the depth can only warn of the convention. A field with a type is written in the configured
convention; a field without one is written in the same way in both, which is the way of dashes and
pluses.
-/

namespace DocContract

open Text

/-- Fields that are marked with dashes and pluses are as they should be, at any depth. -/
structure Settings.AcceptsFields (s : Settings) : Prop where
  convention : s.markerConvention = .dashPlus
  unlimited : s.maxTagDepth? = none

/-! ### Fields in the other style -/

private theorem Tag.fieldConvention_eq_iff (c : Convention) (t : Tag) :
    t.fieldConvention c = c ↔ c = .dashPlus ∨ t.type?.isSome = true := by
  unfold fieldConvention
  cases c <;> cases t.type? <;> simp

/-- The warnings about fields that are written in a convention: one for each field that does not
follow it. -/
def Convention.styleWarnings (c : Convention) (ts : List Tag) : List ParseWarning :=
  (ts.filter fun t => t.fieldConvention c ≠ c).map fun t => .convention (t.fieldConvention c) c

namespace Convention

variable {c : Convention}

private theorem styleWarnings_append (ts us : List Tag) :
    c.styleWarnings (ts ++ us) = c.styleWarnings ts ++ c.styleWarnings us := by
  rw [styleWarnings, List.filter_append, List.map_append]
  rfl

private theorem styleWarnings_cons (t : Tag) (ts : List Tag) :
    c.styleWarnings (t :: ts) = c.styleWarnings [t] ++ c.styleWarnings ts :=
  styleWarnings_append [t] ts

/-- No field is in the other style exactly when none lacks a type, or types come behind a colon. -/
theorem styleWarnings_eq_nil_iff {ts : List Tag} :
    c.styleWarnings ts = [] ↔ c = .dashPlus ∨ ∀ t ∈ ts, t.type?.isSome = true := by
  rw [styleWarnings, List.map_eq_nil_iff, List.filter_eq_nil_iff]
  simp only [ne_eq, decide_not, Bool.not_eq_true', decide_eq_false_iff_not, Decidable.not_not,
    Tag.fieldConvention_eq_iff]
  by_cases hc : c = .dashPlus <;> simp [hc]

end Convention

/-! ### Nested fields -/

section Fields

variable {s : Settings} (hs : s.maxTagDepth? = none)

/-- At depth `n`, the written lines are read with the warnings about the fields. -/
def ReadsWarned (s : Settings) (n : Nat) (written : List Text) (ts : List Tag) : Prop :=
  ∀ ls : List InteriorLine, ls.map InteriorLine.text = written →
  ∀ b : Branch, b.root.kind.acceptsChildren = true → (b.upTo (2 * n)).path.length + 1 = n →
    (Group.advance s (.entry b false) ls).2.warnings.map Located.value
      = s.markerConvention.styleWarnings ts

namespace ReadsWarned

variable {n : Nat}

private theorem nil : ReadsWarned s n [] [] := by
  intro ls hls b _ _
  obtain rfl : ls = [] := List.map_eq_nil_iff.mp hls
  rfl

private theorem append {written written' : List Text} {read ts us : List Tag}
    (hr : ReadsFields s n written read) (h : ReadsWarned s n written ts)
    (h' : ReadsWarned s n written' us) : ReadsWarned s n (written ++ written') (ts ++ us) := by
  intro ls hls b hk hd
  obtain ⟨ls₁, ls₂, rfl, h₁, h₂⟩ := List.map_eq_append_iff.mp hls
  obtain ⟨b₁, out₁, ts₁, ha₁, -, hb₁, -⟩ := hr ls₁ h₁ b hk hd
  obtain ⟨hk₁, hd₁⟩ := Branch.takes_graft hk hd hb₁
  have hfirst := h ls₁ h₁ b hk hd
  have hrest := h' ls₂ h₂ b₁ hk₁ hd₁
  rw [Group.advance_append, Output.warnings_append, List.map_append, hfirst, ha₁, hrest,
    Convention.styleWarnings_append]

include hs

/-- A field that is written at its depth gives no warning but that of its convention. -/
theorem fieldWarnings_written (t : Tag) (n indent : Nat) (header? : Option Header) :
    Group.fieldWarnings s
        ⟨indent, Marker.ofDepth n, t.fieldConvention s.markerConvention, header?⟩ n
      = s.markerConvention.styleWarnings [t] := by
  simp only [Group.fieldWarnings, Convention.styleWarnings, hs, if_true, List.nil_append,
    List.append_nil]
  by_cases h : t.fieldConvention s.markerConvention = s.markerConvention <;> simp [h]

/-- The line of a field and the lines of the fields below it. -/
theorem field {t : Tag} (hh : s.markerConvention.Expresses t.header) {written : List Text}
    {ts : List Tag} (h : ReadsWarned s (n + 1) written ts) :
    ReadsWarned s n (Tag.fieldLine s.markerConvention n t :: written) (t :: ts) := by
  intro ls hls b hb hd
  obtain ⟨l, ls, rfl, hl, hls⟩ := List.map_eq_cons_iff.mp hls
  obtain ⟨hk₁, hd₁⟩ := Branch.takes_push hb hd
    ((Tag.ofKind .property l.line (l.column + 2 * n)).withHeader t.header)
  rw [Group.advance_cons, Branch.step_fieldLine hb hd hh hl, fieldWarnings_written hs,
    Convention.styleWarnings_cons t ts, ← h ls hls _ hk₁ hd₁, Output.warnings_append,
    List.map_append, List.map_map]
  exact congrArg (· ++ _) (List.map_id _)

private theorem of_isField {t : Tag} (h : t.IsField s.markerConvention n) :
    ReadsWarned s n (Tag.fieldLines s.markerConvention n t) (t :: t.nested) := by
  induction h with
  | @intro n t _ _ hh _ hchildren ih =>
    have hlines : Tag.fieldLines s.markerConvention n t = Tag.fieldLine s.markerConvention n t
        :: Tag.childLines s.markerConvention (n + 1) t.children := by
      cases t
      rfl
    rw [hlines, Tag.nested_eq]
    apply field hs hh
    generalize t.children = ts at hchildren ih
    induction ts with
    | nil => exact nil
    | cons child ts ihts =>
      obtain ⟨hchild, hts⟩ := List.forall_mem_cons.mp ih
      obtain ⟨hfield, hfields⟩ := List.forall_mem_cons.mp hchildren
      exact append (ReadsFields.of_isField hfield) hchild (ihts hfields hts)

/-- The lines of nested fields at one depth are read with the warnings about these fields and the
ones below them. -/
theorem of_forall {ts : List Tag} (h : ∀ t ∈ ts, t.IsField s.markerConvention n) :
    ReadsWarned s n (Tag.childLines s.markerConvention n ts) (Tag.nestedAll ts) := by
  induction ts with
  | nil => exact nil
  | cons t ts ih =>
    obtain ⟨ht, hts⟩ := List.forall_mem_cons.mp h
    exact append (ReadsFields.of_isField ht) (of_isField hs ht) (ih hts)

end ReadsWarned

end Fields

/-! ### Tags -/

namespace Group

variable {s : Settings} {column : Nat}

/-- Closing a group warns of nothing. -/
theorem warnings_finish (g : Group) : g.finish.warnings = [] := by
  cases g <;> rfl

/-- Opening a group warns of nothing. -/
theorem warnings_opened (sigil : SigilLine) (line column : Nat) :
    (opened s sigil line column).2.warnings = [] := by
  generalize h : opened s sigil line column = next
  cases Opens.of_eq h <;> rfl

/-- The line that opens the group of a tag has no warning of its own. -/
theorem warnings_headLine {c : Convention} {t : Tag} (h : t.IsExpressible c) {l : InteriorLine}
    (hl : l.text = t.headLine) (hcol : l.text ≠ [] → l.column = column) {g : Group}
    (hg : g.EndsAt column) (ls : List InteriorLine) :
    (advance s g (l :: ls)).2.warnings
      = (advance s (opened s ⟨t.kind.name, t.sigilRest⟩ l.line column).1 ls).2.warnings := by
  rw [advance_cons, step_headLine h hl hcol hg, Output.warnings_append, Output.warnings_append,
    warnings_finish, warnings_opened]
  rfl

/-- The lines of a usage tag and of its snippet. -/
theorem warnings_usage {c : Convention} {t : Tag} (h : t.IsExpressible c) (hk : t.kind = .usage)
    {ls : List InteriorLine}
    (hls : ls.map InteriorLine.text = t.headLine :: Tag.snippetLines t.snippet?)
    (hcol : AtColumn column ls) {g : Group} (hg : g.EndsAt column) :
    (advance s g ls).2.warnings = [] := by
  obtain ⟨sn, hsn, hw⟩ := h.exists_snippet hk
  obtain ⟨l, ls, rfl, hl, hls⟩ := List.map_eq_cons_iff.mp hls
  rw [hsn] at hls
  rw [warnings_headLine h hl (hcol l List.mem_cons_self) hg, hk, opened_usage,
    advance_snippet hw _ hls]

section Tags

variable (hs : s.maxTagDepth? = none)

include hs

/-- The lines of a tag with a header and nested fields. -/
theorem warnings_entry {t : Tag} (h : t.IsExpressible s.markerConvention) (hu : t.kind ≠ .usage)
    {ls : List InteriorLine} (hls : ls.map InteriorLine.text
      = t.headLine :: Tag.childLines s.markerConvention 1 t.children)
    (hcol : AtColumn column ls) {g : Group} (hg : g.EndsAt column) :
    (advance s g ls).2.warnings.map Located.value = s.markerConvention.styleWarnings t.nested := by
  obtain ⟨l, ls, rfl, hl, hls⟩ := List.map_eq_cons_iff.mp hls
  rw [warnings_headLine h hl (hcol l List.mem_cons_self) hg, Tag.nested_eq]
  cases hk : t.kind.acceptsChildren with
  | false =>
    rw [h.childless hk, Tag.childLines] at hls
    obtain rfl : ls = [] := List.map_eq_nil_iff.mp hls
    rw [h.childless hk]
    rfl
  | true =>
    rw [opened_header h.sigil hu, Tag.header?_sigilRest h.header,
      Tag.reheader?_of_acceptsChildren hk]
    have hopen : ∀ root, Branch.upTo (2 * 1) ⟨root, []⟩ = ⟨root, []⟩ := Branch.upTo_nil _
    exact ReadsWarned.of_forall hs h.children ls hls _ hk (by rw [hopen]; rfl)

private theorem warnings_tag {t : Tag} (h : t.IsExpressible s.markerConvention)
    {ls : List InteriorLine}
    (hls : ls.map InteriorLine.text = t.tagLines s.markerConvention) (hcol : AtColumn column ls)
    {g : Group} (hg : g.EndsAt column) :
    (advance s g ls).2.warnings.map Located.value = s.markerConvention.styleWarnings t.nested := by
  unfold Tag.tagLines at hls
  split at hls
  · next hk => exact absurd hk h.sigil
  · next hk =>
    rw [warnings_usage h hk hls hcol hg, Tag.nested_eq, h.childless (by rw [hk]; rfl)]
    rfl
  · next hk =>
    refine warnings_entry hs h (by rw [hk]; decide) ?_ hcol hg
    rw [hls, h.childless (by rw [hk]; rfl)]
    rfl
  all_goals next hk => exact warnings_entry hs h (by rw [hk]; decide) hls hcol hg

/-- The lines of some tags are read with the warnings about their fields. -/
theorem warnings_tags {ts : List Tag} (h : ∀ t ∈ ts, t.IsExpressible s.markerConvention)
    {ls : List InteriorLine}
    (hls : ls.map InteriorLine.text = ts.flatMap (Tag.tagLines s.markerConvention))
    (hcol : AtColumn column ls) {g : Group} (hg : g.EndsAt column) :
    (run s g ls).warnings.map Located.value
      = s.markerConvention.styleWarnings (ts.flatMap Tag.nested) := by
  induction ts generalizing ls g with
  | nil =>
    obtain rfl : ls = [] := List.map_eq_nil_iff.mp hls
    rw [run, warnings_finish]
    rfl
  | cons t ts ih =>
    obtain ⟨ht, hts⟩ := List.forall_mem_cons.mp h
    rw [List.flatMap_cons] at hls
    obtain ⟨ls₁, ls₂, rfl, h₁, h₂⟩ := List.map_eq_append_iff.mp hls
    obtain ⟨g', out, hadv, hg', -⟩ := advance_tag (s := s) ht h₁ hcol.append_left hg
    have hfirst := warnings_tag hs ht h₁ hcol.append_left hg
    rw [hadv] at hfirst
    rw [run_append, hadv, Output.warnings_append, List.map_append, hfirst,
      ih hts h₂ hcol.append_right hg', ← Convention.styleWarnings_append, ← List.flatMap_cons]

end Tags

end Group

/-! ### The whole block -/

namespace CommentBlock

variable {s : Settings} {b : CommentBlock}

/-- The nested fields of all tags, each in front of those below it. -/
def fields (b : CommentBlock) : List Tag := b.tags.flatMap Tag.nested

/-- A brief has no fields. -/
theorem IsExpressible.fields_eq {c : Convention} (h : b.IsExpressible c) :
    b.fields = b.entries.flatMap Tag.nested := by
  have hbrief : b.brief?.toList.flatMap Tag.nested = [] := by
    rw [List.flatMap_eq_nil_iff]
    intro t ht
    rw [Tag.nested_eq, (h.brief t (by simpa using ht)).childless]
    rfl
  rw [fields, tags_eq, List.flatMap_append, hbrief, List.nil_append]

/-- The interior lines of an expressible block, at any places, are read with one warning for each
field that is not in the configured convention, and no other. -/
theorem warnings_parseLines_interior (hs : s.maxTagDepth? = none)
    (h : b.IsExpressible s.markerConvention) {column : Nat} {ls : List InteriorLine}
    (hls : ls.map InteriorLine.text = b.interiorLines s.markerConvention)
    (hcol : AtColumn column ls) : (parseLines s ls).warnings.map Located.value
      = s.markerConvention.styleWarnings b.fields := by
  obtain ⟨-, hmarked⟩ := split_interior h hls
  have hcol : AtColumn column (ls.dropWhile fun l => l.sigil?.isNone) := fun l hl =>
    hcol l (List.dropWhile_subset (fun l : InteriorLine => l.sigil?.isNone) hl)
  change (Group.run s .skip (ls.dropWhile fun l => l.sigil?.isNone)).warnings.map Located.value = _
  generalize ls.dropWhile (fun l => l.sigil?.isNone) = ms at hmarked hcol
  rw [markedLines, h.tagLines] at hmarked
  rw [h.fields_eq]
  by_cases ha : b.asyncMarker = true
  · rw [if_pos ha] at hmarked
    obtain ⟨l, ms, rfl, hl, hms⟩ := List.map_eq_cons_iff.mp hmarked
    have hrest := Group.warnings_tags hs h.entries hms
      (fun l hl => hcol l (List.mem_cons_of_mem _ hl)) (g := .skip) trivial
    rw [Group.run_cons, (Group.step_async hl).2]
    exact hrest
  · rw [if_neg ha] at hmarked
    exact Group.warnings_tags hs h.entries hmarked hcol (g := .skip) trivial

/-- The interior lines of an expressible block, at any places, are read without a warning when
dashes and pluses are expected. -/
theorem warnings_interior (hs : s.AcceptsFields) (h : b.IsExpressible .dashPlus) {column : Nat}
    {ls : List InteriorLine} (hls : ls.map InteriorLine.text = b.interiorLines .dashPlus)
    (hcol : AtColumn column ls) : (parseLines s ls).warnings = [] := by
  obtain ⟨hconvention, hdepth⟩ := hs
  rw [← hconvention] at h hls
  rw [← List.map_eq_nil_iff, warnings_parseLines_interior hdepth h hls hcol,
    Convention.styleWarnings_eq_nil_iff]
  exact .inl hconvention

/-- The interior text of an expressible block is read with one warning for each field that is not in
the configured convention, and no other. -/
theorem warnings_parseText_renderInterior (hs : s.maxTagDepth? = none)
    (h : b.IsExpressible s.markerConvention) :
    (parseText s (b.renderInterior s.markerConvention)).warnings.map Located.value
      = s.markerConvention.styleWarnings b.fields := by
  obtain ⟨htext, hcol⟩ := textLines_renderInterior h
  have hparse := warnings_parseLines_interior hs h htext hcol
  unfold parseText
  dsimp only
  split
  · exact hparse
  · exact hparse

/-- A block that is written in the configured convention is read without a warning exactly when
types come behind a colon or no nested field lacks one. -/
theorem renderInterior_unwarned_iff (hs : s.maxTagDepth? = none)
    (h : b.IsExpressible s.markerConvention) :
    (parseText s (b.renderInterior s.markerConvention)).warnings = []
      ↔ s.markerConvention = .dashPlus ∨ ∀ t ∈ b.fields, t.type?.isSome = true := by
  rw [← List.map_eq_nil_iff, warnings_parseText_renderInterior hs h,
    Convention.styleWarnings_eq_nil_iff]

/-- Settings that expect types in braces. -/
def bracedSettings : Settings where
  markerConvention := .braceTyped

/-- A parameter with one nested field, which may have a type. -/
def fieldExample (type? : Option Text) : CommentBlock where
  tags :=
    [{ Tag.ofKind .param 1 1 with
        name? := some "a", description := "x"
        children := [{ Tag.ofKind .property 2 3 with
          name? := some "b", type? := type?, depth := 1 }] }]

private theorem fieldExample_isCanonical {type? : Option Text}
    (h : ∀ type ∈ type?, Convention.braceTyped.IsFieldType type) :
    (fieldExample type?).IsCanonical .braceTyped := by
  have hx : IsTidy "x" := by decide
  refine ⟨⟨nofun, ?_, nofun, fun _ => rfl⟩, ?_⟩
  · intro t ht
    rw [List.mem_singleton.mp ht]
    refine ⟨nofun, rfl, ⟨⟨⟨_, rfl, by decide⟩, nofun⟩, hx⟩, rfl, ?_, nofun⟩
    rw [List.forall_mem_singleton]
    exact .intro rfl rfl ⟨⟨_, rfl, by decide⟩, h, isTidy_nil⟩ rfl nofun
  · intro t ht
    rw [List.mem_singleton.mp ht]
    exact ⟨nofun, nofun, nofun⟩

/-- A type that holds braces itself. -/
theorem renderInterior_unwarned_iff_typed :
    bracedSettings.maxTagDepth? = none
      ∧ (fieldExample (some "{id: T}")).IsExpressible bracedSettings.markerConvention
      ∧ ((parseText bracedSettings
            ((fieldExample (some "{id: T}")).renderInterior .braceTyped)).warnings = []
          ↔ bracedSettings.markerConvention = .dashPlus
            ∨ ∀ t ∈ (fieldExample (some "{id: T}")).fields, t.type?.isSome = true) := by
  have h : (fieldExample (some "{id: T}")).IsExpressible .braceTyped :=
    (fieldExample_isCanonical (by rintro _ ⟨⟩; decide)).expressible
  exact ⟨rfl, h, renderInterior_unwarned_iff rfl h⟩

/-- A field without a type is written with dashes where braces are expected. -/
theorem warned_bareField : (fieldExample none).IsCanonical bracedSettings.markerConvention
    ∧ (parseText bracedSettings ((fieldExample none).renderInterior .braceTyped)).warnings
      = [⟨2, 3, .convention .dashPlus .braceTyped⟩] :=
  ⟨fieldExample_isCanonical nofun, by decide +kernel⟩

end CommentBlock

end DocContract
