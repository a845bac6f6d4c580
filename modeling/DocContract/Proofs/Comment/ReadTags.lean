import DocContract.Proofs.Comment.ReadFields
import DocContract.Proofs.Comment.Snippet
import DocContract.Proofs.Text.Cut

/-!
# Tags read from their written form

The lines of an expressible tag end the group in front of them and are read as one tag: the tag
itself when it is settled, and otherwise one that differs in its description or its snippet, or an
error when the kind of an error is missing. Several tags are read one after another.
-/

namespace DocContract

open Text

namespace Tag

/-- The tag that is read from the lines of a tag. -/
def reread? (t : Tag) : Option Tag :=
  match t.kind with
  | .throws => t.name?.map fun _ => { t with description := undashed t.description }
  | .usage =>
    some { t with
      snippet? := t.snippet?.map fun s => { s with body := join ['\n'] (lines s.body) } }
  | _ => some t

private theorem withHeader_header (t : Tag) : t.withHeader t.header = t := by
  cases t
  rfl

/-- Apart from usage tags, what is read is the tag with the header that is read. -/
theorem reread?_eq {t : Tag} (hb : t.kind ≠ .brief) (hu : t.kind ≠ .usage) :
    t.reread? = t.reheader?.map t.withHeader := by
  unfold reread? reheader?
  cases hk : t.kind with
  | brief => exact absurd hk hb
  | usage => exact absurd hk hu
  | throws => cases hn : t.name? <;> simp [withHeader, header, hn, hk]
  | _ => exact congrArg some t.withHeader_header.symm

/-- An expressible tag is settled exactly when it is read as it is, places apart. -/
theorem isSettled_iff_reread {c : Convention} {t : Tag} (h : t.IsExpressible c) :
    t.IsSettled ↔ ∃ t', t.reread? = some t' ∧ t'.unplaced = t.unplaced := by
  have hd : IsTidy t.description := h.header.description
  constructor
  · intro hs
    refine ⟨t, ?_, rfl⟩
    unfold reread?
    split
    · next hk =>
      obtain ⟨name, hn⟩ := Option.isSome_iff_exists.mp (hs.named hk)
      rw [hn, Option.map_some, (undashed_eq_self hd).mpr (hs.undashed hk), ← hn]
      cases t
      rfl
    · next hk =>
      obtain ⟨sn, hsn, hw⟩ := h.exists_snippet hk
      rw [hsn, Option.map_some, hw.join_lines_eq_self.mpr (hs.ended sn hsn), ← hsn]
      cases t
      rfl
    · rfl
  · rintro ⟨t', ht', hu⟩
    rw [unplaced_eq, unplaced_eq] at hu
    unfold reread? at ht'
    split at ht'
    · next hk =>
      obtain ⟨name, hn, rfl⟩ := Option.map_eq_some_iff.mp ht'
      refine ⟨fun _ => by rw [hn]; rfl, fun _ => ?_, ?_⟩
      · exact (undashed_eq_self hd).mp (congrArg Tag.description hu)
      · rw [h.plain (by rw [hk]; decide)]
        simp
    · next hk =>
      refine ⟨fun hk' => ?_, fun hk' => ?_, ?_⟩
      · rw [hk] at hk'; cases hk'
      · rw [hk] at hk'; cases hk'
      · intro sn hsn
        cases ht'
        obtain ⟨sn', hsn', hw⟩ := h.exists_snippet hk
        rw [hsn'] at hsn
        cases hsn
        have he := congrArg Tag.snippet? hu
        simp only [hsn', Option.map_some, Option.some.injEq] at he
        exact hw.join_lines_eq_self.mp (congrArg Snippet.body he)
    · next hthrows husage =>
      refine ⟨fun hk => (hthrows hk).elim, fun hk => (hthrows hk).elim, ?_⟩
      rw [h.plain husage]
      simp

end Tag

/-! ### The pieces of a group -/

namespace Group

variable {s : Settings}

/-- The group that a sigil line of a kind with a header opens. -/
theorem opened_header {kind : TagKind} {rest : Text} {line column : Nat}
    (hb : kind ≠ .brief) (hu : kind ≠ .usage) :
    opened s ⟨kind.name, rest⟩ line column = match kind.header? rest with
      | some header => (.entry ⟨(Tag.ofKind kind line column).withHeader header, []⟩ false, {})
      | none => (.skip, Output.ofError line column (.badHeader kind kind.name rest)) := by
  rw [opened, if_neg (TagKind.name_ne_async kind), TagKind.ofSigil?_name hb]
  cases kind with
  | usage => exact absurd rfl hu
  | _ => rfl

/-- The sigil of a usage example opens a group that waits for a fence. -/
theorem opened_usage {rest : Text} {line column : Nat} :
    opened s ⟨TagKind.usage.name, rest⟩ line column
      = (.awaitFence ((Tag.ofKind .usage line column).extend rest), {}) := by
  exact (Opens.usage rfl).eq

/-- The lines of nested fields below a tag without fields. -/
theorem advance_children {c : Convention} {root : Tag} {ts : List Tag} {ls : List InteriorLine}
    (hroot : root.children = []) (h : ∀ t ∈ ts, t.IsField c 1)
    (hk : root.kind.acceptsChildren = false → ts = [])
    (hls : ls.map InteriorLine.text = Tag.childLines c 1 ts) :
    ∃ b out ts', advance s (.entry ⟨root, []⟩ false) ls = (.entry b false, out) ∧ out.IsQuiet
      ∧ b.root.column = root.column ∧ b.toTag = { root with children := ts' }
      ∧ ts'.map Tag.unplaced = ts.map Tag.unplaced := by
  by_cases hc : root.kind.acceptsChildren = true
  · have hopen : Branch.upTo (2 * 1) ⟨root, []⟩ = ⟨root, []⟩ := Branch.upTo_nil _ root
    obtain ⟨b, out, ts', hadv, hq, hb, hts⟩ :=
      ReadsFields.of_forall (s := s) h ls hls ⟨root, []⟩ hc (by rw [hopen]; rfl)
    refine ⟨b, out, ts', hadv, hq, (Branch.sameRoot_of_graft hb).column, ?_, hts⟩
    rw [← Branch.toTag_upTo (2 * 1) b, hb, hopen, Branch.graft, Branch.toTag_nil, hroot,
      List.nil_append]
  · obtain rfl := hk (Bool.eq_false_iff.mpr hc)
    obtain rfl : ls = [] := List.map_eq_nil_iff.mp hls
    refine ⟨⟨root, []⟩, {}, [], rfl, Output.isQuiet_empty, rfl, ?_, rfl⟩
    rw [Branch.toTag_nil]
    obtain ⟨⟩ := root
    cases hroot
    rfl

/-- The lines of a snippet are gathered until its closing fence. -/
theorem advance_fence {tag : Tag} {language : Text} {body : List Text} {ls : List InteriorLine}
    (h : ∀ l ∈ ls, trim l.text ≠ fenceMark) :
    advance s (.fence tag language body) ls
      = (.fence tag language ((ls.map InteriorLine.text).reverse ++ body), {}) := by
  induction ls generalizing body with
  | nil => rfl
  | cons l ls ih =>
    obtain ⟨hl, hls⟩ := List.forall_mem_cons.mp h
    have hstep : step s (.fence tag language body) l
        = (.fence tag language (l.text :: body), {}) := by
      rw [step]
      exact (Continues.code hl).eq
    rw [advance_cons, hstep]
    dsimp only
    rw [ih hls, Output.empty_append]
    simp

end Group

/-- The output is what the lines of some tags give: the tags that are read from them, and an error
for each that is not. -/
structure Output.Yields (o : Output) (ts : List Tag) : Prop where
  asyncMarker : o.asyncMarker = false
  tags : o.tags.map Tag.unplaced = (ts.filterMap Tag.reread?).map Tag.unplaced
  errors : o.errors = [] ↔ ∀ t ∈ ts, t.reread?.isSome = true

private theorem Output.yields_nil : Output.Yields {} [] := ⟨rfl, rfl, by simp⟩

private theorem Output.Yields.append {a b : Output} {ts us : List Tag} (ha : a.Yields ts)
    (hb : b.Yields us) : (a ++ b).Yields (ts ++ us) where
  asyncMarker := by simp [ha.asyncMarker, hb.asyncMarker]
  tags := by simp [ha.tags, hb.tags]
  errors := by
    rw [Output.errors_append, List.append_eq_nil_iff, ha.errors, hb.errors, List.forall_mem_append]

/-- Quiet output in front of that of a tag. -/
theorem Output.Yields.of_tag {o : Output} {t t' : Tag} (hq : o.IsQuiet) {u : Tag}
    (ht : t.reread? = some t') (hu : u.unplaced = t'.unplaced) :
    (o ++ { tags := [u] }).Yields [t] where
  asyncMarker := by simp [hq.asyncMarker]
  tags := by simp [hq.tags, ht, hu]
  errors := by simp [hq.errors, ht]

/-- All lines with something on them start in one column. -/
def AtColumn (column : Nat) (ls : List InteriorLine) : Prop :=
  ∀ l ∈ ls, l.text ≠ [] → l.column = column

/-- Of lines at a column the first ones are. -/
theorem AtColumn.append_left {column : Nat} {ls ms : List InteriorLine}
    (h : AtColumn column (ls ++ ms)) : AtColumn column ls :=
  fun l hl => h l (List.mem_append_left _ hl)

/-- Of lines at a column the last ones are. -/
theorem AtColumn.append_right {column : Nat} {ls ms : List InteriorLine}
    (h : AtColumn column (ls ++ ms)) : AtColumn column ms :=
  fun l hl => h l (List.mem_append_right _ hl)

namespace Tag

/-- The header line of a tag with a sigil, at a column. -/
theorem sigil?_headLine {t : Tag} {l : InteriorLine} (hb : t.kind ≠ .brief)
    (h : t.kind.Expresses t.header) (hl : l.text = t.headLine) :
    l.sigil? = some ⟨t.kind.name, t.sigilRest⟩ ∧ l.contentColumn = l.column ∧ l.text ≠ [] := by
  obtain ⟨c, word, hname, hc, hword⟩ := t.kind.name_cons
  have htidy := sigilRest_tidy h
  have hsigil : t.kind.sigil = '@' :: c :: word := by
    rw [← hname]
    cases hk : t.kind with
    | brief => exact absurd hk hb
    | _ => rfl
  have htext : l.text = withText ('@' :: c :: word) t.sigilRest := by
    rw [hl, headLine_eq hb, hsigil]
  have hstart : ∃ r, l.text = '@' :: r := by
    rw [htext, withText]
    split <;> exact ⟨_, rfl⟩
  obtain ⟨r, hr⟩ := hstart
  have hsolid : trimStart l.text = l.text := by
    rw [hr]
    exact trimStart_cons_solid (by decide)
  refine ⟨?_, ?_, by simp [hr]⟩
  · rw [InteriorLine.sigil?, hsolid, htext, hname]
    exact SigilLine.parse?_written hc hword htidy.startsSolid htidy.oneLine
  · have hblank : isBlank '@' = false := by decide
    rw [InteriorLine.contentColumn, hr]
    simp [Text.indent, leadingBlanks, hblank, width]

end Tag

namespace Group

variable {s : Settings} {column : Nat} {c : Convention}

/-- The sigil line of a tag ends a group and opens that of the tag. -/
theorem step_headLine {t : Tag} (h : t.IsExpressible c) {l : InteriorLine}
    (hl : l.text = t.headLine) (hcol : l.text ≠ [] → l.column = column) {g : Group}
    (hg : g.EndsAt column) : step s g l
      = ((opened s ⟨t.kind.name, t.sigilRest⟩ l.line column).1,
        g.finish ++ (opened s ⟨t.kind.name, t.sigilRest⟩ l.line column).2) := by
  obtain ⟨hsigil, hcontent, hne⟩ := Tag.sigil?_headLine h.sigil h.header hl
  obtain rfl : l.contentColumn = column := hcontent.trans (hcol hne)
  exact step_sigil hg hsigil

/-- The line of the asynchronous marker. -/
theorem step_async {l : InteriorLine} (hl : l.text = "@async") :
    l.sigil?.isSome = true ∧ step s .skip l = (.skip, { asyncMarker := true }) := by
  have hsigil : l.sigil? = some ⟨"async", []⟩ := by
    rw [InteriorLine.sigil?, hl]
    decide
  rw [hsigil, step_sigil (g := .skip) trivial hsigil, (Opens.marker rfl).eq]
  exact ⟨rfl, rfl⟩

/-- The lines of a tag with a header and nested fields. -/
theorem advance_entry {t : Tag} (h : t.IsExpressible c) (hu : t.kind ≠ .usage)
    {ls : List InteriorLine}
    (hls : ls.map InteriorLine.text = t.headLine :: Tag.childLines c 1 t.children)
    (hcol : AtColumn column ls) {g : Group} (hg : g.EndsAt column) :
    ∃ g' out, advance s g ls = (g', g.finish ++ out) ∧ g'.EndsAt column
      ∧ (out ++ g'.finish).Yields [t] := by
  obtain ⟨l, ls, rfl, hl, hls⟩ := List.map_eq_cons_iff.mp hls
  have hstep := step_headLine (s := s) h hl (hcol l List.mem_cons_self) hg
  rw [opened_header h.sigil hu, Tag.header?_sigilRest h.header] at hstep
  cases hr : t.reheader? with
  | none =>
    -- Only an error without a kind has no header, and it has no fields either.
    have hthrows : t.kind = .throws ∧ t.name? = none := by
      unfold Tag.reheader? at hr
      split at hr
      · next hk => exact absurd hk h.sigil
      · next hk => exact absurd hk hu
      · next hk => exact ⟨hk, Option.map_eq_none_iff.mp hr⟩
      · cases hr
    have hchildren : t.children = [] := h.childless (by rw [hthrows.1]; rfl)
    rw [hchildren, Tag.childLines] at hls
    obtain rfl : ls = [] := List.map_eq_nil_iff.mp hls
    have hreread : t.reread? = none := by
      rw [Tag.reread?_eq h.sigil hu, hr]
      rfl
    rw [hr] at hstep
    refine ⟨.skip, Output.ofError l.line column (.badHeader t.kind t.kind.name t.sigilRest), ?_,
      trivial, ?_⟩
    · rw [advance_cons, hstep, advance_nil, Output.append_empty]
    · exact ⟨rfl, by simp [hreread, Output.ofError, finish], by simp [hreread, Output.ofError]⟩
  | some header =>
    have hreread : t.reread? = some (t.withHeader header) := by
      rw [Tag.reread?_eq h.sigil hu, hr]
      rfl
    obtain ⟨root, hroot⟩ : ∃ root, root = (Tag.ofKind t.kind l.line column).withHeader header :=
      ⟨_, rfl⟩
    have hkind : root.kind = t.kind := by rw [hroot]; rfl
    have hcolumn : root.column = column := by rw [hroot]; rfl
    rw [hr] at hstep
    dsimp only at hstep
    rw [← hroot] at hstep
    have hleaf : root.children = [] := by rw [hroot]; rfl
    obtain ⟨b, out, ts', hadv, hq, hbcol, hb, hts⟩ := advance_children hleaf h.children
      (fun hk => h.childless (by rwa [hkind] at hk)) hls
    refine ⟨.entry b false, out, ?_, ?_, ?_⟩
    · rw [advance_cons, hstep, hadv, Output.append_empty]
    · change column ≤ b.root.column
      rw [hbcol, hcolumn]
    · refine .of_tag hq hreread ?_
      have hlevel := h.level
      rw [hb, Tag.unplaced_eq, Tag.unplaced_eq, hroot]
      simp only [hts, Tag.withHeader, Tag.ofKind, hlevel, h.plain hu]

private theorem extend_ofKind {kind : TagKind} {line column : Nat} {d : Text} (hd : IsTidy d) :
    (Tag.ofKind kind line column).extend d
      = { Tag.ofKind kind line column with description := d } := by
  unfold Tag.extend
  rw [hd.trimmed]
  cases d with
  | nil => rfl
  | cons c r => rfl

/-- A fence line opens the snippet that a usage tag waits for. -/
theorem step_openFence {tag : Tag} {language : Text} {l : InteriorLine}
    (hl : after? fenceMark (trimStart l.text) = some language) :
    step s (.awaitFence tag) l = (.fence tag (trim language) [], {}) := by
  have hsigil : l.sigil? = none := by
    rw [InteriorLine.sigil?, after?_eq_some_iff.mp hl]
    rfl
  rw [step_continued hsigil]
  exact (Continues.fence hl).eq

/-- A fence line closes the snippet. -/
theorem step_closeFence {tag : Tag} {language : Text} {body : List Text} {l : InteriorLine}
    (hl : trim l.text = fenceMark) :
    step s (.fence tag language body) l
      = (.entry ⟨{ tag with snippet? := some ⟨language, dedent body.reverse⟩ }, []⟩ false, {}) := by
  rw [step]
  exact (Continues.closed hl).eq

/-- The lines of a snippet below the usage tag that waits for it. -/
theorem advance_snippet {sn : Snippet} (hw : sn.IsWritable) (tag : Tag) {ls : List InteriorLine}
    (hls : ls.map InteriorLine.text = Tag.snippetLines (some sn)) :
    advance s (.awaitFence tag) ls
      = (.entry ⟨{ tag with
          snippet? := some ⟨sn.language, join ['\n'] (lines sn.body)⟩ }, []⟩ false, {}) := by
  obtain ⟨first, rest, rfl, hfirst, hrest⟩ := List.map_eq_cons_iff.mp hls
  obtain ⟨body, ends, rfl, hbody, hends⟩ := List.map_eq_append_iff.mp hrest
  obtain ⟨last, none, rfl, hlast, hnone⟩ := List.map_eq_cons_iff.mp hends
  obtain rfl := List.map_eq_nil_iff.mp hnone
  have hopen : step s (.awaitFence tag) first = (.fence tag sn.language [], {}) := by
    have hfence : after? fenceMark (trimStart first.text) = some sn.language := by
      rw [hfirst]
      rfl
    rw [step_openFence hfence, hw.language.trimmed]
  have hfence : ∀ l ∈ body, trim l.text ≠ fenceMark := fun l hl =>
    hw.unfenced _ (hw.mem_rawLines (hbody ▸ List.mem_map_of_mem hl))
  have hkeep : advance s (.fence tag sn.language []) body
      = (.fence tag sn.language ((body.map InteriorLine.text).reverse ++ []), {}) :=
    advance_fence hfence
  rw [List.append_nil, hbody] at hkeep
  have hclose := @step_closeFence s tag sn.language (lines sn.body).reverse last
    (by rw [hlast]; decide)
  rw [List.reverse_reverse, hw.dedent_lines] at hclose
  rw [advance_cons, hopen, advance_append, hkeep, advance_cons, hclose, advance_nil]
  simp only [Output.append_empty]

/-- The lines of a usage tag and of its snippet. -/
theorem advance_usage {t : Tag} (h : t.IsExpressible c) (hk : t.kind = .usage)
    {ls : List InteriorLine}
    (hls : ls.map InteriorLine.text = t.headLine :: Tag.snippetLines t.snippet?)
    (hcol : AtColumn column ls) {g : Group} (hg : g.EndsAt column) :
    ∃ g' out, advance s g ls = (g', g.finish ++ out) ∧ g'.EndsAt column
      ∧ (out ++ g'.finish).Yields [t] := by
  have hd : IsTidy t.description := h.header.description
  obtain ⟨sn, hsn, hw⟩ := h.exists_snippet hk
  obtain ⟨l, ls, rfl, hl, hls⟩ := List.map_eq_cons_iff.mp hls
  rw [hsn] at hls
  have hstep := step_headLine (s := s) h hl (hcol l List.mem_cons_self) hg
  have hrest : t.sigilRest = t.description := by
    unfold Tag.sigilRest
    rw [hk]
  rw [hk, opened_usage, hrest, extend_ofKind hd] at hstep
  obtain ⟨tag, htag⟩ : ∃ tag, tag = { Tag.ofKind .usage l.line column with
    description := t.description } := ⟨_, rfl⟩
  rw [← htag] at hstep
  have hadv := advance_snippet (s := s) hw tag hls
  obtain ⟨root, hroot⟩ : ∃ root, root = { tag with
    snippet? := some ⟨sn.language, join ['\n'] (lines sn.body)⟩ } := ⟨_, rfl⟩
  rw [← hroot] at hadv
  have hcolumn : root.column = column := by rw [hroot, htag]; rfl
  have hreread : t.reread? = some { t with
      snippet? := some ⟨sn.language, join ['\n'] (lines sn.body)⟩ } := by
    unfold Tag.reread?
    rw [hk, hsn]
    rfl
  refine ⟨.entry ⟨root, []⟩ false, {}, ?_, ?_, ?_⟩
  · rw [advance_cons, hstep, hadv, Output.append_empty]
  · change column ≤ root.column
    rw [hcolumn]
  · have hlevel := h.level
    have hplaces := h.header.places
    rw [hk] at hplaces
    obtain ⟨hname, htype, hoptional⟩ := hplaces
    simp only [Tag.header] at hname htype hoptional
    have hchildren : t.children = [] := h.childless (by rw [hk]; rfl)
    refine .of_tag Output.isQuiet_empty hreread ?_
    rw [Branch.toTag_nil, Tag.unplaced_eq, Tag.unplaced_eq, hroot, htag]
    simp only [Tag.ofKind, hk, hlevel, hname, htype, hoptional, hchildren]

/-- The lines of a tag are read as the tag, whatever group they end. -/
theorem advance_tag {t : Tag} (h : t.IsExpressible c) {ls : List InteriorLine}
    (hls : ls.map InteriorLine.text = t.tagLines c) (hcol : AtColumn column ls) {g : Group}
    (hg : g.EndsAt column) :
    ∃ g' out, advance s g ls = (g', g.finish ++ out) ∧ g'.EndsAt column
      ∧ (out ++ g'.finish).Yields [t] := by
  unfold Tag.tagLines at hls
  split at hls
  · next hk => exact absurd hk h.sigil
  · next hk => exact advance_usage h hk hls hcol hg
  · next hk =>
    refine advance_entry h (by rw [hk]; decide) ?_ hcol hg
    rw [hls, h.childless (by rw [hk]; rfl)]
    rfl
  all_goals next hk => exact advance_entry h (by rw [hk]; decide) hls hcol hg

/-- The lines of some tags are read as the tags, one after another. -/
theorem run_tags {ts : List Tag} (h : ∀ t ∈ ts, t.IsExpressible c) {ls : List InteriorLine}
    (hls : ls.map InteriorLine.text = ts.flatMap (Tag.tagLines c)) (hcol : AtColumn column ls)
    {g : Group} (hg : g.EndsAt column) :
    ∃ out, run s g ls = g.finish ++ out ∧ out.Yields ts := by
  induction ts generalizing ls g with
  | nil =>
    obtain rfl : ls = [] := List.map_eq_nil_iff.mp hls
    exact ⟨{}, (Output.append_empty _).symm, Output.yields_nil⟩
  | cons t ts ih =>
    obtain ⟨ht, hts⟩ := List.forall_mem_cons.mp h
    rw [List.flatMap_cons] at hls
    obtain ⟨ls₁, ls₂, rfl, h₁, h₂⟩ := List.map_eq_append_iff.mp hls
    obtain ⟨g', out₁, hadv, hg', hy₁⟩ := advance_tag (s := s) ht h₁ hcol.append_left hg
    obtain ⟨out₂, hrun, hy₂⟩ := ih hts h₂ hcol.append_right hg'
    refine ⟨out₁ ++ g'.finish ++ out₂, ?_, hy₁.append hy₂⟩
    rw [run_append, hadv, hrun]
    simp only [Output.append_assoc]

end Group

end DocContract
