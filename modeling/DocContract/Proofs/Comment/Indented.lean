import DocContract.Proofs.Comment.OneTree

/-!
# Sigil lines inside a group

A sigil line that is indented further than the sigil of its group goes on with the group when the
group has a tag: it opens nothing and is read as text. A group without a tag, because its sigil is
the asynchronous marker, an extra tag or a defect, goes on up to the next sigil line wherever that
stands. So of its indented sigil lines each one counts, except for those of extra tags.
-/

namespace DocContract

open Text

/-- Is the tag passed over: an extra tag of the settings, and not one that is known? -/
def Settings.ignores (s : Settings) (tag : Text) : Bool :=
  tag != "async" && (TagKind.ofSigil? tag).isNone && s.isExtraTag tag

/-- A tag can be read from the sigil line alone. -/
def SigilLine.IsKept (sigil : SigilLine) : Prop :=
  ∃ kind header, TagKind.ofSigil? sigil.tag = some kind ∧ kind.header? sigil.rest = some header

/-- The line adds a tag, an error or the asynchronous marker to what is read from the lines in front
of it. -/
def Adds (s : Settings) (ls : List InteriorLine) (l : InteriorLine) : Prop :=
  (parseLines s ls).block.tags.length < (parseLines s (ls ++ [l])).block.tags.length
    ∨ (parseLines s ls).errors.length < (parseLines s (ls ++ [l])).errors.length
    ∨ (Group.step s (leftOpen s ls) l).2.asyncMarker = true

/-! ### Lines behind a sigil line -/

section Behind

variable {ls : List InteriorLine} {column : Nat} (s : Settings) (as : List InteriorLine)

/-- The paragraphs end at the first sigil line, so the lines behind it bear on the groups only. -/
theorem OpensAt.parseLines_behind (h : OpensAt column ls) :
    ∃ brief, (parseLines s (as ++ ls)).block.tags
        = brief ++ (Group.run s .skip (groupLines as ++ ls)).tags
      ∧ (parseLines s (as ++ ls)).errors = (Group.run s .skip (groupLines as ++ ls)).errors
      ∧ brief = (paragraphs (as.takeWhile fun l => l.sigil?.isNone)).head?.toList.map
        Paragraph.toBrief := by
  have hprose := takeWhile_append_stop as h.head
  have hmarked : (as ++ ls).dropWhile (fun l => l.sigil?.isNone) = groupLines as ++ ls :=
    h.groupLines_append as
  refine ⟨_, ?_, ?_, rfl⟩
  · unfold parseLines
    rw [hprose, hmarked]
  · unfold parseLines
    rw [hmarked]

/-- The group that is open behind more lines. -/
theorem OpensAt.leftOpen_behind (h : OpensAt column ls) :
    leftOpen s (as ++ ls) = (Group.advance s (leftOpen s as) ls).1 := by
  rw [leftOpen, h.groupLines_append, Group.advance_append, leftOpen]

/-- What one more line adds is seen from the group that it meets. -/
theorem OpensAt.adds_iff (h : OpensAt column ls) (m : InteriorLine) :
    Adds s (as ++ ls) m ↔
      let g := leftOpen s (as ++ ls)
      g.finish.tags.length < (Group.run s g [m]).tags.length
        ∨ g.finish.errors.length < (Group.run s g [m]).errors.length
        ∨ (Group.step s g m).2.asyncMarker = true := by
  have hmore : OpensAt column (ls ++ [m]) := by
    obtain ⟨l, rest, sigil, rfl, hsigil, hcolumn⟩ := h
    exact ⟨l, rest ++ [m], sigil, rfl, hsigil, hcolumn⟩
  obtain ⟨brief, htags, herrors, hbrief⟩ := h.parseLines_behind s as
  obtain ⟨brief', htags', herrors', hbrief'⟩ := hmore.parseLines_behind s as
  rw [← hbrief] at hbrief'
  subst hbrief'
  have hopen : leftOpen s (as ++ ls) = (Group.advance s .skip (groupLines as ++ ls)).1 := by
    rw [leftOpen, h.groupLines_append]
  rw [← List.append_assoc, ← List.append_assoc, Group.run_append, ← hopen] at htags' herrors'
  rw [Group.run_eq_advance, ← hopen] at htags herrors
  dsimp only
  rw [Adds, htags, htags', herrors, herrors']
  simp only [Output.tags_append, Output.errors_append, List.length_append]
  refine or_congr ?_ (or_congr ?_ Iff.rfl) <;> omega

end Behind

/-! ### What a sigil line adds -/

namespace Group

variable {s : Settings} {column : Nat}

/-- A tag that can be read from its sigil line is open from there on. -/
theorem opened_of_isKept {sigil : SigilLine} (h : sigil.IsKept) (line column : Nat) :
    ∃ branch, (opened s sigil line column).1 = .entry branch false
      ∧ branch.root.column = column := by
  obtain ⟨kind, header, known, read⟩ := h
  rw [(Opens.entry known read).eq]
  exact ⟨_, rfl, rfl⟩

/-- Behind all other sigils lines belong to nothing, but for those of usage tags. -/
theorem opened_of_not_isKept {sigil : SigilLine} (h : ¬ sigil.IsKept)
    (husage : TagKind.ofSigil? sigil.tag ≠ some .usage) (line column : Nat) :
    (opened s sigil line column).1 = .skip := by
  generalize hnext : opened s sigil line column = next
  cases Opens.of_eq hnext with
  | usage known => exact absurd known husage
  | entry known read => exact absurd ⟨_, _, known, read⟩ h
  | _ => rfl

/-- Nothing comes of a sigil whose tag is passed over, and something of each other one. -/
theorem opened_adds_iff (sigil : SigilLine) (line column : Nat) :
    (0 < ((opened s sigil line column).2 ++ (opened s sigil line column).1.finish).tags.length
      ∨ 0 < ((opened s sigil line column).2
          ++ (opened s sigil line column).1.finish).errors.length
      ∨ (opened s sigil line column).2.asyncMarker = true) ↔ s.ignores sigil.tag = false := by
  generalize hnext : opened s sigil line column = next
  unfold Settings.ignores
  cases Opens.of_eq hnext with
  | marker marker => simp [marker]
  | extra plain unknown extra => simp_all [finish]
  | unknown plain unknown strange => simp [strange, finish, Output.ofError]
  | usage known => simp [known, finish, Output.ofError]
  | entry known read => simp [known, finish]
  | badHeader known other unread => simp [known, finish, Output.ofError]

/-- An ignored sigil opens a group that is skipped. -/
theorem opened_of_ignores {sigil : SigilLine} (h : s.ignores sigil.tag = true)
    (line column : Nat) : opened s sigil line column = (.skip, {}) := by
  simp only [Settings.ignores, Bool.and_eq_true, bne_iff_ne, ne_eq, Option.isNone_iff_eq_none]
    at h
  exact (Opens.extra h.1.1 h.1.2 h.2).eq

/-! ### Lines behind the opening of a group -/

/-- A tag is open whose sigil stands in the column. -/
def HoldsAt (column : Nat) : Group → Prop
  | .entry branch _ => branch.root.column = column
  | _ => False

/-- A sigil line is never read as a field. -/
theorem fieldLine_of_sigil {l : InteriorLine} {sigil : SigilLine} (h : l.sigil? = some sigil) :
    FieldLine.parse? l.text = none := by
  obtain ⟨c, r, ht, -⟩ := SigilLine.parse?_eq_some_iff.mp h
  unfold FieldLine.parse?
  rw [ht]
  rfl

namespace HoldsAt

variable {g : Group} (hg : g.HoldsAt column) {m : InteriorLine}
include hg

/-- Sigil lines further to the right open no group. -/
theorem opening? (hm : m.sigil?.isSome → column < m.contentColumn) : g.opening? m = none := by
  cases g with
  | entry branch swallow =>
    have hcolumn : branch.root.column = column := hg
    cases hs : m.sigil? with
    | none => simp [Group.opening?, hs]
    | some sigil =>
      have hright : m.contentColumn > branch.root.column := hcolumn ▸ hm (hs ▸ rfl)
      simp [Group.opening?, nests, hright]
  | _ => exact hg.elim

/-- Lines that open no group leave the tag open. -/
theorem continued (m : InteriorLine) : (continued s m g).1.HoldsAt column := by
  generalize h : Group.continued s m g = next
  cases Continues.of_eq h with
  | @field branch _ _ field _ _ _ _ grows =>
    subst grows
    exact (branch.sameRoot_upTo field.indent).column.trans hg
  | @text branch => exact (congrArg Tag.column (branch.bare_root_extend m.text)).trans hg
  | blank => exact hg
  | badField => exact hg
  | dropped => exact hg
  | _ => exact hg.elim

private theorem advance {ls : List InteriorLine}
    (hls : ∀ m ∈ ls, m.sigil?.isSome → column < m.contentColumn) :
    (advance s g ls).1.HoldsAt column := by
  induction ls generalizing g with
  | nil => exact hg
  | cons l ls ih =>
    obtain ⟨hl, hrest⟩ := List.forall_mem_cons.mp hls
    have hstep : (step s g l).1.HoldsAt column := by
      rw [step_stays (hg.opening? hl)]
      exact hg.continued l
    exact ih hstep hrest

/-- A sigil line that opens no group is text, so the tag remains the only one and nothing is
wrong. -/
theorem silent {sigil : SigilLine} (hs : m.sigil? = some sigil)
    (hm : column < m.contentColumn) :
    (run s g [m]).tags.length = g.finish.tags.length
      ∧ (run s g [m]).errors.length = g.finish.errors.length
      ∧ (step s g m).2.asyncMarker = false := by
  have hstep : step s g m = Group.continued s m g := step_stays (hg.opening? fun _ => hm)
  cases g with
  | entry branch swallow =>
    have hfield : fieldOf? branch m = none := by
      rw [fieldOf?, fieldLine_of_sigil hs, ite_self]
    simp only [run_cons, hstep, Group.continued, hfield]
    split <;> exact ⟨rfl, rfl, rfl⟩
  | _ => exact hg.elim

end HoldsAt

/-- Behind a group without a tag nothing comes of lines whose tags are passed over. -/
theorem advance_ignored {ls : List InteriorLine}
    (h : ∀ m ∈ ls, ∀ t, m.sigil? = some t → s.ignores t.tag = true) :
    advance s .skip ls = (.skip, {}) := by
  induction ls with
  | nil => rfl
  | cons l ls ih =>
    obtain ⟨hl, hls⟩ := List.forall_mem_cons.mp h
    have hstep : step s .skip l = (.skip, {}) := by
      cases hs : l.sigil? with
      | none => exact step_continued hs
      | some t =>
        rw [step_sigil (g := .skip) trivial hs, opened_of_ignores (hl t hs)]
        exact Prod.ext rfl (Output.empty_append {})
    rw [advance_cons, hstep, ih hls, Output.empty_append]

end Group

/-! ### Sigil lines further to the right -/

section Indented

variable {s : Settings} {as bs : List InteriorLine} {l : InteriorLine} {sigil : SigilLine}
  (hopen : (leftOpen s as).opening? l = some sigil)
include hopen

/-- The group behind a sigil line is the one that it opens, led on by the lines behind it. -/
theorem leftOpen_opened (front : List InteriorLine) : leftOpen s (as ++ l :: front)
    = (Group.advance s (Group.opened s sigil l.line l.contentColumn).1 front).1 := by
  have hopens : OpensAt l.contentColumn (l :: front) :=
    ⟨l, front, sigil, rfl, Group.opening?_eq_some hopen, rfl⟩
  rw [hopens.leftOpen_behind, Group.advance_cons, Group.step, hopen]

/-- What is read up to a sigil line that opens a group is given out there, and then what the group
gives that it opens. -/
theorem run_of_opening (rest : List InteriorLine) : Group.run s .skip (groupLines (as ++ l :: rest))
    = Group.run s .skip (groupLines as)
      ++ ((Group.opened s sigil l.line l.contentColumn).2
        ++ Group.run s (Group.opened s sigil l.line l.contentColumn).1 rest) := by
  have hopens : OpensAt l.contentColumn (l :: rest) :=
    ⟨l, rest, sigil, rfl, Group.opening?_eq_some hopen, rfl⟩
  rw [hopens.groupLines_append, Group.run_append, Group.run_eq_advance s .skip (groupLines as),
    ← leftOpen, Group.run_cons, Group.step_opened hopen, Output.append_assoc, Output.append_assoc]

private theorem adds_opened_iff (front : List InteriorLine) (m : InteriorLine) :
    Adds s (as ++ l :: front) m ↔
      let g := (Group.advance s (Group.opened s sigil l.line l.contentColumn).1 front).1
      g.finish.tags.length < (Group.run s g [m]).tags.length
        ∨ g.finish.errors.length < (Group.run s g [m]).errors.length
        ∨ (Group.step s g m).2.asyncMarker = true := by
  have hopens : OpensAt l.contentColumn (l :: front) :=
    ⟨l, front, sigil, rfl, Group.opening?_eq_some hopen, rfl⟩
  rw [hopens.adds_iff, leftOpen_opened hopen]

/-- Below a tag no sigil line further to the right opens a group or adds anything. -/
theorem silent_of_isKept (hkept : sigil.IsKept)
    (hbs : ∀ m ∈ bs, m.sigil?.isSome → l.contentColumn < m.contentColumn)
    {front back : List InteriorLine} {m : InteriorLine} (hm : bs = front ++ m :: back)
    (hs : m.sigil?.isSome) :
    (leftOpen s (as ++ l :: front)).opening? m = none ∧ ¬ Adds s (as ++ l :: front) m := by
  obtain ⟨branch, hopened, hcolumn⟩ := Group.opened_of_isKept (s := s) hkept l.line l.contentColumn
  have hholds : (Group.advance s (Group.opened s sigil l.line l.contentColumn).1 front).1.HoldsAt
      l.contentColumn := by
    have hentry : (Group.entry branch false).HoldsAt l.contentColumn := hcolumn
    rw [hopened]
    exact hentry.advance fun x hx => hbs x (by simp [hm, hx])
  have hright : l.contentColumn < m.contentColumn := hbs m (by simp [hm]) hs
  obtain ⟨t, ht⟩ := Option.isSome_iff_exists.mp hs
  obtain ⟨htags, herrors, hasync⟩ := hholds.silent (s := s) ht hright
  refine ⟨?_, ?_⟩
  · rw [leftOpen_opened hopen]
    exact hholds.opening? fun _ => hright
  · rw [adds_opened_iff hopen]
    dsimp only
    rw [htags, herrors, hasync]
    simp

/-- Behind a sigil line without a tag, and lines that are passed over, a sigil line adds something
when it is not passed over itself. -/
theorem adds_skipped_iff (hskip : (Group.opened s sigil l.line l.contentColumn).1 = .skip)
    {front : List InteriorLine}
    (hfront : ∀ m ∈ front, ∀ t, m.sigil? = some t → s.ignores t.tag = true)
    {m : InteriorLine} {t : SigilLine} (ht : m.sigil? = some t) :
    Adds s (as ++ l :: front) m ↔ s.ignores t.tag = false := by
  rw [adds_opened_iff hopen, hskip, Group.advance_ignored hfront]
  have hempty : Group.finish .skip = {} := rfl
  simp only [Group.step_sigil (g := .skip) trivial ht, hempty,
    Output.empty_append, Group.run]
  exact Group.opened_adds_iff t m.line m.contentColumn

end Indented

/-- Let a sigil line open a group other than that of a usage tag, and let all sigil lines in some
lines behind it stand further to the right. None of these adds anything exactly when a tag can be
read from the first line, or when the tag of each of them is passed over. -/
theorem indented_silent_iff (s : Settings) {as bs : List InteriorLine} {l : InteriorLine}
    {sigil : SigilLine} (hopen : (leftOpen s as).opening? l = some sigil)
    (husage : TagKind.ofSigil? sigil.tag ≠ some .usage)
    (hbs : ∀ m ∈ bs, m.sigil?.isSome → l.contentColumn < m.contentColumn) :
    (∀ front m back, bs = front ++ m :: back → m.sigil?.isSome → ¬ Adds s (as ++ l :: front) m)
      ↔ sigil.IsKept ∨ ∀ m ∈ bs, ∀ t, m.sigil? = some t → s.ignores t.tag = true := by
  constructor
  · intro h
    refine or_iff_not_imp_left.mpr fun hkept => ?_
    have hskip := Group.opened_of_not_isKept (s := s) hkept husage l.line l.contentColumn
    clear hbs
    -- From the first line on: the lines in front of each one are passed over already.
    induction bs using List.reverseRecOn with
    | nil => exact fun m hm => absurd hm List.not_mem_nil
    | append_singleton bs m ih =>
      have hfront := ih fun front x back hx => h front x (back ++ [m]) (by simp [hx])
      intro x hx t ht
      rcases List.mem_append.mp hx with hx | hx
      · exact hfront x hx t ht
      · obtain rfl := List.mem_singleton.mp hx
        have hsilent := h bs x [] rfl (ht ▸ rfl)
        rw [adds_skipped_iff hopen hskip hfront ht, Bool.not_eq_false] at hsilent
        exact hsilent
  · rintro (hkept | hignored) front m back hm hs
    · exact (silent_of_isKept hopen hkept hbs hm hs).2
    · by_cases hkept : sigil.IsKept
      · exact (silent_of_isKept hopen hkept hbs hm hs).2
      · have hskip := Group.opened_of_not_isKept (s := s) hkept husage l.line l.contentColumn
        obtain ⟨t, ht⟩ := Option.isSome_iff_exists.mp hs
        have hfront : ∀ x ∈ front, ∀ t, x.sigil? = some t → s.ignores t.tag = true :=
          fun x hx => hignored x (by simp [hm, hx])
        rw [adds_skipped_iff hopen hskip hfront ht, hignored m (by simp [hm]) t ht]
        decide

/-- A parameter with a sigil line below it. -/
def parameterLine : InteriorLine := ⟨2, 1, "@param a - one"⟩

/-- The sigil line below the parameter is read as text. -/
theorem indented_silent_parameter :
    (leftOpen {} [⟨1, 1, "Adds."⟩]).opening? parameterLine = some ⟨"param", "a - one"⟩
      ∧ TagKind.ofSigil? "param" ≠ some .usage
      ∧ (∀ m ∈ [(⟨3, 1, "  @override"⟩ : InteriorLine)], m.sigil?.isSome →
        parameterLine.contentColumn < m.contentColumn)
      ∧ ¬ Adds {} ([⟨1, 1, "Adds."⟩] ++ [parameterLine]) ⟨3, 1, "  @override"⟩ := by
  have hopen : (leftOpen {} [⟨1, 1, "Adds."⟩]).opening? parameterLine
      = some ⟨"param", "a - one"⟩ := by decide
  have husage : TagKind.ofSigil? "param" ≠ some .usage := by decide
  have hright : ∀ m ∈ [(⟨3, 1, "  @override"⟩ : InteriorLine)], m.sigil?.isSome →
      parameterLine.contentColumn < m.contentColumn := by decide
  have hkept : SigilLine.IsKept ⟨"param", "a - one"⟩ :=
    ⟨.param, ⟨some "a", none, false, "one"⟩, rfl, by decide⟩
  exact ⟨hopen, husage, hright,
    (indented_silent_iff {} hopen husage hright).mpr (.inl hkept) [] _ [] rfl (by decide)⟩

/-- Below an extra tag the sigil line of an annotation is an error. -/
theorem indented_adds_annotation :
    ({} : Settings).ignores "example" = true
      ∧ (leftOpen {} [⟨1, 1, "Adds."⟩]).opening? ⟨2, 1, "@example"⟩ = some ⟨"example", ""⟩
      ∧ InteriorLine.sigil? ⟨3, 1, "  @override f()"⟩ = some ⟨"override", "f()"⟩
      ∧ InteriorLine.contentColumn ⟨2, 1, "@example"⟩
        < InteriorLine.contentColumn ⟨3, 1, "  @override f()"⟩
      ∧ Adds {} [⟨1, 1, "Adds."⟩, ⟨2, 1, "@example"⟩] ⟨3, 1, "  @override f()"⟩ :=
  ⟨by decide, by decide, by decide, by decide, .inr (.inl (by decide))⟩

end DocContract
