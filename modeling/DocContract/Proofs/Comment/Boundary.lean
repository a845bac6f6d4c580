import DocContract.Comment.Parse
import DocContract.Proofs.Comment.Accepted
import DocContract.Proofs.Comment.Advance
import DocContract.Proofs.Text.Cut

/-!
# Groups are read on their own

A sigil line that the open group does not take for its own ends that group, and nothing of it is
left over: the lines from there on are read as they are read alone. So reading the lines of a
comment up to such a line, and reading those from it on, is reading them together. A group that
gives an error in place of a tag is ended by every sigil line.
-/

namespace DocContract

open Text

/-! ### Lines that open a group -/

/-- The first line is a sigil line, and its sigil stands in the column. -/
def OpensAt (column : Nat) (ls : List InteriorLine) : Prop :=
  ∃ l rest sigil, ls = l :: rest ∧ l.sigil? = some sigil ∧ l.contentColumn = column

/-- The lines from the first sigil line on. -/
def groupLines (ls : List InteriorLine) : List InteriorLine :=
  ls.dropWhile fun l => l.sigil?.isNone

/-- The group that the lines of a comment leave open. -/
def leftOpen (s : Settings) (ls : List InteriorLine) : Group :=
  (Group.advance s .skip (groupLines ls)).1

namespace OpensAt

variable {column : Nat} {ls ms : List InteriorLine}

/-- Lines that open at a column begin with a sigil line. -/
theorem head (h : OpensAt column ms) : ∀ m ∈ ms.head?, m.sigil?.isNone = false := by
  obtain ⟨l, rest, sigil, rfl, hsigil, -⟩ := h
  rintro m ⟨⟩
  simp [hsigil]

/-- All lines belong to groups. -/
theorem groupLines_eq (h : OpensAt column ms) : groupLines ms = ms :=
  dropWhile_append_stop [] h.head

/-- Lines that open with a sigil all count behind any other lines. -/
theorem groupLines_append (h : OpensAt column ms) (ls : List InteriorLine) :
    groupLines (ls ++ ms) = groupLines ls ++ ms :=
  dropWhile_append_stop ls h.head

/-- There is no prose in front of the first group. -/
theorem prose_eq_nil (h : OpensAt column ms) : ms.takeWhile (fun l => l.sigil?.isNone) = [] :=
  takeWhile_append_stop [] h.head

end OpensAt

/-! ### The end of a group -/

namespace Group

variable {s : Settings} {g : Group} {column : Nat} {ls ms : List InteriorLine}

/-- A group that is ended hands out its tag or its error; the lines from there on are read as they
are at the start of a comment. -/
theorem run_of_endsAt (hg : g.EndsAt column) (h : OpensAt column ms) :
    run s g ms = g.finish ++ run s .skip ms := by
  obtain ⟨l, rest, sigil, rfl, hsigil, rfl⟩ := h
  have hskip : finish .skip = {} := rfl
  rw [run_cons, step_sigil hg hsigil, run_cons, step_sigil (g := .skip) trivial hsigil, hskip,
    Output.empty_append, Output.append_assoc]

/-- The group that is left open does not depend on a group that was ended before. -/
theorem advance_of_endsAt (hg : g.EndsAt column) (h : OpensAt column ms) :
    (advance s g ms).1 = (advance s .skip ms).1 := by
  obtain ⟨l, rest, sigil, rfl, hsigil, rfl⟩ := h
  rw [advance_cons, step_sigil hg hsigil, advance_cons, step_sigil (g := .skip) trivial hsigil]

/-- The output of lines is the output up to a line that ends the open group, and then that of the
lines from there on. -/
theorem run_skip_append (hg : (advance s .skip ls).1.EndsAt column) (h : OpensAt column ms) :
    run s .skip (ls ++ ms) = run s .skip ls ++ run s .skip ms := by
  rw [run_append, run_of_endsAt hg h, run_eq_advance s .skip ls, Output.append_assoc]

end Group

/-! ### Two parts of a comment -/

/-- What is read from some lines, then from lines that hold groups only. -/
def ParsedComment.append (a b : ParsedComment) : ParsedComment where
  block := { a.block with
    asyncMarker := a.block.asyncMarker || b.block.asyncMarker
    tags := a.block.tags ++ b.block.tags }
  errors := a.errors ++ b.errors
  warnings := a.warnings ++ b.warnings

section Parts

variable {s : Settings} {column : Nat} {as bs : List InteriorLine}

/-- Lines that open with a group are read as groups. -/
theorem OpensAt.parseLines_eq (h : OpensAt column bs) :
    parseLines s bs = ⟨{ asyncMarker := (Group.run s .skip bs).asyncMarker
                         tags := (Group.run s .skip bs).tags },
      (Group.run s .skip bs).errors, (Group.run s .skip bs).warnings⟩ := by
  have hmarked : bs.dropWhile (fun l => l.sigil?.isNone) = bs := h.groupLines_eq
  unfold parseLines
  rw [h.prose_eq_nil, hmarked]
  rfl

/-- A comment is read in two parts, when the second begins with a sigil line that ends the group
left open by the first. -/
theorem parseLines_parts (ha : (leftOpen s as).EndsAt column) (hb : OpensAt column bs) :
    parseLines s (as ++ bs) = (parseLines s as).append (parseLines s bs) := by
  have hrun : Group.run s .skip (groupLines as ++ bs)
      = Group.run s .skip (groupLines as) ++ Group.run s .skip bs := Group.run_skip_append ha hb
  have hprose := takeWhile_append_stop as hb.head
  have hmarked : (as ++ bs).dropWhile (fun l => l.sigil?.isNone) = groupLines as ++ bs :=
    hb.groupLines_append as
  rw [hb.parseLines_eq]
  unfold parseLines
  rw [hprose, hmarked, hrun]
  simp [ParsedComment.append, groupLines]

/-- The group that is left open at the end is that of the second part. -/
theorem leftOpen_append (ha : (leftOpen s as).EndsAt column) (hb : OpensAt column bs) :
    leftOpen s (as ++ bs) = leftOpen s bs := by
  have hlast := Group.advance_of_endsAt (s := s) ha hb
  rw [leftOpen, leftOpen, hb.groupLines_append, Group.advance_append, hb.groupLines_eq]
  exact hlast

end Parts

/-! ### Groups that give an error in place of a tag -/

/-- The lines of one group from which no tag can be read: its tag is unknown, its header does not
follow the grammar, or no fence follows its usage tag. -/
inductive IsDefectiveGroup (s : Settings) : List InteriorLine → Prop
  | unknownTag {l : InteriorLine} {ls : List InteriorLine} {sigil : SigilLine}
      (opens : l.sigil? = some sigil) (marker : sigil.tag ≠ "async")
      (unknown : TagKind.ofSigil? sigil.tag = none) (extra : s.isExtraTag sigil.tag = false)
      (rest : ∀ m ∈ ls, m.sigil? = none) : IsDefectiveGroup s (l :: ls)
  | badHeader {l : InteriorLine} {ls : List InteriorLine} {sigil : SigilLine} {kind : TagKind}
      (opens : l.sigil? = some sigil) (known : TagKind.ofSigil? sigil.tag = some kind)
      (headed : kind ≠ .usage) (unreadable : kind.header? sigil.rest = none)
      (rest : ∀ m ∈ ls, m.sigil? = none) : IsDefectiveGroup s (l :: ls)
  | missingFence {l : InteriorLine} {ls : List InteriorLine} {sigil : SigilLine}
      (opens : l.sigil? = some sigil) (usage : TagKind.ofSigil? sigil.tag = some .usage)
      (rest : ∀ m ∈ ls, m.sigil? = none ∧ after? fenceMark (trimStart m.text) = none) :
      IsDefectiveGroup s (l :: ls)

private theorem Tag.line_extend (t : Tag) (text : Text) : (t.extend text).line = t.line := by
  obtain ⟨d, hd, -⟩ := t.extend_eq text
  rw [hd]

private theorem Tag.column_extend (t : Tag) (text : Text) : (t.extend text).column = t.column := by
  obtain ⟨d, hd, -⟩ := t.extend_eq text
  rw [hd]

namespace Group

variable {s : Settings} {ls : List InteriorLine}

/-- Lines that are dropped. -/
theorem advance_skip (h : ∀ l ∈ ls, l.sigil? = none) : advance s .skip ls = (.skip, {}) := by
  induction ls with
  | nil => rfl
  | cons l ls ih =>
    obtain ⟨hl, hls⟩ := List.forall_mem_cons.mp h
    have hstep : step s .skip l = (.skip, {}) := step_continued hl
    rw [advance_cons, hstep, ih hls, Output.empty_append]

/-- A sigil line that opens no tag drops the lines up to the next one. -/
theorem advance_dropped {l : InteriorLine} {sigil : SigilLine} {e : ParseError}
    (hl : l.sigil? = some sigil) (ho : opened s sigil l.line l.contentColumn
      = (.skip, Output.ofError l.line l.contentColumn e)) (h : ∀ m ∈ ls, m.sigil? = none) :
    advance s .skip (l :: ls) = (.skip, Output.ofError l.line l.contentColumn e) := by
  rw [advance_cons, step_sigil (g := .skip) trivial hl, ho, advance_skip h, Output.append_empty]
  rfl

/-- A usage tag waits as long as it meets no fence. -/
theorem advance_awaitFence (tag : Tag)
    (h : ∀ l ∈ ls, l.sigil? = none ∧ after? fenceMark (trimStart l.text) = none) :
    ∃ d, advance s (.awaitFence tag) ls = (.awaitFence { tag with description := d }, {}) := by
  induction ls generalizing tag with
  | nil => exact ⟨tag.description, by cases tag; rfl⟩
  | cons l ls ih =>
    obtain ⟨⟨hsigil, hfence⟩, hls⟩ := List.forall_mem_cons.mp h
    have hstep : step s (.awaitFence tag) l = (.awaitFence (tag.extend l.text), {}) := by
      rw [step_continued hsigil]
      exact (Continues.waits hfence).eq
    obtain ⟨d, hadv⟩ := ih (tag.extend l.text) hls
    obtain ⟨e, hextend, -⟩ := tag.extend_eq l.text
    refine ⟨d, ?_⟩
    rw [advance_cons, hstep, hadv, hextend]
    rfl

end Group

namespace IsDefectiveGroup

variable {s : Settings} {ds : List InteriorLine}

/-- The group gives one error, which stands at its sigil, and what it leaves open is ended by every
sigil line. -/
theorem exists_advance (h : IsDefectiveGroup s ds) : ∃ line column e g out,
    OpensAt column ds ∧ Group.advance s .skip ds = (g, out)
      ∧ out ++ g.finish = Output.ofError line column e ∧ ∀ next, g.EndsAt next := by
  cases h with
  | @unknownTag l ls sigil opens marker unknown extra rest =>
    exact ⟨l.line, l.contentColumn, .unknownTag sigil.tag, .skip, _,
      ⟨l, ls, sigil, rfl, opens, rfl⟩,
      Group.advance_dropped opens (Group.Opens.unknown marker unknown extra).eq rest,
      Output.append_empty _, fun _ => trivial⟩
  | @badHeader l ls sigil kind opens known headed unreadable rest =>
    exact ⟨l.line, l.contentColumn, .badHeader kind sigil.tag sigil.rest, .skip, _,
      ⟨l, ls, sigil, rfl, opens, rfl⟩,
      Group.advance_dropped opens (Group.Opens.badHeader known headed unreadable).eq rest,
      Output.append_empty _, fun _ => trivial⟩
  | @missingFence l ls sigil opens usage rest =>
    obtain ⟨d, hadv⟩ := Group.advance_awaitFence (s := s)
      ((Tag.ofKind .usage l.line l.contentColumn).extend sigil.rest) rest
    obtain ⟨tag, htag⟩ : ∃ tag, tag = { (Tag.ofKind .usage l.line l.contentColumn).extend sigil.rest
      with description := d } := ⟨_, rfl⟩
    rw [← htag] at hadv
    refine ⟨l.line, l.contentColumn, .missingFence, .awaitFence tag, {},
      ⟨l, ls, sigil, rfl, opens, rfl⟩, ?_, ?_, fun _ => trivial⟩
    · rw [Group.advance_cons, Group.step_sigil (g := .skip) trivial opens,
        (Group.Opens.usage usage).eq, hadv]
      rfl
    · have hline : tag.line = l.line := by rw [htag]; exact Tag.line_extend _ _
      have hcolumn : tag.column = l.contentColumn := by rw [htag]; exact Tag.column_extend _ _
      rw [Output.empty_append, Group.finish, hline, hcolumn]

end IsDefectiveGroup

/-! ### The whole comment -/

/-- Lines of which the second part begins with a sigil line that ends the group left open by the
first are read part by part. When the second part is a group that cannot be read, it gives an error
and nothing else, and the groups behind it are read on their own whatever their column. -/
theorem parseLines_append (s : Settings) {as bs : List InteriorLine} {column : Nat}
    (ha : (leftOpen s as).EndsAt column) (hb : OpensAt column bs) :
    parseLines s (as ++ bs) = (parseLines s as).append (parseLines s bs)
      ∧ (IsDefectiveGroup s bs → ∃ e, parseLines s bs = ⟨{}, [e], []⟩
          ∧ ∀ next cs, OpensAt next cs → parseLines s (as ++ bs ++ cs)
            = ((parseLines s as).append ⟨{}, [e], []⟩).append (parseLines s cs)) := by
  refine ⟨parseLines_parts ha hb, fun hd => ?_⟩
  obtain ⟨line, place, e, g, out, -, hadv, herror, hends⟩ := hd.exists_advance
  have hread : parseLines s bs = ⟨{}, [⟨line, place, e⟩], []⟩ := by
    rw [hb.parseLines_eq, Group.run_eq_advance, hadv, herror]
    rfl
  refine ⟨⟨line, place, e⟩, hread, fun next cs hc => ?_⟩
  have hopen : (leftOpen s (as ++ bs)).EndsAt next := by
    rw [leftOpen_append ha hb, leftOpen, hb.groupLines_eq, hadv]
    exact hends next
  rw [parseLines_parts hopen hc, parseLines_parts ha hb, hread]

/-- A comment with a nested field, whose last tag is still open. -/
def openExample : Text := "Adds.\n\n@param a - one\n  - x - two"

/-- A group with an unknown tag and a line that belongs to it. -/
def unknownExample : Text := "@foo bar\nand more"

/-- Behind an unknown tag an indented group is read on its own. -/
theorem parseLines_append_unknownExample :
    (leftOpen {} (textLines openExample)).EndsAt 1 ∧ OpensAt 1 (textLines unknownExample)
      ∧ IsDefectiveGroup {} (textLines unknownExample)
      ∧ parseLines {} (textLines openExample ++ textLines unknownExample)
        = (parseLines {} (textLines openExample)).append (parseLines {} (textLines unknownExample))
      ∧ ∃ e, parseLines {} (textLines unknownExample) = ⟨{}, [e], []⟩
        ∧ parseLines {} (textLines openExample ++ textLines unknownExample
            ++ textLines "  @return - sum")
          = ((parseLines {} (textLines openExample)).append ⟨{}, [e], []⟩).append
            (parseLines {} (textLines "  @return - sum")) := by
  have hends : (leftOpen {} (textLines openExample)).EndsAt 1 := by decide +kernel
  have hopens : OpensAt 1 (textLines unknownExample) := ⟨_, _, ⟨"foo", "bar"⟩, rfl, by decide, rfl⟩
  have hsigil : InteriorLine.sigil? ⟨1, 1, "@foo bar"⟩ = some ⟨"foo", "bar"⟩ := by decide
  have hdefective : IsDefectiveGroup {} (textLines unknownExample) :=
    .unknownTag hsigil (by decide) (by decide) (by decide) (by decide)
  obtain ⟨happend, hbehind⟩ := parseLines_append {} hends hopens
  obtain ⟨e, hread, hnext⟩ := hbehind hdefective
  exact ⟨hends, hopens, hdefective, happend, e, hread,
    hnext 3 _ ⟨_, _, ⟨"return", "- sum"⟩, rfl, by decide, rfl⟩⟩

end DocContract
