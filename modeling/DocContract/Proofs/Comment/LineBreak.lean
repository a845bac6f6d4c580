import DocContract.Proofs.Comment.CutLine
import DocContract.Proofs.Comment.Indented

/-!
# Lines that are broken at a space

A line can be broken at a space inside the description that is read from it. The first piece is read
as the line is, up to the space, and the second piece, on a line of its own, goes on with the
description of the entry that came last. So the two pieces are read as the whole line, as long as
the second one opens neither a group, nor a field, nor a fence.
-/

namespace DocContract

open Text

namespace Text

private theorem trim_suffix_trim {t u : Text} (h : u <:+ t) : trim u <:+ trim t := by
  by_cases hu : isBlankText u = true
  · rw [trim_eq_nil.mpr hu]
    exact List.nil_suffix
  have hstart : isBlankText (trimStart u) ≠ true := fun hb => by
    rw [← trimStart_eq_nil, trimStart_solid (startsSolid_trimStart u), trimStart_eq_nil] at hb
    exact hu hb
  obtain ⟨a, rfl⟩ := h
  by_cases ha : isBlankText a = true
  · rw [trim, trim, trimStart_blanks_append (List.all_eq_true.mp ha)]
  · have hend : trimEnd u = leadingBlanks u ++ trim u := by
      conv_lhs => rw [← leadingBlanks_append_trimStart u, trimEnd_append_of_solid _ hstart]
      rfl
    rw [trim.eq_1 (a ++ u), trimStart_append_of_solid ha, trimEnd_append_of_solid _ hu, hend]
    exact (List.suffix_append _ _).trans (List.suffix_append _ _)

end Text

/-! ### Descriptions in two pieces -/

namespace Tag

private theorem extend_of_ne_nil (t : Tag) {text : Text} (h : trim text ≠ []) : t.extend text
    = { t with description :=
          if t.description.isEmpty then trim text else t.description ++ ' ' :: trim text } := by
  unfold extend
  split
  · next hn => exact absurd hn h
  · next c r hr =>
    rw [hr]
    split <;> rfl

/-- A text that is added in two pieces is added whole. -/
theorem extend_extend (t : Tag) {text first next : Text} (hfirst : trim first ≠ [])
    (hnext : trim next ≠ []) (h : trim text = trim first ++ ' ' :: trim next) :
    (t.extend first).extend next = t.extend text := by
  have hne : trim text ≠ [] := by simp [h]
  rw [extend_of_ne_nil _ hnext, extend_of_ne_nil _ hfirst, extend_of_ne_nil _ hne, h]
  by_cases hd : t.description.isEmpty = true
  · simp [hd, hfirst]
  · simp [hd]

private theorem withHeader_extend (t : Tag) {h : Header} {d next : Text} (hd : d ≠ [])
    (hnext : trim next ≠ []) (hdesc : h.description = d ++ ' ' :: trim next) :
    (t.withHeader { h with description := d }).extend next = t.withHeader h := by
  rw [extend_of_ne_nil _ hnext]
  simp [withHeader, hd, hdesc]

private theorem extend_atDepth (t : Tag) (depth : Nat) (text : Text) :
    Tag.extend { t with depth } text = { t.extend text with depth } := by
  unfold extend
  split
  · rfl
  · dsimp only
    split <;> rfl

end Tag

/-- What is added to the entry that came last is added to a field that came last. -/
theorem Branch.extend_push (b : Branch) (n : Nat) (field : Tag) (text : Text) :
    (b.push n field).extend text = b.push n (field.extend text) := by
  rw [push_eq, push_eq, extend]
  simp only [Tag.extend_atDepth]

/-! ### Descriptions on a line -/

/-- The text is the description that is read from the line when the group is open: that of the tag
whose sigil stands on it, or that of the nested field on it. -/
inductive Group.Describes : Group → InteriorLine → Text → Prop
  | usage {g : Group} {l : InteriorLine} {sigil : SigilLine} (opens : g.opening? l = some sigil)
      (known : TagKind.ofSigil? sigil.tag = some .usage) : Describes g l (trim sigil.rest)
  | tag {g : Group} {l : InteriorLine} {sigil : SigilLine} {kind : TagKind} {header : Header}
      (opens : g.opening? l = some sigil) (known : TagKind.ofSigil? sigil.tag = some kind)
      (read : kind.header? sigil.rest = some header) : Describes g l header.description
  | field {branch : Branch} {swallow : Bool} {l : InteriorLine} {field : FieldLine}
      {header : Header} (stays : (Group.entry branch swallow).opening? l = none)
      (adds : Group.fieldOf? branch l = some field) (read : field.header? = some header) :
      Describes (.entry branch swallow) l header.description

/-- The characters that sigils, nested fields and fences begin with. -/
def opensLine (c : Char) : Bool := c == '@' || c == '-' || c == '+' || c == '`'

/-- A line with a break at a space. The first piece of the text around the space ends the line, and
the second piece has the next line to itself. -/
structure LineBreak where
  line : Nat
  column : Nat
  /-- What stands in front of the first piece. -/
  front : Text
  head : Text
  tail : Text
  /-- What stands behind the second piece. -/
  behind : Text := []
  /-- The line that the second piece gets. -/
  next : InteriorLine
  head_ne_nil : head ≠ [] := by decide
  head_trimmed : trim head = head := by decide
  tail_ne_nil : tail ≠ [] := by decide
  behind_blank : isBlankText behind = true := by decide
  next_text : trim next.text = tail := by decide
  /-- The second piece begins with no sigil, no marker and no fence. -/
  unmarked : tail.head?.any opensLine = false := by decide

namespace LineBreak

variable (w : LineBreak)

/-- The text around the space. -/
def part : Text := w.head ++ ' ' :: w.tail

/-- The line without the break. -/
def whole : InteriorLine := ⟨w.line, w.column, w.front ++ w.part ++ w.behind⟩

/-- The line up to the break. -/
def first : InteriorLine := ⟨w.line, w.column, w.front ++ w.head⟩

/-- The text of a line is its first part, the break and what stands behind it. -/
theorem text_whole : w.whole.text = w.first.text ++ ' ' :: (w.tail ++ w.behind) := by
  simp [whole, first, part]

private theorem tail_trimmed : trim w.tail = w.tail := by rw [← w.next_text, trim_trim]

private theorem startsSolid_tail : StartsSolid (w.tail ++ w.behind) :=
  startsSolid_append_of w.tail_ne_nil (trim_eq_self.mp w.tail_trimmed).1

private theorem trim_tail : trim (w.tail ++ w.behind) = w.tail := by
  rw [trim, trimStart_solid w.startsSolid_tail,
    trimEnd_append_blanks (List.all_eq_true.mp w.behind_blank)]
  exact trimEnd_solid (trim_eq_self.mp w.tail_trimmed).2

private theorem not_blank_tail : isBlankText (w.tail ++ w.behind) ≠ true := fun hb =>
  w.tail_ne_nil (w.trim_tail.symm.trans (trim_eq_nil.mpr hb))

private theorem first_ne_nil : w.first.text ≠ [] := by simp [first, w.head_ne_nil]

private theorem endsSolid_first : EndsSolid w.first.text :=
  (endsSolid_append w.head_ne_nil).mpr (trim_eq_self.mp w.head_trimmed).2

/-- The part in front of the break is not blank. -/
theorem not_blank_first : isBlankText w.first.text ≠ true :=
  not_blank_of_endsSolid w.endsSolid_first w.first_ne_nil

/-- The break stays where it is when the line is trimmed. -/
theorem trim_whole : trim w.whole.text = trim w.first.text ++ ' ' :: w.tail := by
  rw [text_whole, trim_cut w.endsSolid_first w.first_ne_nil w.startsSolid_tail w.not_blank_tail,
    trim_tail]

/-- What lies behind the space holds less than the text around it. -/
theorem not_part_suffix {t : Text} (h : t <:+ ' ' :: (w.tail ++ w.behind)) :
    ¬ w.part <:+ trim t := by
  intro hp
  have htrim : trim (' ' :: (w.tail ++ w.behind)) = w.tail := w.trim_tail
  have hshort : trim t <:+ w.tail := htrim ▸ trim_suffix_trim h
  exact not_suffix_of_suffix w.head_ne_nil (hshort.trans (List.suffix_cons _ _)) hp

/-- The part in front of the break begins at the column of the line. -/
theorem contentColumn_first : w.first.contentColumn = w.whole.contentColumn := by
  unfold InteriorLine.contentColumn
  rw [text_whole, Text.indent, Text.indent, leadingBlanks_append_of_solid w.not_blank_first]
  rfl

/-! ### The second piece -/

private theorem exists_next : ∃ c r, trimStart w.next.text = c :: r
    ∧ c ≠ '@' ∧ c ≠ '-' ∧ c ≠ '+' ∧ c ≠ '`' := by
  obtain ⟨c, r, hr⟩ := List.exists_cons_of_ne_nil w.tail_ne_nil
  obtain ⟨bs, hbs⟩ := trimEnd_isPrefixOf (trimStart w.next.text)
  have htail : trimEnd (trimStart w.next.text) = c :: r := w.next_text.trans hr
  rw [htail, List.cons_append] at hbs
  have hc := w.unmarked
  rw [hr, List.head?_cons, Option.any_some] at hc
  refine ⟨c, r ++ bs, hbs.symm, ?_⟩
  simpa [opensLine, and_assoc] using hc

/-- The part behind the break begins no group. -/
theorem sigil?_next : w.next.sigil? = none := by
  obtain ⟨c, r, hr, hc, -⟩ := w.exists_next
  rw [InteriorLine.sigil?, hr]
  cases hs : SigilLine.parse? (c :: r) with
  | none => rfl
  | some sigil =>
    obtain ⟨d, u, heq, -⟩ := SigilLine.parse?_eq_some_iff.mp hs
    exact absurd (List.cons.inj heq).1 hc

/-- The part behind the break is not blank. -/
theorem isBlank_next : w.next.isBlank = false := by
  rw [Bool.eq_false_iff, InteriorLine.isBlank, ne_eq, ← trim_eq_nil, w.next_text]
  exact w.tail_ne_nil

private theorem fieldOf?_next (branch : Branch) : Group.fieldOf? branch w.next = none := by
  obtain ⟨c, r, hr, -, hdash, hplus, -⟩ := w.exists_next
  have hfield : FieldLine.parse? w.next.text = none := by
    simp [FieldLine.parse?, hr, Marker.ofChar?, hdash, hplus]
  rw [Group.fieldOf?, hfield, ite_self]

private theorem after?_next : after? fenceMark (trimStart w.next.text) = none := by
  obtain ⟨c, r, hr, -, -, -, hfence⟩ := w.exists_next
  rw [hr]
  exact if_neg (Ne.symm hfence)

private theorem step_next_entry (s : Settings) (branch : Branch) :
    Group.step s (.entry branch false) w.next
      = (.entry (branch.extend w.next.text) false, {}) := by
  rw [Group.step_continued w.sigil?_next]
  exact (Group.Continues.text w.isBlank_next (w.fieldOf?_next branch)).eq

private theorem step_next_awaitFence (s : Settings) (tag : Tag) :
    Group.step s (.awaitFence tag) w.next = (.awaitFence (tag.extend w.next.text), {}) := by
  rw [Group.step_continued w.sigil?_next]
  exact (Group.Continues.waits w.after?_next).eq

/-! ### The first piece -/

variable {w}

/-- A sigil that the line begins with stands in front of the break, with the rest cut there. -/
theorem sigil?_first {sigil : SigilLine} (h : w.whole.sigil? = some sigil)
    (hp : w.part <:+ trim sigil.rest) : ∃ rest, w.first.sigil? = some ⟨sigil.tag, rest⟩
      ∧ trim sigil.rest = trim rest ++ ' ' :: w.tail := by
  unfold InteriorLine.sigil? at h ⊢
  rw [text_whole] at h
  have hlong : ¬ sigil.rest <:+ w.tail ++ w.behind := fun hs =>
    w.not_part_suffix (hs.trans (List.suffix_cons _ _)) hp
  obtain ⟨rest, hrest, heq⟩ := SigilLine.parse?_cut w.not_blank_first h hlong
  have hne : rest ≠ [] := by
    rintro rfl
    rw [List.nil_append] at heq
    rw [heq] at hp
    exact w.not_part_suffix (List.suffix_refl _) hp
  have hend : EndsSolid rest :=
    w.endsSolid_first.of_suffix ((SigilLine.rest_suffix hrest).trans (trimStart_suffix _))
  refine ⟨rest, hrest, ?_⟩
  rw [heq, trim_cut hend hne w.startsSolid_tail w.not_blank_tail, w.trim_tail]

private theorem opening?_first {g : Group} {sigil : SigilLine} (h : g.opening? w.whole = some sigil)
    (hp : w.part <:+ trim sigil.rest) : ∃ rest, g.opening? w.first = some ⟨sigil.tag, rest⟩
      ∧ trim sigil.rest = trim rest ++ ' ' :: w.tail := by
  obtain ⟨rest, hrest, htrim⟩ := sigil?_first (Group.opening?_eq_some h) hp
  refine ⟨rest, ?_, htrim⟩
  cases g with
  | fence tag language body => cases h
  | _ =>
    simp only [Group.opening?, contentColumn_first] at h ⊢
    split at h
    · cases h
    · next hn => rw [if_neg hn, hrest]

/-- A nested field is read from the first piece, with the same parts but the description. -/
theorem parse?_first {field : FieldLine} {header : Header}
    (hf : FieldLine.parse? w.whole.text = some field) (hh : field.header? = some header)
    (hdesc : header.description = w.part) : FieldLine.parse? w.first.text
      = some { field with header? := some { header with description := w.head } } := by
  have htail : header.description = w.head ++ ' ' :: trim (w.tail ++ w.behind) := by
    rw [hdesc, trim_tail, part]
  exact FieldLine.parse?_cut w.head_ne_nil w.endsSolid_first w.first_ne_nil w.startsSolid_tail
    w.not_blank_tail (w.text_whole ▸ hf) hh htail

/-- The first of the two lines is not blank. -/
theorem isBlank_first : w.first.isBlank = false := Bool.eq_false_iff.mpr w.not_blank_first

/-- The line itself is not blank. -/
theorem isBlank_whole : w.whole.isBlank = false := by
  rw [Bool.eq_false_iff, InteriorLine.isBlank, ne_eq, ← trim_eq_nil, trim_whole]
  simp

end LineBreak

namespace Group

/-- A line without an output of its own, behind another. -/
theorem advance_pair {s : Settings} {g g₁ g₂ : Group} {l m : InteriorLine} {out : Output}
    (hl : step s g l = (g₁, out)) (hm : step s g₁ m = (g₂, {})) :
    advance s g [l, m] = (g₂, out) := by
  rw [advance_cons, advance_cons, advance_nil, hl]
  dsimp only
  rw [hm]
  dsimp only
  rw [Output.append_empty, Output.append_empty]

/-- The description of the entry that came last. -/
def lastDescription? : Group → Option Text
  | .entry ⟨root, []⟩ _ => some root.description
  | .entry ⟨_, f :: _⟩ _ => some f.field.description
  | .awaitFence tag => some tag.description
  | _ => none

/-- The description that is read from a line is that of the entry that the line adds. -/
theorem Describes.lastDescription?_step {g : Group} {l : InteriorLine} {part : Text}
    (h : g.Describes l part) (s : Settings) : (step s g l).1.lastDescription? = some part := by
  cases h with
  | @usage _ _ sigil opens known =>
    have hextend : ((Tag.ofKind .usage l.line l.contentColumn).extend sigil.rest).description
        = trim sigil.rest := by
      by_cases hr : trim sigil.rest = []
      · rw [hr, Tag.extend]
        simp only [hr]
        rfl
      · rw [Tag.extend_of_ne_nil _ hr]
        rfl
    rw [step_opened opens, (Opens.usage known).eq]
    exact congrArg some hextend
  | tag opens known read =>
    rw [step_opened opens, (Opens.entry known read).eq]
    rfl
  | @field branch swallow _ field header stays adds read =>
    have hsolid : l.isBlank = false := by
      obtain ⟨c, r, -, hr, -⟩ := FieldLine.parse?_eq_some_iff.mp (fieldOf?_eq_some_iff.mp adds).2
      rw [Bool.eq_false_iff, InteriorLine.isBlank, ne_eq, ← trimStart_eq_nil, hr]
      exact List.cons_ne_nil _ _
    rw [step_stays stays, (Continues.field hsolid adds read rfl).eq]
    rfl

/-- A line with a break in the description that is read from it is read as its two pieces. -/
theorem advance_break {g : Group} {w : LineBreak} {part : Text} (h : g.Describes w.whole part)
    (hpart : part = w.part) (s : Settings) :
    advance s g [w.first, w.next] = step s g w.whole := by
  have hnext : trim w.next.text ≠ [] := w.next_text ▸ w.tail_ne_nil
  cases h with
  | @usage _ _ sigil opens known =>
    obtain ⟨rest, hfirst, htrim⟩ := LineBreak.opening?_first opens (hpart ▸ List.suffix_refl _)
    have hhead : trim rest = w.head := List.append_cancel_right (htrim.symm.trans hpart)
    have hrest : trim rest ≠ [] := hhead ▸ w.head_ne_nil
    have hwhole : step s g w.whole = (.awaitFence ((Tag.ofKind .usage w.line
        w.whole.contentColumn).extend sigil.rest), g.finish ++ {}) := by
      rw [step_opened opens, (Opens.usage known).eq]
      rfl
    have hstep : step s g w.first = (.awaitFence ((Tag.ofKind .usage w.line
        w.whole.contentColumn).extend rest), g.finish ++ {}) := by
      rw [step_opened hfirst, (@Opens.usage s ⟨sigil.tag, rest⟩ _ _ known).eq,
        w.contentColumn_first]
      rfl
    rw [hwhole]
    refine advance_pair hstep ?_
    rw [w.step_next_awaitFence, Tag.extend_extend _ hrest hnext (w.next_text ▸ htrim)]
  | @tag _ _ sigil kind header opens known read =>
    -- The description reaches beyond the space, so the break lies behind the name of the tag.
    have hsuffix : w.part <:+ trim sigil.rest := hpart ▸ TagKind.header?_suffix read
    obtain ⟨rest, hfirst, htrim⟩ := LineBreak.opening?_first opens hsuffix
    have hdesc : header.description = w.head ++ ' ' :: trim w.next.text := w.next_text ▸ hpart
    have hcut := TagKind.header?_cut w.head_ne_nil htrim read hpart
    have hwhole : step s g w.whole = (.entry ⟨(Tag.ofKind kind w.line
        w.whole.contentColumn).withHeader header, []⟩ false, g.finish ++ {}) := by
      rw [step_opened opens, (Opens.entry known read).eq]
      rfl
    have hstep : step s g w.first = (.entry ⟨(Tag.ofKind kind w.line
        w.whole.contentColumn).withHeader { header with description := w.head }, []⟩ false,
        g.finish ++ {}) := by
      rw [step_opened hfirst, (@Opens.entry s ⟨sigil.tag, rest⟩ _ _ _ _ known hcut).eq,
        w.contentColumn_first]
      rfl
    rw [hwhole]
    refine advance_pair hstep ?_
    rw [w.step_next_entry, Branch.extend, Tag.withHeader_extend _ w.head_ne_nil hnext hdesc]
  | @field branch swallow _ field header stays adds read =>
    have hdesc : header.description = w.head ++ ' ' :: trim w.next.text := w.next_text ▸ hpart
    obtain ⟨haccepts, hparse⟩ := fieldOf?_eq_some_iff.mp adds
    have hcut := LineBreak.parse?_first hparse read hpart
    -- A line with a marker is no sigil line, so the first piece goes on with the group as well.
    have hsigil : w.first.sigil? = none := by
      cases hs : w.first.sigil? with
      | none => rfl
      | some sigil => cases (fieldLine_of_sigil hs).symm.trans hcut
    have hfirst : step s (.entry branch swallow) w.first = _ :=
      step_field haccepts hsigil w.isBlank_first hcut rfl rfl
    rw [step_stays stays, (Continues.field w.isBlank_whole adds read rfl).eq]
    refine advance_pair hfirst ?_
    rw [w.step_next_entry, Branch.extend_push,
      Tag.withHeader_extend _ w.head_ne_nil hnext hdesc]
    rfl

end Group

end DocContract
