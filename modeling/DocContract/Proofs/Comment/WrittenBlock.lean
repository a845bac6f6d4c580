import DocContract.Comment.Parse
import DocContract.Proofs.Comment.ReadTags

/-!
# Comments read from their written form

The interior of an expressible block is split into its lines again, the lines in front of the first
sigil are its paragraphs, and the others are its marker and its tags.
-/

namespace DocContract

open Text

/-! ### Lines that survive being joined -/

/-- Lines that are read back from the text they are joined to. -/
structure AreLines (ls : List Text) : Prop where
  line : ∀ l ∈ ls, '\n' ∉ l ∧ EndsSolid l
  last : ls.getLast? ≠ some []

namespace AreLines

private theorem nil : AreLines [] := ⟨by simp, by simp⟩

/-- One solid line without newline is read back from itself. -/
theorem singleton {l : Text} (hne : l ≠ []) (hn : '\n' ∉ l) (he : EndsSolid l) : AreLines [l] :=
  ⟨by simp [hn, he], by simpa using hne⟩

private theorem of_tidy {l : Text} (hne : l ≠ []) (h : IsTidy l) : AreLines [l] :=
  singleton hne h.oneLine h.endsSolid

private theorem append {ls ms : List Text} (hl : AreLines ls) (hm : AreLines ms) :
    AreLines (ls ++ ms) where
  line := List.forall_mem_append.mpr ⟨hl.line, hm.line⟩
  last := by
    rw [List.getLast?_append]
    cases h : ms.getLast? with
    | none => simpa using hl.last
    | some l => simpa [h] using hm.last

/-- A line that is not the last may be empty. -/
theorem cons_nil {ls : List Text} (hne : ls ≠ []) (h : AreLines ls) : AreLines ([] :: ls) where
  line := List.forall_mem_cons.mpr ⟨⟨by simp, endsSolid_nil⟩, h.line⟩
  last := by
    rw [List.getLast?_cons]
    cases hl : ls.getLast? with
    | none => exact absurd (List.getLast?_eq_none_iff.mp hl) hne
    | some l => simpa [hl] using h.last

private theorem flatMap {α : Type} {f : α → List Text} {xs : List α}
    (h : ∀ x ∈ xs, AreLines (f x)) : AreLines (xs.flatMap f) := by
  induction xs with
  | nil => exact nil
  | cons x xs ih =>
    obtain ⟨hx, hxs⟩ := List.forall_mem_cons.mp h
    exact append hx (ih hxs)

/-- Inner lines may be empty when another follows. -/
theorem append_singleton {ls : List Text} {l : Text} (h : ∀ l ∈ ls, '\n' ∉ l ∧ EndsSolid l)
    (hl : AreLines [l]) : AreLines (ls ++ [l]) where
  line := List.forall_mem_append.mpr ⟨h, hl.line⟩
  last := by
    rw [List.getLast?_concat]
    exact hl.last

end AreLines

/-! ### The lines of tags -/

namespace Tag

variable {c : Convention}

private theorem areLines_fieldLine {t : Tag} (depth : Nat) (h : c.Expresses t.header) :
    AreLines [fieldLine c depth t] := by
  refine .singleton ?_ (fieldLine_oneLine depth h) (fieldLine_endsSolid depth h)
  rw [fieldLine_eq]
  simp

private theorem IsField.areLines {depth : Nat} {t : Tag} (h : t.IsField c depth) :
    AreLines (fieldLines c depth t) := by
  induction h with
  | @intro depth t _ _ hh _ _ ih =>
    have hlines : fieldLines c depth t
        = [fieldLine c depth t] ++ childLines c (depth + 1) t.children := by
      cases t
      rfl
    rw [hlines]
    apply (areLines_fieldLine depth hh).append
    generalize t.children = ts at ih
    induction ts with
    | nil => exact .nil
    | cons child ts ihts =>
      obtain ⟨hchild, hts⟩ := List.forall_mem_cons.mp ih
      exact hchild.append (ihts hts)

private theorem areLines_childLines {depth : Nat} {ts : List Tag}
    (h : ∀ t ∈ ts, t.IsField c depth) : AreLines (childLines c depth ts) := by
  induction ts with
  | nil => exact .nil
  | cons t ts ih =>
    obtain ⟨ht, hts⟩ := List.forall_mem_cons.mp h
    exact ht.areLines.append (ih hts)

private theorem headLine_cons {t : Tag} (hb : t.kind ≠ .brief) : ∃ r, t.headLine = '@' :: r := by
  rw [headLine_eq hb]
  obtain ⟨r, hr⟩ : ∃ r, t.kind.sigil = '@' :: r := by
    cases hk : t.kind with
    | brief => exact absurd hk hb
    | _ => exact ⟨_, rfl⟩
  rw [hr, withText]
  split <;> exact ⟨_, rfl⟩

private theorem areLines_headLine {t : Tag} (hb : t.kind ≠ .brief) (h : t.kind.Expresses t.header) :
    AreLines [t.headLine] := by
  have hsigil : IsTidy t.kind.sigil ∧ t.kind.sigil ≠ [] := by
    cases hk : t.kind with
    | brief => exact absurd hk hb
    | _ => exact ⟨by decide, by decide⟩
  rw [headLine_eq hb]
  refine .of_tidy ?_ (withText_tidy hsigil.2 hsigil.1 (sigilRest_tidy h))
  rw [← headLine_eq hb]
  obtain ⟨r, hr⟩ := headLine_cons hb
  simp [hr]

private theorem areLines_snippetLines {sn : Snippet} (h : sn.IsWritable) :
    AreLines (snippetLines (some sn)) := by
  have hfence : IsTidy fenceMark := by decide
  have hopen : AreLines [fenceMark ++ sn.language] :=
    .of_tidy (by simp [fenceMark]) (hfence.append h.language)
  have hclose : AreLines [fenceMark] := .of_tidy (by decide) hfence
  refine hopen.append (.append_singleton (fun l hl => ⟨not_mem_of_mem_lines hl, ?_⟩) hclose)
  exact h.endsSolid l (h.mem_rawLines hl)

private theorem IsExpressible.areLines {t : Tag} (h : t.IsExpressible c) :
    AreLines (t.tagLines c) := by
  have hhead := areLines_headLine h.sigil h.header
  have hchildren := areLines_childLines h.children
  unfold tagLines
  split
  · exact .nil
  · next hk =>
    obtain ⟨sn, hsn, hw⟩ := h.exists_snippet hk
    rw [hsn]
    exact hhead.append (areLines_snippetLines hw)
  · exact hhead
  all_goals exact hhead.append hchildren

end Tag

/-! ### Paragraphs -/

/-- A blank line is left out, and a solid one joins the paragraph of the line behind it unless that
line is blank. -/
theorem paragraphs_cons (l : InteriorLine) (ls : List InteriorLine) :
    paragraphs (l :: ls) =
      if l.isBlank then paragraphs ls
      else match ls, paragraphs ls with
        | next :: _, p :: ps =>
          if next.isBlank then ⟨l.line, l.contentColumn, trim l.text⟩ :: p :: ps
          else ⟨l.line, l.contentColumn, trim l.text ++ ' ' :: p.text⟩ :: ps
        | _, ps => ⟨l.line, l.contentColumn, trim l.text⟩ :: ps := by
  with_unfolding_all rfl

private theorem paragraphs_blank {ls : List InteriorLine} (h : ∀ l ∈ ls, l.isBlank = true) :
    paragraphs ls = [] := by
  induction ls with
  | nil => rfl
  | cons l ls ih =>
    obtain ⟨hl, hls⟩ := List.forall_mem_cons.mp h
    rw [paragraphs_cons, if_pos hl, ih hls]

/-- A line in front of a blank one, or at the end, is a paragraph. -/
theorem paragraphs_cons_blank {l : InteriorLine} {ls : List InteriorLine} (hl : l.isBlank = false)
    (hn : ∀ next ∈ ls.head?, next.isBlank = true) :
    paragraphs (l :: ls) = ⟨l.line, l.contentColumn, trim l.text⟩ :: paragraphs ls := by
  rw [paragraphs_cons, if_neg (by simp [hl])]
  split
  · next next rest p ps hp => rw [if_pos (hn next rfl), hp]
  · rfl

/-- A paragraph is not blank. -/
theorem isBlankText_paragraph {p : Text} (h : IsParagraph p) : isBlankText p = false := by
  rw [Bool.eq_false_iff, ne_eq, ← trim_eq_nil, h.tidy.trimmed]
  exact h.nonempty

/-- Paragraphs with empty lines between them are read as they are, with or without an empty line
behind them. -/
theorem paragraphs_intersperse {ps tail : List Text} (h : ∀ p ∈ ps, IsParagraph p)
    (ht : ∀ t ∈ tail, t = []) {ls : List InteriorLine}
    (hls : ls.map InteriorLine.text = ps.intersperse [] ++ tail) :
    (paragraphs ls).map Paragraph.text = ps := by
  have hblank : ∀ ms : List InteriorLine, ms.map InteriorLine.text = tail →
      ∀ l ∈ ms, l.isBlank = true := by
    intro ms hms l hl
    have hempty : l.text = [] := ht _ (hms ▸ List.mem_map_of_mem hl)
    rw [InteriorLine.isBlank, hempty]
    rfl
  induction ps generalizing ls with
  | nil => rw [paragraphs_blank (hblank ls hls), List.map_nil]
  | cons p ps ih =>
    obtain ⟨hp, hps⟩ := List.forall_mem_cons.mp h
    have hsolid : ∀ l : InteriorLine, l.text = p → l.isBlank = false := fun l hl => by
      rw [InteriorLine.isBlank, hl, isBlankText_paragraph hp]
    cases ps with
    | nil =>
      obtain ⟨l, ls, rfl, hl, hls⟩ := List.map_eq_cons_iff.mp hls
      have hrest := hblank ls hls
      rw [paragraphs_cons_blank (hsolid l hl) fun next hn => hrest next (List.mem_of_mem_head? hn),
        paragraphs_blank hrest]
      simp [hl, hp.tidy.trimmed]
    | cons q r =>
      obtain ⟨l, ls, rfl, hl, hls⟩ := List.map_eq_cons_iff.mp hls
      obtain ⟨b, ls, rfl, hb, hls⟩ := List.map_eq_cons_iff.mp hls
      have hempty : b.isBlank = true := by
        rw [InteriorLine.isBlank, hb]
        rfl
      rw [paragraphs_cons_blank (hsolid l hl) (by simpa using hempty), List.map_cons,
        paragraphs_cons, if_pos hempty, ih hps hls]
      simp [hl, hp.tidy.trimmed]

/-- Neither a paragraph nor an empty line is a sigil line. -/
theorem sigil?_prose {ps tail : List Text} (h : ∀ p ∈ ps, IsParagraph p) (ht : ∀ t ∈ tail, t = [])
    {l : InteriorLine} (hl : l.text ∈ ps.intersperse [] ++ tail) : l.sigil? = none := by
  have hcases : l.text ∈ ps ∨ l.text = [] := by
    rcases List.mem_append.mp hl with hl | hl
    · exact mem_of_mem_intersperse hl
    · exact .inr (ht _ hl)
  rw [InteriorLine.sigil?]
  rcases hcases with hm | hm
  · have hp := h _ hm
    rw [trimStart_solid hp.tidy.startsSolid]
    exact (SigilLine.parse?_eq_none_iff hp.tidy.oneLine).mpr hp.unmarked
  · rw [hm]
    rfl

/-! ### The whole block -/

namespace Tag.IsBrief

variable {t : Tag} (h : t.IsBrief)

include h

/-- A tag that can be written is read again as it is. -/
theorem reread?_eq : t.reread? = some t := by
  unfold reread?
  rw [h.kind]

/-- The brief is read from its paragraph. -/
theorem unplaced_toBrief {p : Paragraph} (hp : p.text = t.description) :
    p.toBrief.unplaced = t.unplaced := by
  have hplaces := h.header.places
  rw [h.kind] at hplaces
  obtain ⟨hname, htype, hoptional⟩ := hplaces
  simp only [Tag.header] at hname htype hoptional
  simp [Paragraph.toBrief, unplaced_eq, ofKind, hp, h.kind, h.level, h.snippet, h.childless, hname,
    htype, hoptional]

end Tag.IsBrief

namespace CommentBlock

variable {c : Convention} {b : CommentBlock}

/-- The paragraphs of a block: its brief and its details. -/
def prose (b : CommentBlock) : List Text := b.brief?.toList.map Tag.description ++ b.details

/-- The tags with a sigil. -/
def entries (b : CommentBlock) : List Tag := b.tags.drop b.brief?.toList.length

/-- The tags of a block are its brief and its entries. -/
theorem tags_eq (b : CommentBlock) : b.tags = b.brief?.toList ++ b.entries := by
  unfold entries brief?
  cases b.tags with
  | nil => rfl
  | cons t ts => by_cases hk : t.kind = .brief <;> simp [hk]

private theorem IsExpressible.prose (h : b.IsExpressible c) : ∀ p ∈ b.prose, IsParagraph p := by
  refine List.forall_mem_append.mpr ⟨fun p hp => ?_, h.details⟩
  obtain ⟨t, ht, rfl⟩ := List.mem_map.mp hp
  exact (h.brief t (by simpa using ht)).paragraph

/-- A brief adds no tag lines to those of the entries. -/
theorem IsExpressible.tagLines (h : b.IsExpressible c) :
    b.tags.flatMap (Tag.tagLines c) = b.entries.flatMap (Tag.tagLines c) := by
  have hbrief : b.brief?.toList.flatMap (Tag.tagLines c) = [] := by
    rw [List.flatMap_eq_nil_iff]
    intro t ht
    rw [Tag.tagLines, (h.brief t (by simpa using ht)).kind]
  conv => lhs; rw [tags_eq]
  rw [List.flatMap_append, hbrief, List.nil_append]

/-- The lines are the paragraphs, an empty line where one is needed, and the rest. -/
theorem interiorLines_eq (c : Convention) (b : CommentBlock) :
    ∃ tail : List Text, (∀ t ∈ tail, t = []) ∧ (b.markedLines c = [] → tail = []) ∧
      b.interiorLines c = b.prose.intersperse [] ++ tail ++ b.markedLines c := by
  unfold interiorLines
  dsimp only
  split
  · exact ⟨[], by simp, fun _ => rfl, by rw [List.append_nil]; rfl⟩
  · next hne =>
    refine ⟨[[]], by simp, fun hm => ?_, by rw [List.append_assoc]; rfl⟩
    rw [hm] at hne
    simp at hne

private theorem areLines_marked (h : b.IsExpressible c) : AreLines (b.markedLines c) := by
  rw [markedLines, h.tagLines]
  refine .append ?_ (.flatMap fun t ht => (h.entries t ht).areLines)
  split
  · exact .of_tidy (by decide) (by decide)
  · exact .nil

private theorem areLines_intersperse {ps : List Text} (h : ∀ p ∈ ps, IsParagraph p) :
    AreLines (ps.intersperse []) := by
  induction ps with
  | nil => exact .nil
  | cons p ps ih =>
    obtain ⟨hp, hps⟩ := List.forall_mem_cons.mp h
    have hline := AreLines.of_tidy hp.nonempty hp.tidy
    cases ps with
    | nil => exact hline
    | cons q r => exact hline.append (.cons_nil (by cases r <;> simp) (ih hps))

/-- The interior of a block that can be written consists of lines. -/
theorem areLines_interior (h : b.IsExpressible c) : AreLines (b.interiorLines c) := by
  obtain ⟨tail, ht, hm, hi⟩ := interiorLines_eq c b
  have hprose := areLines_intersperse h.prose
  have hmarked := areLines_marked h
  rw [hi]
  by_cases hne : b.markedLines c = []
  · rw [hm hne, hne, List.append_nil, List.append_nil]
    exact hprose
  · rw [List.append_assoc]
    apply hprose.append
    clear hi
    induction tail with
    | nil => exact hmarked
    | cons t tail ih =>
      obtain ⟨rfl, htail⟩ := List.forall_mem_cons.mp ht
      exact .cons_nil (by simp [hne]) (ih htail fun he => absurd he hne)

/-- The first line after the paragraphs is a sigil line. -/
theorem sigil?_marked (h : b.IsExpressible c) {l : InteriorLine} {ls : List InteriorLine}
    (hl : (l :: ls).map InteriorLine.text = b.markedLines c) : l.sigil?.isSome = true := by
  rw [markedLines, h.tagLines] at hl
  by_cases ha : b.asyncMarker = true
  · rw [if_pos ha] at hl
    exact (Group.step_async (s := {}) (List.cons.inj hl).1).1
  · rw [if_neg ha, List.nil_append] at hl
    cases he : b.entries with
    | nil => rw [he] at hl; cases hl
    | cons t ts =>
      have ht : t.IsExpressible c := h.entries t (by rw [← entries, he]; exact List.mem_cons_self)
      obtain ⟨rest, hrest⟩ : ∃ rest, t.tagLines c = t.headLine :: rest := by
        unfold Tag.tagLines
        split
        · next hk => exact absurd hk ht.sigil
        all_goals exact ⟨_, rfl⟩
      rw [he, List.flatMap_cons, hrest] at hl
      have htext : l.text = t.headLine := (List.cons.inj hl).1
      rw [(Tag.sigil?_headLine ht.sigil ht.header htext).1]
      rfl

/-- The marker and the tags are read from their lines. -/
theorem run_marked {s : Settings} {column : Nat} (h : b.IsExpressible c) {ls : List InteriorLine}
    (hls : ls.map InteriorLine.text = b.markedLines c) (hcol : AtColumn column ls) :
    (Group.run s .skip ls).asyncMarker = b.asyncMarker
      ∧ (Group.run s .skip ls).tags.map Tag.unplaced
        = (b.entries.filterMap Tag.reread?).map Tag.unplaced
      ∧ ((Group.run s .skip ls).errors = [] ↔ ∀ t ∈ b.entries, t.reread?.isSome = true) := by
  rw [markedLines, h.tagLines] at hls
  by_cases ha : b.asyncMarker = true
  · rw [if_pos ha] at hls
    obtain ⟨l, ls, rfl, hl, hls⟩ := List.map_eq_cons_iff.mp hls
    obtain ⟨out, hrun, hy⟩ := Group.run_tags (s := s) h.entries hls
      (fun l hl => hcol l (List.mem_cons_of_mem _ hl)) (g := .skip) trivial
    rw [Group.run_cons, (Group.step_async hl).2, hrun, ha]
    exact ⟨rfl, hy.tags, hy.errors⟩
  · rw [if_neg ha] at hls
    obtain ⟨out, hrun, hy⟩ := Group.run_tags (s := s) h.entries hls hcol (g := .skip) trivial
    rw [hrun, Bool.eq_false_iff.mpr ha]
    exact ⟨hy.asyncMarker, hy.tags, hy.errors⟩

/-- The lines in front of the first sigil line are the paragraphs, the others are the marker and the
tags. -/
theorem split_interior (h : b.IsExpressible c) {ls : List InteriorLine}
    (hls : ls.map InteriorLine.text = b.interiorLines c) :
    (paragraphs (ls.takeWhile fun l => l.sigil?.isNone)).map Paragraph.text = b.prose
      ∧ (ls.dropWhile fun l => l.sigil?.isNone).map InteriorLine.text = b.markedLines c := by
  obtain ⟨tail, ht, -, hi⟩ := interiorLines_eq c b
  rw [hi] at hls
  obtain ⟨ps, ms, rfl, hps, hms⟩ := List.map_eq_append_iff.mp hls
  have hprose : ∀ l ∈ ps, (fun l : InteriorLine => l.sigil?.isNone) l = true := by
    intro l hl
    have hmem : l.text ∈ b.prose.intersperse [] ++ tail := hps ▸ List.mem_map_of_mem hl
    simp [sigil?_prose h.prose ht hmem]
  have hmarked : ∀ l ∈ ms.head?, (fun l : InteriorLine => l.sigil?.isNone) l = false := by
    intro l hl
    obtain ⟨rest, rfl⟩ : ∃ rest, ms = l :: rest := by
      cases ms with
      | nil => cases hl
      | cons x rest => cases hl; exact ⟨rest, rfl⟩
    have := sigil?_marked h hms
    rw [Option.isSome_iff_exists] at this
    obtain ⟨sigil, hs⟩ := this
    simp [hs]
  rw [takeWhile_run hprose hmarked, dropWhile_run hprose hmarked]
  exact ⟨paragraphs_intersperse h.prose ht hps, hms⟩

/-- The interior lines of an expressible block, at any places, are read as the block with its tags
as they are read from their lines. -/
theorem parseLines_interior {s : Settings} {column : Nat} (h : b.IsExpressible c)
    {ls : List InteriorLine} (hls : ls.map InteriorLine.text = b.interiorLines c)
    (hcol : AtColumn column ls) :
    (parseLines s ls).block.asyncMarker = b.asyncMarker
      ∧ (parseLines s ls).block.details = b.details
      ∧ (parseLines s ls).block.tags.map Tag.unplaced
        = (b.tags.filterMap Tag.reread?).map Tag.unplaced
      ∧ ((parseLines s ls).errors = [] ↔ ∀ t ∈ b.tags, t.reread?.isSome = true) := by
  obtain ⟨htexts, hmarked⟩ := split_interior h hls
  obtain ⟨hasync, htags, herrors⟩ := run_marked (s := s) h hmarked fun l hl =>
    hcol l (List.dropWhile_subset (fun l : InteriorLine => l.sigil?.isNone) hl)
  have hbrief : b.brief?.toList.filterMap Tag.reread? = b.brief?.toList := by
    cases hb : b.brief? with
    | none => rfl
    | some t => simp [(h.brief t hb).reread?_eq]
  unfold parseLines
  dsimp only
  refine ⟨hasync, ?_, ?_, ?_⟩
  · rw [List.map_tail, htexts, prose]
    cases hb : b.brief? with
    | none => rw [h.unbriefed hb]; rfl
    | some t => rfl
  · rw [List.map_append, htags]
    conv => rhs; rw [tags_eq, List.filterMap_append, hbrief, List.map_append]
    congr 1
    cases hb : b.brief? with
    | none =>
      rw [prose, hb, h.unbriefed hb] at htexts
      rw [List.map_eq_nil_iff.mp htexts]
      rfl
    | some t =>
      rw [prose, hb] at htexts
      obtain ⟨p, rest, hpars, hp, -⟩ := List.map_eq_cons_iff.mp htexts
      rw [hpars]
      exact congrArg (fun t => [t]) ((h.brief t hb).unplaced_toBrief hp)
  · rw [herrors]
    conv => rhs; rw [tags_eq]
    rw [List.forall_mem_append]
    refine ⟨fun hall => ⟨fun t ht => ?_, hall⟩, fun hall => hall.2⟩
    rw [(h.brief t (by simpa using ht)).reread?_eq]
    rfl

/-- The lines of a written interior are the ones that it was put together from. -/
theorem lines_renderInterior (h : AreLines (b.interiorLines c)) :
    lines (b.renderInterior c) = b.interiorLines c := by
  rw [renderInterior, lines_join h.line h.last]

/-- The lines of the interior text of an expressible block are those of its interior, all in the
first column. -/
theorem textLines_renderInterior (h : b.IsExpressible c) :
    (textLines (b.renderInterior c)).map InteriorLine.text = b.interiorLines c
      ∧ AtColumn 1 (textLines (b.renderInterior c)) := by
  have hlines := areLines_interior h
  have hgo : ∀ n (ls : List Text), (∀ l ∈ ls, EndsSolid l) →
      (textLines.go n ls).map InteriorLine.text = ls ∧ AtColumn 1 (textLines.go n ls) := by
    intro n ls
    induction ls generalizing n with
    | nil => exact fun _ => ⟨rfl, by simp [textLines.go, AtColumn]⟩
    | cons l ls ih =>
      intro hls
      obtain ⟨hl, hls⟩ := List.forall_mem_cons.mp hls
      obtain ⟨htext, hcol⟩ := ih (n + 1) hls
      refine ⟨?_, ?_⟩
      · rw [textLines.go, List.map_cons, htext, trimEnd_solid hl]
      · intro m hm hne
        rcases List.mem_cons.mp hm with rfl | hm
        · rfl
        · exact hcol m hm hne
  have hread : textLines (b.renderInterior c) = textLines.go 1 (b.interiorLines c) := by
    rw [textLines, lines_renderInterior hlines]
  rw [hread]
  exact hgo 1 (b.interiorLines c) fun l hl => (hlines.line l hl).2

/-- The interior text of an expressible block is read as the block with its tags as they are read
from their lines. -/
theorem parseText_renderInterior {s : Settings} (h : b.IsExpressible c) :
    (parseText s (b.renderInterior c)).block.asyncMarker = b.asyncMarker
      ∧ (parseText s (b.renderInterior c)).block.details = b.details
      ∧ (parseText s (b.renderInterior c)).block.tags.map Tag.unplaced
        = (b.tags.filterMap Tag.reread?).map Tag.unplaced
      ∧ ((parseText s (b.renderInterior c)).errors = [] ↔
        ∀ t ∈ b.tags, t.reread?.isSome = true) := by
  obtain ⟨htext, hcol⟩ := textLines_renderInterior h
  have hparse := parseLines_interior (s := s) h htext hcol
  unfold parseText
  dsimp only
  split
  · exact hparse
  · exact hparse

end CommentBlock

end DocContract
