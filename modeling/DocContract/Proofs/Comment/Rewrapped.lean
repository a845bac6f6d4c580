import Mathlib.Logic.Relation
import DocContract.Proofs.Comment.LineBreak
import DocContract.Proofs.Comment.Renumbered

/-!
# The layout of a comment

Where the lines of a comment are broken does not matter outside snippets: blank lines may stand
between the lines of tags, and a description or a paragraph may go on on a new line. A comment that
is laid out in another way is read as the same comment, at other lines and columns.
-/

namespace DocContract

open Text

/-! ### Paragraphs -/

/-- What the lines behind a line of a paragraph add to it, and the paragraphs after it. -/
def continuation (ls : List InteriorLine) : Text × List Paragraph :=
  match ls, paragraphs ls with
  | next :: _, p :: ps => if next.isBlank then ([], p :: ps) else (' ' :: p.text, ps)
  | _, ps => ([], ps)

private theorem paragraphs_solid {l : InteriorLine} (hl : l.isBlank = false)
    (ls : List InteriorLine) :
    paragraphs (l :: ls) = ⟨l.line, l.contentColumn, trim l.text ++ (continuation ls).1⟩
      :: (continuation ls).2 := by
  rw [paragraphs_cons, hl, if_neg Bool.false_ne_true]
  unfold continuation
  cases ls with
  | nil => simp
  | cons next ls =>
    cases paragraphs (next :: ls) with
    | nil => simp
    | cons p ps =>
      dsimp only
      split
      · simp
      · rfl

private theorem continuation_solid {l : InteriorLine} (hl : l.isBlank = false)
    (ls : List InteriorLine) :
    continuation (l :: ls)
      = (' ' :: (trim l.text ++ (continuation ls).1), (continuation ls).2) := by
  conv_lhs => unfold continuation
  rw [paragraphs_solid hl]
  simp only [hl, Bool.false_eq_true, if_false]

/-- Whether a line goes on with a paragraph depends on the next line being blank. -/
theorem continuation_congr {xs ys : List InteriorLine}
    (hhead : xs.head?.map InteriorLine.isBlank = ys.head?.map InteriorLine.isBlank)
    (h : paragraphs xs = paragraphs ys) : continuation xs = continuation ys := by
  unfold continuation
  rw [h]
  cases xs with
  | nil =>
    cases ys with
    | nil => rfl
    | cons y ys => cases hhead
  | cons x xs =>
    cases ys with
    | nil => cases hhead
    | cons y ys =>
      have hblank : x.isBlank = y.isBlank := Option.some.inj hhead
      cases paragraphs (y :: ys) with
      | nil => rfl
      | cons p ps => simp only [hblank]

private theorem paragraphs_append_congr (as : List InteriorLine) {xs ys : List InteriorLine}
    (hhead : xs.head?.map InteriorLine.isBlank = ys.head?.map InteriorLine.isBlank)
    (h : paragraphs xs = paragraphs ys) : paragraphs (as ++ xs) = paragraphs (as ++ ys) := by
  induction as with
  | nil => exact h
  | cons a as ih =>
    have hnext : (as ++ xs).head?.map InteriorLine.isBlank
        = (as ++ ys).head?.map InteriorLine.isBlank := by
      cases as with
      | nil => exact hhead
      | cons b as => rfl
    rw [List.cons_append, List.cons_append]
    by_cases ha : a.isBlank = true
    · rw [paragraphs_cons, if_pos ha, paragraphs_cons, if_pos ha, ih]
    · rw [paragraphs_solid (Bool.eq_false_iff.mpr ha), paragraphs_solid (Bool.eq_false_iff.mpr ha),
        continuation_congr hnext ih]

/-- The two pieces of a line make up the same paragraph as the line. -/
theorem LineBreak.paragraphs_eq (w : LineBreak) (ls : List InteriorLine) :
    paragraphs (w.first :: w.next :: ls) = paragraphs (w.whole :: ls) := by
  have htext : trim w.whole.text = trim w.first.text ++ ' ' :: trim w.next.text := by
    rw [w.trim_whole, w.next_text]
  rw [paragraphs_solid w.isBlank_first, continuation_solid w.isBlank_next,
    paragraphs_solid w.isBlank_whole, w.contentColumn_first, htext, List.append_assoc,
    List.cons_append]
  rfl

/-! ### Lines behind the first sigil line -/

/-- The lines that follow belong to groups: there is a sigil line in front of them, or they begin
with one. -/
def FollowGroups (as ms : List InteriorLine) : Prop :=
  (∃ l ∈ as, l.sigil?.isNone = false) ∨ ∀ m ∈ ms.head?, m.sigil?.isNone = false

private theorem FollowGroups.split {as ms : List InteriorLine} (h : FollowGroups as ms) :
    (as ++ ms).takeWhile (fun l => l.sigil?.isNone) = as.takeWhile (fun l => l.sigil?.isNone)
      ∧ groupLines (as ++ ms) = groupLines as ++ ms := by
  rcases h with ⟨l, hl, hsigil⟩ | hms
  · obtain ⟨front, back, rfl⟩ := List.append_of_mem hl
    have hstop : ∀ rest : List InteriorLine, ∀ m ∈ (l :: rest).head?, m.sigil?.isNone = false := by
      rintro rest m ⟨⟩
      exact hsigil
    unfold groupLines
    rw [List.append_assoc, List.cons_append, takeWhile_append_stop front (hstop _),
      takeWhile_append_stop front (hstop _), dropWhile_append_stop front (hstop _),
      dropWhile_append_stop front (hstop _), List.append_assoc, List.cons_append]
    exact ⟨rfl, rfl⟩
  · exact ⟨takeWhile_append_stop as hms, dropWhile_append_stop as hms⟩

/-- Lines that belong to groups can be replaced by lines from which the open group reads the
same. -/
theorem parseLines_append_congr {s : Settings} {as ms ms' : List InteriorLine}
    (h : FollowGroups as ms) (h' : FollowGroups as ms')
    (hrun : Group.run s (leftOpen s as) ms = Group.run s (leftOpen s as) ms') :
    parseLines s (as ++ ms) = parseLines s (as ++ ms') := by
  obtain ⟨htake, hdrop⟩ := h.split
  obtain ⟨htake', hdrop'⟩ := h'.split
  have hgroups : Group.run s .skip (groupLines (as ++ ms))
      = Group.run s .skip (groupLines (as ++ ms')) := by
    rw [hdrop, hdrop', Group.run_append, Group.run_append]
    exact congrArg _ hrun
  unfold groupLines at hgroups
  unfold parseLines
  rw [htake, htake', hgroups]

private theorem leftOpen_of_prose {s : Settings} {as : List InteriorLine}
    (h : ¬ ∃ l ∈ as, l.sigil?.isNone = false) : leftOpen s as = .skip := by
  have hnone : groupLines as = [] := List.dropWhile_eq_nil_iff.mpr fun l hl => by
    by_contra hs
    exact h ⟨l, hl, Bool.eq_false_iff.mpr hs⟩
  rw [leftOpen, hnone]
  rfl

/-! ### Blank lines -/

namespace Group

/-- Lines are code. -/
def IsFence : Group → Prop
  | .fence _ _ _ => True
  | _ => False

instance (g : Group) : Decidable g.IsFence :=
  match g with
  | .fence _ _ _ => inferInstanceAs (Decidable True)
  | .skip => inferInstanceAs (Decidable False)
  | .entry _ _ => inferInstanceAs (Decidable False)
  | .awaitFence _ => inferInstanceAs (Decidable False)

private theorem step_blank {s : Settings} {g : Group} {l : InteriorLine} (hg : ¬ g.IsFence)
    (hl : l.isBlank = true) : step s g l = (g, {}) := by
  have hnil : trimStart l.text = [] := trimStart_eq_nil.mpr hl
  have hsigil : l.sigil? = none := by
    rw [InteriorLine.sigil?, hnil]
    rfl
  rw [step_continued hsigil]
  cases g with
  | skip => rfl
  | entry branch swallow => simp only [continued, hl, if_true]
  | awaitFence tag =>
    have hextend : tag.extend l.text = tag := by simp only [Tag.extend, trim_eq_nil.mpr hl]
    simp only [continued, hnil, hextend]
    rfl
  | fence tag language body => exact absurd trivial hg

private theorem run_blanks {s : Settings} {g : Group} {blanks : List InteriorLine}
    (hg : ¬ g.IsFence)
    (hblank : ∀ l ∈ blanks, l.isBlank = true) (ls : List InteriorLine) :
    run s g (blanks ++ ls) = run s g ls := by
  induction blanks with
  | nil => rfl
  | cons l blanks ih =>
    obtain ⟨hl, hrest⟩ := List.forall_mem_cons.mp hblank
    rw [List.cons_append, run_cons, step_blank hg hl, ih hrest, Output.empty_append]

end Group

/-! ### Another layout -/

/-- One change of the layout of a comment: blank lines are put between lines that belong to groups
and are no code; a line is broken at a space inside the description that is read from it, or inside
a paragraph; or lines get other numbers. -/
inductive Rewrap (s : Settings) : List InteriorLine → List InteriorLine → Prop
  | blanks {as blanks : List InteriorLine} (marked : ∃ l ∈ as, l.sigil?.isNone = false)
      (unfenced : ¬ (leftOpen s as).IsFence) (blank : ∀ l ∈ blanks, l.isBlank = true)
      (bs : List InteriorLine) : Rewrap s (as ++ bs) (as ++ (blanks ++ bs))
  | entry {as : List InteriorLine} {w : LineBreak}
      (described : (leftOpen s as).Describes w.whole w.part) (bs : List InteriorLine) :
      Rewrap s (as ++ w.whole :: bs) (as ++ w.first :: w.next :: bs)
  | prose {as : List InteriorLine} {w : LineBreak} (prose : ∀ l ∈ as, l.sigil? = none)
      (whole : w.whole.sigil? = none) (oneLine : '\n' ∉ w.whole.text)
      (bs : List InteriorLine) : Rewrap s (as ++ w.whole :: bs) (as ++ w.first :: w.next :: bs)
  | renumber {ls ls' : List InteriorLine}
      (same : ls.map (InteriorLine.renumber fun _ => 0)
        = ls'.map (InteriorLine.renumber fun _ => 0)) : Rewrap s ls ls'

/-- Two comments have the same content and the same defects, at whatever places. -/
structure ParsedComment.SameContent (p q : ParsedComment) : Prop where
  block : p.block.SameContent q.block
  errors : p.errors.map Located.value = q.errors.map Located.value
  warnings : p.warnings.map Located.value = q.warnings.map Located.value

namespace ParsedComment

private theorem SameContent.refl (p : ParsedComment) : p.SameContent p :=
  ⟨⟨rfl, rfl, rfl⟩, rfl, rfl⟩

private theorem SameContent.trans {p q r : ParsedComment} (h : p.SameContent q)
    (h' : q.SameContent r) : p.SameContent r :=
  ⟨⟨h.block.asyncMarker.trans h'.block.asyncMarker, h.block.details.trans h'.block.details,
    h.block.tags.trans h'.block.tags⟩, h.errors.trans h'.errors, h.warnings.trans h'.warnings⟩

private theorem SameContent.symm {p q : ParsedComment} (h : p.SameContent q) : q.SameContent p :=
  ⟨⟨h.block.asyncMarker.symm, h.block.details.symm, h.block.tags.symm⟩, h.errors.symm,
    h.warnings.symm⟩

/-- Line numbers are no content. -/
theorem sameContent_renumber (f : Nat → Nat) (p : ParsedComment) :
    (p.renumber f).SameContent p := by
  have htags : Tag.unplaced ∘ Tag.renumber f = Tag.unplaced := funext (Tag.unplaced_renumber f)
  refine ⟨⟨rfl, rfl, ?_⟩, ?_, ?_⟩
  · rw [renumber, List.map_map, htags]
  · rw [renumber, List.map_map]
    rfl
  · rw [renumber, List.map_map]
    rfl

end ParsedComment

/-! ### One change -/

section Changes

variable {s : Settings} {as : List InteriorLine} {w : LineBreak}

/-- A line that is broken inside a description opens a group, or stands behind a sigil line, and so
does its first piece. -/
theorem followGroups_break (h : (leftOpen s as).Describes w.whole w.part)
    (bs : List InteriorLine) :
    FollowGroups as (w.whole :: bs) ∧ FollowGroups as (w.first :: w.next :: bs) := by
  by_cases hmarked : ∃ l ∈ as, l.sigil?.isNone = false
  · exact ⟨.inl hmarked, .inl hmarked⟩
  -- Without a sigil line in front no group is open, so the line opens one.
  rw [leftOpen_of_prose hmarked] at h
  obtain ⟨sigil, hopens, hsuffix⟩ : ∃ sigil, Group.skip.opening? w.whole = some sigil
      ∧ w.part <:+ trim sigil.rest := by
    generalize hpart : w.part = part at h
    cases h with
    | usage opens known => exact ⟨_, opens, List.suffix_refl _⟩
    | tag opens known read => exact ⟨_, opens, TagKind.header?_suffix read⟩
  have hwhole := Group.opening?_eq_some hopens
  obtain ⟨rest, hfirst, -⟩ := LineBreak.sigil?_first hwhole hsuffix
  refine ⟨.inr ?_, .inr ?_⟩
  · rintro m ⟨⟩
    rw [hwhole]
    rfl
  · rintro m ⟨⟩
    rw [hfirst]
    rfl

private theorem parseLines_entry (h : (leftOpen s as).Describes w.whole w.part)
    (bs : List InteriorLine) :
    parseLines s (as ++ w.whole :: bs) = parseLines s (as ++ w.first :: w.next :: bs) := by
  obtain ⟨hwhole, hfirst⟩ := followGroups_break h bs
  refine parseLines_append_congr hwhole hfirst ?_
  have hpieces : w.first :: w.next :: bs = [w.first, w.next] ++ bs := rfl
  rw [Group.run_cons, hpieces, Group.run_append, Group.advance_break h rfl]

private theorem parseLines_blanks (marked : ∃ l ∈ as, l.sigil?.isNone = false)
    (unfenced : ¬ (leftOpen s as).IsFence) {blanks : List InteriorLine}
    (blank : ∀ l ∈ blanks, l.isBlank = true) (bs : List InteriorLine) :
    parseLines s (as ++ bs) = parseLines s (as ++ (blanks ++ bs)) :=
  parseLines_append_congr (.inl marked) (.inl marked) (Group.run_blanks unfenced blank bs).symm

/-- The first piece of a line that is no sigil line is none either. -/
theorem LineBreak.sigil?_first_eq_none (whole : w.whole.sigil? = none)
    (oneLine : '\n' ∉ w.whole.text) : w.first.sigil? = none := by
  cases hs : w.first.sigil? with
  | none => rfl
  | some sigil =>
    have hline : '\n' ∉ trimStart w.whole.text := fun hm => oneLine (mem_of_mem_trimStart hm)
    have hmarked : IsSigilText (trimStart w.whole.text) := by
      rw [text_whole, trimStart_append_of_solid w.not_blank_first]
      refine (SigilLine.isSigilText_of_parse? hs).append ?_
      rintro c ⟨⟩
      decide
    exact absurd hmarked ((SigilLine.parse?_eq_none_iff hline).mp whole)

private theorem parseLines_prose (prose : ∀ l ∈ as, l.sigil? = none) (whole : w.whole.sigil? = none)
    (first : w.first.sigil? = none) (bs : List InteriorLine) :
    parseLines s (as ++ w.whole :: bs) = parseLines s (as ++ w.first :: w.next :: bs) := by
  have hnone : ∀ l ∈ as, l.sigil?.isNone = true := fun l hl => by rw [prose l hl]; rfl
  have hwhole : w.whole.sigil?.isNone = true := by rw [whole]; rfl
  have hfirst : w.first.sigil?.isNone = true := by rw [first]; rfl
  have hnext : w.next.sigil?.isNone = true := by rw [w.sigil?_next]; rfl
  have hblank : (w.whole :: bs.takeWhile fun l => l.sigil?.isNone).head?.map InteriorLine.isBlank
      = (w.first :: w.next :: bs.takeWhile fun l => l.sigil?.isNone).head?.map
        InteriorLine.isBlank := by
    simp only [List.head?_cons, Option.map_some, w.isBlank_whole, w.isBlank_first]
  have hparagraphs := paragraphs_append_congr as hblank (w.paragraphs_eq _).symm
  unfold parseLines
  simp only [List.takeWhile_append_of_pos hnone, List.dropWhile_append_of_pos hnone,
    List.takeWhile_cons, List.dropWhile_cons, hwhole, hfirst, hnext, if_true, hparagraphs]

end Changes

/-- One change of the layout changes places at most. -/
theorem Rewrap.sameContent {s : Settings} {ls ls' : List InteriorLine} (h : Rewrap s ls ls') :
    (parseLines s ls).SameContent (parseLines s ls') := by
  cases h with
  | blanks marked unfenced blank bs =>
    rw [parseLines_blanks marked unfenced blank bs]
    exact .refl _
  | entry described bs =>
    rw [parseLines_entry described bs]
    exact .refl _
  | prose prose whole oneLine bs =>
    rw [parseLines_prose prose whole (LineBreak.sigil?_first_eq_none whole oneLine) bs]
    exact .refl _
  | renumber same =>
    -- The lists become one when all numbers are forgotten.
    have hsame := congrArg (parseLines s) same
    rw [parseLines_renumber, parseLines_renumber] at hsame
    have hls := ParsedComment.sameContent_renumber (fun _ => 0) (parseLines s ls)
    rw [hsame] at hls
    exact hls.symm.trans (ParsedComment.sameContent_renumber _ _)

/-- A comment is read as the same one in any other layout: with blank lines between the lines of its
groups, outside snippets, and with its descriptions and paragraphs broken at spaces. Only the lines
and columns of its tags and defects differ. -/
theorem parseLines_rewrapped {s : Settings} {ls ls' : List InteriorLine}
    (h : Relation.ReflTransGen (Rewrap s) ls ls') :
    (parseLines s ls).SameContent (parseLines s ls') := by
  induction h with
  | refl => exact .refl _
  | tail _ change ih => exact ih.trans change.sameContent

/-! ### Examples -/

/-- The brief of a comment with a break in it. -/
def briefBreak : LineBreak where
  line := 1
  column := 1
  front := []
  head := "Adds two"
  tail := "numbers."
  next := ⟨2, 1, "  numbers."⟩

/-- A parameter with a break in its description. -/
def tagBreak : LineBreak where
  line := 2
  column := 1
  front := "@param pair - "
  head := "both"
  tail := "numbers"
  next := ⟨4, 1, "  numbers"⟩

/-- A nested field with a break in its description. -/
def fieldBreak : LineBreak where
  line := 3
  column := 1
  front := "  - left - "
  head := "the"
  tail := "first"
  next := ⟨7, 1, "    first"⟩

/-- The three lines without their breaks are read as their six pieces with a blank line between
them. -/
theorem parseLines_rewrapped_pieces :
    let unbroken : List InteriorLine := [⟨1, 1, "Adds two numbers."⟩,
      ⟨2, 1, "@param pair - both numbers"⟩, ⟨3, 1, "  - left - the first"⟩]
    let pieces : List InteriorLine := [⟨1, 1, "Adds two"⟩, ⟨2, 1, "  numbers."⟩,
      ⟨3, 1, "@param pair - both"⟩, ⟨4, 1, "  numbers"⟩, ⟨5, 1, ""⟩, ⟨6, 1, "  - left - the"⟩,
      ⟨7, 1, "    first"⟩]
    Relation.ReflTransGen (Rewrap {}) unbroken pieces
      ∧ (parseLines {} unbroken).SameContent (parseLines {} pieces) := by
  intro unbroken pieces
  have hbrief : Rewrap {} unbroken
      [briefBreak.first, briefBreak.next, tagBreak.whole, fieldBreak.whole] :=
    @Rewrap.prose {} [] briefBreak nofun (by decide) (by decide)
      [tagBreak.whole, fieldBreak.whole]
  have hsigil : (leftOpen {} [briefBreak.first, briefBreak.next]).Describes tagBreak.whole
      tagBreak.part :=
    @Group.Describes.tag _ _ ⟨"param", "pair - both numbers"⟩ .param
      ⟨some "pair", none, false, "both numbers"⟩ (by decide) (by decide) (by decide)
  have htag : Rewrap {} [briefBreak.first, briefBreak.next, tagBreak.whole, fieldBreak.whole]
      [briefBreak.first, briefBreak.next, tagBreak.first, tagBreak.next, fieldBreak.whole] :=
    .entry hsigil [fieldBreak.whole]
  have hblank : Rewrap {}
      ([briefBreak.first, briefBreak.next, tagBreak.first, tagBreak.next] ++ [fieldBreak.whole])
      [briefBreak.first, briefBreak.next, tagBreak.first, tagBreak.next, ⟨5, 1, ""⟩,
        fieldBreak.whole] :=
    @Rewrap.blanks {} _ [⟨5, 1, ""⟩] (by decide) (by decide) (by decide) [fieldBreak.whole]
  have hopen : leftOpen {} [briefBreak.first, briefBreak.next, tagBreak.first, tagBreak.next,
      ⟨5, 1, ""⟩] = .entry ⟨(Tag.ofKind .param 2 1).withHeader
        ⟨some "pair", none, false, "both numbers"⟩, []⟩ false := rfl
  have hdescribes : (leftOpen {} [briefBreak.first, briefBreak.next, tagBreak.first, tagBreak.next,
      ⟨5, 1, ""⟩]).Describes fieldBreak.whole fieldBreak.part := by
    rw [hopen]
    exact @Group.Describes.field _ _ _ ⟨2, .dash, .dashPlus, some ⟨some "left", none, false,
      "the first"⟩⟩ ⟨some "left", none, false, "the first"⟩ (by decide) (by decide) (by decide)
  have hfield : Rewrap {} [briefBreak.first, briefBreak.next, tagBreak.first, tagBreak.next,
        ⟨5, 1, ""⟩, fieldBreak.whole]
      [briefBreak.first, briefBreak.next, tagBreak.first, tagBreak.next, ⟨5, 1, ""⟩,
        fieldBreak.first, fieldBreak.next] :=
    .entry hdescribes []
  have hnumbers : Rewrap {} [briefBreak.first, briefBreak.next, tagBreak.first, tagBreak.next,
      ⟨5, 1, ""⟩, fieldBreak.first, fieldBreak.next] pieces := .renumber (by decide)
  have hlayout : Relation.ReflTransGen (Rewrap {}) unbroken pieces :=
    .head hbrief (.head htag (.head hblank (.head hfield (.single hnumbers))))
  exact ⟨hlayout, parseLines_rewrapped hlayout⟩

end DocContract
