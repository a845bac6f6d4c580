import DocContract.Proofs.Comment.Depth
import DocContract.Proofs.Comment.Snippet
import DocContract.Proofs.Text.Column

/-!
# What a snippet keeps

The lines between the fences of a usage group lose the indentation they have in common. It is
counted in bytes, and a line whose leading blanks cannot be cut behind that many bytes is lost as a
whole. The snippet keeps the content of its lines exactly when no line is lost in this way, as when
all of them are indented by blanks of one byte.
-/

namespace DocContract

open Text

/-! ### Lines without their common indentation -/

/-- Some of the leading blanks of the line are so many bytes wide. -/
def Text.CutsBlanks (n : Nat) (l : Text) : Prop :=
  ∃ front rest, leadingBlanks l = front ++ rest ∧ width front = n

/-- All blanks in front of the line are spaces, and something else stands behind them. -/
structure Text.IsSpaced (l : Text) : Prop where
  solid : isBlankText l = false
  spaces : ∀ c ∈ leadingBlanks l, c = ' '

section Cut

variable {n : Nat} {l : Text}

/-- A line that is cut between its leading blanks keeps those behind the cut. -/
theorem Text.CutsBlanks.exists_dedentLine (h : CutsBlanks n l) : ∃ rest : Text,
    (∀ c ∈ rest, isBlank c = true) ∧ width rest + n = Text.indent l
      ∧ dedentLine n l = trimEnd (rest ++ trimStart l) := by
  obtain ⟨front, rest, hblanks, rfl⟩ := h
  have hdrop := dropBytes_width front (rest ++ trimStart l)
  rw [← List.append_assoc, ← hblanks, leadingBlanks_append_trimStart] at hdrop
  refine ⟨rest, fun c hc => ?_, ?_, by rw [dedentLine, hdrop]⟩
  · exact isBlank_of_mem_leadingBlanks (hblanks ▸ List.mem_append_right front hc)
  · rw [Text.indent, hblanks, width_append, Nat.add_comm]

/-- A line that is not blank keeps its text exactly when its blanks can be cut. -/
theorem trim_dedentLine_iff (hb : isBlankText l = false) (hn : n ≤ Text.indent l) :
    trim (dedentLine n l) = trim l ↔ CutsBlanks n l := by
  constructor
  · intro h
    have hl := leadingBlanks_append_trimStart l
    rcases dropBytes_blanks (t := trimStart l) hn with h₀ | ⟨front, rest, hblanks, hwidth, -⟩
    · rw [hl] at h₀
      have hlost : trim l = [] := by
        rw [← h, dedentLine, h₀]
        rfl
      rw [trim_eq_nil, hb] at hlost
      cases hlost
    · exact ⟨front, rest, hblanks, hwidth⟩
  · intro h
    obtain ⟨rest, hrest, -, hline⟩ := h.exists_dedentLine
    rw [hline, trim_trimEnd, trim_blanks_append hrest, trim_trimStart]

/-- The indentation of a line is what is cut off and what is left. -/
theorem Text.CutsBlanks.indent_dedentLine (h : CutsBlanks n l) (hb : isBlankText l = false) :
    Text.indent (dedentLine n l) + n = Text.indent l := by
  obtain ⟨rest, hrest, hwidth, hline⟩ := h.exists_dedentLine
  have hne : trimEnd (trimStart l) ≠ [] := by
    change trim l ≠ []
    rw [ne_eq, trim_eq_nil, hb]
    exact Bool.false_ne_true
  have hend : trimEnd (rest ++ trimStart l) = rest ++ trimEnd (trimStart l) := by
    obtain ⟨es, hes, heq⟩ := exists_trimEnd_append (trimStart l)
    have hsolid : EndsSolid (rest ++ trimEnd (trimStart l)) :=
      (endsSolid_append hne).mpr (endsSolid_trimEnd _)
    conv => lhs; rw [heq, ← List.append_assoc, trimEnd_append_blanks hes, trimEnd_solid hsolid]
  have hstart : StartsSolid (trimEnd (trimStart l)) := startsSolid_trim l
  rw [hline, hend, Text.indent, leadingBlanks_blanks_append hrest hstart, hwidth]

/-- Blanks of one byte can be cut anywhere. -/
theorem cutsBlanks_of_narrow (h : ∀ c ∈ leadingBlanks l, c.utf8Size = 1)
    (hn : n ≤ Text.indent l) : CutsBlanks n l := by
  have hwidth : ∀ t : Text, (∀ c ∈ t, c.utf8Size = 1) → width t = t.length := by
    intro t ht
    induction t with
    | nil => rfl
    | cons c r ih =>
      obtain ⟨hc, hr⟩ := List.forall_mem_cons.mp ht
      rw [width, hc, ih hr, List.length_cons, Nat.add_comm]
  have hle : n ≤ (leadingBlanks l).length := by
    rw [← hwidth _ h]
    exact hn
  refine ⟨(leadingBlanks l).take n, (leadingBlanks l).drop n, (List.take_append_drop n _).symm, ?_⟩
  rw [hwidth _ fun c hc => h c (List.mem_of_mem_take hc), List.length_take_of_le hle]

end Cut

/-! ### The content of a snippet -/

/-- The snippet has the lines of the body: they hold the same text, and lines that are indented by
spaces are as far from each other as they were. -/
structure Snippet.Keeps (sn : Snippet) (body : List Text) : Prop where
  contents : (rawLines sn.body).map trim = body.map trim
  distances : ∀ p ∈ body.zip (rawLines sn.body), ∀ q ∈ body.zip (rawLines sn.body),
    IsSpaced p.1 → IsSpaced q.1 →
      (Text.indent p.2 : Int) - Text.indent q.2 = Text.indent p.1 - Text.indent q.1

/-- The common indentation can be cut off: it ends between two blanks of each line that is not
blank, and what is left is one line. -/
structure Dedents (body : List Text) : Prop where
  cuts : ∀ l ∈ body, isBlankText l = false → CutsBlanks (commonIndent body) l
  whole : ∀ l ∈ body, '\n' ∉ dedentLine (commonIndent body) l

private theorem rawLines_dedent {body : List Text} (hne : body ≠ []) : rawLines (dedent body)
    = (body.map (dedentLine (commonIndent body))).flatMap rawLines :=
  rawLines_join (by simpa using hne)

private theorem commonIndent_le {body : List Text} {l : Text} (hl : l ∈ body)
    (hb : isBlankText l = false) : commonIndent body ≤ Text.indent l :=
  (commonIndent_spec ⟨l, hl, hb⟩).2 l hl hb

/-- Lines that are indented by blanks of one byte lose nothing but their common indentation. -/
theorem dedents_of_narrow {body : List Text} (hn : ∀ l ∈ body, '\n' ∉ l)
    (h : ∀ l ∈ body, ∀ c ∈ leadingBlanks l, c.utf8Size = 1) : Dedents body where
  cuts l hl hb := cutsBlanks_of_narrow (h l hl) (commonIndent_le hl hb)
  whole l hl hc := hn l hl ((dropBytes_suffix _ l).mem (mem_of_mem_trimEnd hc))

namespace Dedents

variable {body : List Text} (h : Dedents body)

include h

private theorem rawLines_dedent_eq (hne : body ≠ []) :
    rawLines (dedent body) = body.map (dedentLine (commonIndent body)) := by
  rw [rawLines_dedent hne]
  apply flatMap_rawLines
  intro t ht
  obtain ⟨l, hl, rfl⟩ := List.mem_map.mp ht
  exact h.whole l hl

private theorem keeps (language : Text) (hne : body ≠ []) :
    Snippet.Keeps ⟨language, dedent body⟩ body := by
  have hlines := h.rawLines_dedent_eq hne
  have hpair : ∀ p ∈ body.zip (rawLines (dedent body)), IsSpaced p.1 →
      Text.indent p.2 + commonIndent body = Text.indent p.1 := by
    intro p hp hs
    have hzip : body.zip (rawLines (dedent body))
        = body.map fun l => (l, dedentLine (commonIndent body) l) := by
      rw [hlines]
      simpa using List.zip_map' (l := body) (f := id) (g := dedentLine (commonIndent body))
    rw [hzip] at hp
    obtain ⟨l, hl, rfl⟩ := List.mem_map.mp hp
    exact (h.cuts l hl hs.solid).indent_dedentLine hs.solid
  refine ⟨?_, fun p hp q hq hsp hsq => ?_⟩
  · rw [hlines, List.map_map]
    refine List.map_congr_left fun l hl => ?_
    by_cases hb : isBlankText l = true
    · rw [Function.comp_apply, dedentLine_blank hb, trim_eq_nil.mpr hb]
      rfl
    · rw [Bool.not_eq_true] at hb
      exact (trim_dedentLine_iff hb (commonIndent_le hl hb)).mpr (h.cuts l hl hb)
  · have hp' := hpair p hp hsp
    have hq' := hpair q hq hsq
    omega

end Dedents

/-- A snippet keeps its lines exactly when their common indentation can be cut off. -/
theorem Snippet.keeps_iff (language : Text) {body : List Text} (hne : body ≠ []) :
    Snippet.Keeps ⟨language, dedent body⟩ body ↔ Dedents body := by
  refine ⟨fun h => ?_, fun h => h.keeps language hne⟩
  have hcontents := h.contents
  rw [rawLines_dedent hne] at hcontents
  have hlength : ((body.map (dedentLine (commonIndent body))).flatMap rawLines).length
      = (body.map (dedentLine (commonIndent body))).length := by
    simpa only [List.length_map] using congrArg List.length hcontents
  have hwhole := not_mem_of_length_pieces hlength
  rw [flatMap_rawLines hwhole, List.map_map, List.map_inj_left] at hcontents
  exact ⟨fun l hl hb => (trim_dedentLine_iff hb (commonIndent_le hl hb)).mp (hcontents l hl),
    fun l hl => hwhole _ (List.mem_map_of_mem hl)⟩

/-! ### Tags that lines go on with -/

namespace Group

variable {s : Settings}

/-- A line that opens no group leaves the tag of the group as it is but for its description. -/
theorem bare_continued (branch : Branch) (swallow : Bool) (l : InteriorLine) :
    ∃ b swallow', (continued s l (.entry branch swallow)).1 = .entry b swallow'
      ∧ b.root.bare = branch.root.bare := by
  generalize h : continued s l (.entry branch swallow) = next
  cases Continues.of_eq h with
  | @field _ _ _ field _ _ _ _ grows =>
    subst grows
    exact ⟨_, false, rfl, (Branch.sameRoot_upTo field.indent branch).bare⟩
  | text => exact ⟨_, false, rfl, branch.bare_root_extend l.text⟩
  | _ => exact ⟨branch, _, rfl, rfl⟩

/-- The first tag that the lines behind an open tag give is this tag. -/
theorem exists_tags_entry (branch : Branch) (swallow : Bool) (ls : List InteriorLine) :
    ∃ t more, (run s (.entry branch swallow) ls).tags = t :: more
      ∧ t.bare = branch.root.bare := by
  induction ls generalizing branch swallow with
  | nil => exact ⟨branch.toTag, [], rfl, branch.bare_toTag⟩
  | cons l ls ih =>
    rw [run_cons, step]
    split
    · exact ⟨branch.toTag, _, rfl, branch.bare_toTag⟩
    · obtain ⟨b, swallow', hnext, hroot⟩ := bare_continued (s := s) branch swallow l
      obtain ⟨t, more, htags, hbare⟩ := ih b swallow'
      refine ⟨t, more, ?_, hbare.trans hroot⟩
      rw [Output.tags_append, tags_continued, hnext, List.nil_append, htags]

end Group

/-! ### Usage groups with a fence -/

/-- The lines of a usage group: its sigil line, those in front of its fence, the line of the fence,
the lines of the snippet and the line that closes it. -/
structure FencedGroup where
  head : InteriorLine
  waiting : List InteriorLine
  fence : InteriorLine
  body : List InteriorLine
  close : InteriorLine

namespace FencedGroup

/-- The lines in their order. -/
def lines (g : FencedGroup) : List InteriorLine :=
  g.head :: (g.waiting ++ g.fence :: (g.body ++ [g.close]))

/-- The texts between the fences. -/
def bodyTexts (g : FencedGroup) : List Text := g.body.map InteriorLine.text

/-- Behind some lines, the group is opened, and its fence is opened and closed. -/
structure OpensBehind (g : FencedGroup) (s : Settings) (as : List InteriorLine) : Prop where
  opens : ∃ sigil, (leftOpen s as).opening? g.head = some sigil
    ∧ TagKind.ofSigil? sigil.tag = some .usage
  waits : ∀ l ∈ g.waiting, l.sigil? = none ∧ after? fenceMark (trimStart l.text) = none
  fenced : ∃ language, after? fenceMark (trimStart g.fence.text) = some language
  unclosed : ∀ l ∈ g.body, trim l.text ≠ fenceMark
  closes : trim g.close.text = fenceMark

variable {g : FencedGroup} {s : Settings} {as : List InteriorLine}

/-- The lines of the group behind its sigil line, and what they leave open. -/
theorem OpensBehind.exists_advance (h : g.OpensBehind s as) (tag : Tag) : ∃ description language,
    Group.advance s (.awaitFence tag) (g.waiting ++ g.fence :: (g.body ++ [g.close]))
      = (.entry ⟨{ tag with
          description := description
          snippet? := some ⟨language, dedent g.bodyTexts⟩ }, []⟩ false, {}) := by
  obtain ⟨language, hlanguage⟩ := h.fenced
  obtain ⟨d, hwait⟩ := Group.advance_awaitFence (s := s) tag h.waits
  refine ⟨d, trim language, ?_⟩
  have hbody : Group.advance s (.fence { tag with description := d } (trim language) []) g.body
      = (.fence { tag with description := d } (trim language) (g.bodyTexts.reverse ++ []), {}) :=
    Group.advance_fence h.unclosed
  rw [Group.advance_append, hwait, Group.advance_cons, Group.step_openFence hlanguage,
    Group.advance_append, hbody, Group.advance_cons, Group.step_closeFence h.closes,
    Group.advance_nil]
  simp only [Output.append_empty, List.append_nil, List.reverse_reverse]

/-- The group gives a usage tag with a snippet, which keeps the lines between the fences exactly
when their common indentation can be cut off. -/
theorem OpensBehind.exists_keeps_iff (h : g.OpensBehind s as) (hne : g.body ≠ [])
    (rest : List InteriorLine) : ∃ t sn more,
    (parseLines s (as ++ (g.lines ++ rest))).block.tags
        = (parseLines s as).block.tags ++ t :: more
      ∧ t.kind = .usage ∧ t.place = (g.head.line, g.head.contentColumn) ∧ t.snippet? = some sn
      ∧ (sn.Keeps g.bodyTexts ↔ Dedents g.bodyTexts) := by
  obtain ⟨sigil, hopen, husage⟩ := h.opens
  obtain ⟨tag, htag⟩ : ∃ tag, tag
      = (Tag.ofKind .usage g.head.line g.head.contentColumn).extend sigil.rest := ⟨_, rfl⟩
  obtain ⟨d, language, hadvance⟩ := h.exists_advance tag
  obtain ⟨t, more, htags, hbare⟩ := Group.exists_tags_entry (s := s)
    ⟨{ tag with description := d, snippet? := some ⟨language, dedent g.bodyTexts⟩ }, []⟩ false rest
  have hroot : t.bare = { Tag.ofKind .usage g.head.line g.head.contentColumn with
      snippet? := some ⟨language, dedent g.bodyTexts⟩ } := by
    obtain ⟨e, hextend, -⟩ :=
      (Tag.ofKind .usage g.head.line g.head.contentColumn).extend_eq sigil.rest
    rw [hbare, htag, hextend]
    rfl
  refine ⟨t, ⟨language, dedent g.bodyTexts⟩, more, ?_, congrArg (·.kind) hroot, ?_,
    congrArg (·.snippet?) hroot, Snippet.keeps_iff language (by simpa [bodyTexts] using hne)⟩
  · have hlines : g.lines ++ rest
        = g.head :: ((g.waiting ++ g.fence :: (g.body ++ [g.close])) ++ rest) := rfl
    rw [hlines, tags_of_opening hopen, (Group.Opens.usage husage).eq, ← htag, Group.run_append,
      hadvance, Output.tags_append, htags]
    rfl
  · exact Prod.ext (congrArg (·.line) hroot) (congrArg (·.column) hroot)

/-- A snippet between two fences that is indented by spaces. -/
def spacedExample : FencedGroup :=
  ⟨⟨1, 1, "@usage"⟩, [], ⟨2, 1, "```ts"⟩, [⟨3, 1, "  a"⟩, ⟨4, 1, ""⟩, ⟨5, 1, "    b"⟩],
    ⟨6, 1, "```"⟩⟩

private theorem opensBehind_spacedExample : spacedExample.OpensBehind {} [] where
  opens := ⟨⟨"usage", ""⟩, by decide, by decide⟩
  waits := by decide
  fenced := ⟨"ts", by decide⟩
  unclosed := by decide
  closes := by decide

/-- Lines that are indented by spaces are kept. -/
theorem keeps_spacedExample : spacedExample.OpensBehind {} [] ∧ spacedExample.body ≠ []
    ∧ ∃ t sn more, (parseLines {} spacedExample.lines).block.tags = t :: more
      ∧ t.snippet? = some sn ∧ sn.Keeps spacedExample.bodyTexts := by
  have hbody : spacedExample.body ≠ [] := List.cons_ne_nil _ _
  obtain ⟨t, sn, more, htags, -, -, hsnippet, hkeeps⟩ :=
    opensBehind_spacedExample.exists_keeps_iff hbody []
  have hspaces : ∀ l ∈ spacedExample.bodyTexts, (leadingBlanks l).all (·.utf8Size == 1) := by
    decide
  have hdedents : Dedents spacedExample.bodyTexts :=
    dedents_of_narrow (by decide) fun l hl c hc =>
      beq_iff_eq.mp (List.all_eq_true.mp (hspaces l hl) c hc)
  exact ⟨opensBehind_spacedExample, hbody, t, sn, more, htags, hsnippet, hkeeps.mpr hdedents⟩

/-- A snippet with a line behind one space and a line behind a blank of three bytes. -/
def wideExample : FencedGroup :=
  ⟨⟨1, 1, "@usage"⟩, [], ⟨2, 1, "```ts"⟩, [⟨3, 1, " a"⟩, ⟨4, 1, "\u3000b"⟩], ⟨5, 1, "```"⟩⟩

/-- A line whose blank is wider than the common indentation is lost. -/
theorem not_keeps_wideExample : wideExample.OpensBehind {} [] ∧ wideExample.body ≠ []
    ∧ (parseLines {} wideExample.lines).block.tags.map Tag.snippet? = [some ⟨"ts", "a\n"⟩]
    ∧ ¬ Snippet.Keeps ⟨"ts", "a\n"⟩ wideExample.bodyTexts :=
  ⟨⟨⟨⟨"usage", ""⟩, by decide, by decide⟩, by decide, ⟨"ts", by decide⟩, by decide, by decide⟩,
    List.cons_ne_nil _ _, by decide +kernel, fun h => absurd h.contents (by decide)⟩

end FencedGroup

end DocContract
