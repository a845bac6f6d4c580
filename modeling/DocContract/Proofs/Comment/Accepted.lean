import DocContract.Proofs.Comment.ReadHeader
import DocContract.Proofs.Comment.WrittenBlock

/-!
# Accepted comments are expressible

A comment that is read without an error and without a warning is a block that the written form can
express. The invariant of the reader says of each group that the part of the tag that has been read
is expressible; a line without defects keeps it.
-/

namespace DocContract

open Text

/-! ### Descriptions that grow -/

namespace Tag

/-- A description that a line is added to stays tidy. -/
theorem extend_eq (t : Tag) (text : Text) :
    ∃ d, t.extend text = { t with description := d }
      ∧ (IsTidy t.description → '\n' ∉ text → IsTidy d) := by
  unfold extend
  split
  · refine ⟨t.description, ?_, fun h _ => h⟩
    cases t
    rfl
  · next c r hr =>
    have htidy : '\n' ∉ text → IsTidy (c :: r) := fun hn => hr ▸ isTidy_trim hn
    split
    · exact ⟨c :: r, rfl, fun _ hn => htidy hn⟩
    · next hne =>
      exact ⟨_, rfl, fun ht hn => ht.join_space (htidy hn) (by simpa using hne) (by simp)⟩

variable {c : Convention}

/-- What a header expresses does not depend on the description as long as that is tidy. -/
theorem expresses_description {kind : TagKind} {t : Tag} {d : Text}
    (h : kind.Expresses t.header) (hd : IsTidy d) :
    kind.Expresses { t with description := d }.header := by
  refine ⟨?_, hd⟩
  have hp := h.places
  cases kind <;> exact hp

private theorem IsField.extend {n : Nat} {t : Tag} (h : t.IsField c n) {text : Text}
    (hn : '\n' ∉ text) : (t.extend text).IsField c n := by
  obtain ⟨hk, hl, hh, hp, hc⟩ := h
  obtain ⟨d, hd, htidy⟩ := t.extend_eq text
  rw [hd]
  exact .intro hk hl ⟨hh.name, hh.type, htidy hh.description hn⟩ hp hc

private theorem IsExpressible.extend {t : Tag} (h : t.IsExpressible c) {text : Text}
    (hn : '\n' ∉ text) : (t.extend text).IsExpressible c := by
  obtain ⟨d, hd, htidy⟩ := t.extend_eq text
  rw [hd]
  exact ⟨h.sigil, h.level, expresses_description h.header (htidy h.header.description hn),
    h.snippet, h.children, h.childless⟩

/-! ### Fields that are added -/

private theorem IsField.graft {n : Nat} {t : Tag} (h : t.IsField c n) {ts : List Tag}
    (hts : ∀ child ∈ ts, child.IsField c (n + 1)) :
    IsField c n { t with children := t.children ++ ts } := by
  obtain ⟨hk, hl, hh, hp, hc⟩ := h
  exact .intro hk hl hh hp (List.forall_mem_append.mpr ⟨hc, hts⟩)

private theorem IsExpressible.graft {t : Tag} (h : t.IsExpressible c) {ts : List Tag}
    (hk : t.kind.acceptsChildren = true) (hts : ∀ child ∈ ts, child.IsField c 1) :
    IsExpressible c { t with children := t.children ++ ts } :=
  ⟨h.sigil, h.level, h.header, h.snippet, List.forall_mem_append.mpr ⟨h.children, hts⟩,
    fun hf => by rw [show t.kind.acceptsChildren = false from hf] at hk; cases hk⟩

end Tag

namespace Branch

/-- Each open field is expressible at its depth, which is the number of fields open so far. -/
def PathExpressible (c : Convention) : List OpenField → Prop
  | [] => True
  | f :: path => f.field.IsField c (path.length + 1) ∧ PathExpressible c path

/-- The part of a tag that has been read is expressible. -/
structure IsExpressible (c : Convention) (b : Branch) : Prop where
  root : b.root.IsExpressible c
  path : PathExpressible c b.path
  accepting : b.path ≠ [] → b.root.kind.acceptsChildren = true

variable {c : Convention}

private theorem isExpressible_nil {root : Tag} (h : root.IsExpressible c) :
    IsExpressible c ⟨root, []⟩ :=
  ⟨h, trivial, fun hne => absurd rfl hne⟩

private theorem pathExpressible_iff {path : List OpenField} :
    PathExpressible c path ↔ PathHolds (Tag.IsField c) path := by
  induction path with
  | nil => rfl
  | cons f path ih => exact and_congr_right' ih

private theorem isExpressible_iff {b : Branch} :
    b.IsExpressible c ↔ b.Holds (Tag.IsExpressible c) (Tag.IsField c) :=
  ⟨fun h => ⟨h.root, pathExpressible_iff.mp h.path, h.accepting⟩,
    fun h => ⟨h.root, pathExpressible_iff.mpr h.path, h.accepting⟩⟩

private theorem grows_isExpressible : Grows (Tag.IsExpressible c) (Tag.IsField c) :=
  ⟨fun h hk hts => h.graft hk hts, fun h hts => h.graft hts⟩

private theorem IsExpressible.upTo (n : Nat) {b : Branch} (h : b.IsExpressible c) :
    (b.upTo n).IsExpressible c :=
  isExpressible_iff.mpr ((isExpressible_iff.mp h).upTo grows_isExpressible n)

/-- The whole tag of an expressible branch. -/
theorem IsExpressible.toTag {b : Branch} (h : b.IsExpressible c) : b.toTag.IsExpressible c :=
  (isExpressible_iff.mp h).toTag grows_isExpressible

private theorem IsExpressible.extend {b : Branch} (h : b.IsExpressible c) {text : Text}
    (hn : '\n' ∉ text) : (b.extend text).IsExpressible c :=
  isExpressible_iff.mpr ((isExpressible_iff.mp h).extend (fun ht => ht.extend hn) fun ht =>
    ht.extend hn)

/-- A nested field with an expressible header goes below the open tag. -/
theorem IsExpressible.push {b : Branch} (h : b.IsExpressible c)
    (hk : b.root.kind.acceptsChildren = true) (n : Nat) {header : Header} (hh : c.Expresses header)
    (line column : Nat) :
    (b.push n ((Tag.ofKind .property line column).withHeader header)).IsExpressible c := by
  have hb := h.upTo n
  refine ⟨hb.root, ⟨?_, hb.path⟩, fun _ => ?_⟩
  · exact .intro rfl rfl hh rfl (by simp [Tag.withHeader, Tag.ofKind])
  · change (b.upTo n).root.kind.acceptsChildren = true
    rw [(sameRoot_upTo n b).kind]
    exact hk

end Branch

/-! ### One line -/

/-- A usage tag whose snippet has not been read yet. -/
structure Tag.AwaitsSnippet (t : Tag) : Prop where
  kind : t.kind = .usage
  level : t.depth = 0
  header : t.kind.Expresses t.header
  snippet : t.snippet? = none
  childless : t.children = []

private theorem Tag.AwaitsSnippet.extend {t : Tag} (h : t.AwaitsSnippet) {text : Text}
    (hn : '\n' ∉ text) : (t.extend text).AwaitsSnippet := by
  obtain ⟨d, hd, htidy⟩ := t.extend_eq text
  rw [hd]
  exact ⟨h.kind, h.level, expresses_description h.header (htidy h.header.description hn), h.snippet,
    h.childless⟩

/-- A usage tag with the snippet that was read. -/
theorem Tag.AwaitsSnippet.isExpressible {c : Convention} {t : Tag} (h : t.AwaitsSnippet)
    {sn : Snippet} (hs : sn.IsWritable) : Tag.IsExpressible c { t with snippet? := some sn } where
  sigil := by simp [h.kind]
  level := h.level
  header := h.header
  snippet := by
    rw [if_pos h.kind]
    exact ⟨sn, rfl, hs⟩
  children := by simp [h.childless]
  childless := fun _ => h.childless

namespace Group

/-- What has been read of the group is expressible. -/
def IsExpressible (c : Convention) : Group → Prop
  | .skip => True
  | .entry branch _ => branch.IsExpressible c
  | .awaitFence tag => tag.AwaitsSnippet
  | .fence tag language body =>
    tag.AwaitsSnippet ∧ IsTidy language ∧ ∀ l ∈ body, '\n' ∉ l ∧ trim l ≠ fenceMark

variable {s : Settings}

/-- The tags that a group hands out at its end are expressible. -/
theorem IsExpressible.finish {c : Convention} {g : Group} (h : g.IsExpressible c) :
    ∀ t ∈ g.finish.tags, t.IsExpressible c := by
  cases g with
  | skip => nofun
  | entry branch swallow =>
    intro t ht
    rw [List.mem_singleton.mp ht]
    exact Branch.IsExpressible.toTag h
  | awaitFence tag => nofun
  | fence tag language body => nofun

/-- A sigil line without a defect opens an expressible group. -/
theorem isExpressible_opened {c : Convention} {sigil : SigilLine} {line column : Nat}
    (hn : '\n' ∉ sigil.rest) : (opened s sigil line column).1.IsExpressible c := by
  generalize h : opened s sigil line column = next
  cases Opens.of_eq h with
  | usage known =>
    have hawait : (Tag.ofKind .usage line column).AwaitsSnippet :=
      ⟨rfl, rfl, ⟨⟨rfl, rfl, rfl⟩, isTidy_nil⟩, rfl, rfl⟩
    exact hawait.extend hn
  | @entry kind header known read =>
    refine Branch.isExpressible_nil ⟨TagKind.ne_brief_of_header? read, rfl,
      TagKind.header?_expresses hn read, ?_, ?_, fun _ => rfl⟩
    · show if kind = .usage then _ else _
      rw [if_neg (TagKind.ne_usage_of_header? read)]
      rfl
    · simp [Tag.withHeader, Tag.ofKind]
  | _ => trivial

/-- A group that is opened gives no tag yet. -/
theorem tags_opened (sigil : SigilLine) (line column : Nat) :
    (opened s sigil line column).2.tags = [] := by
  generalize h : opened s sigil line column = next
  cases Opens.of_eq h <;> rfl

/-- A line opens a group by the sigil that it begins with. -/
theorem opening?_eq_some {g : Group} {l : InteriorLine} {sigil : SigilLine}
    (h : g.opening? l = some sigil) : l.sigil? = some sigil := by
  cases g with
  | fence tag language body => cases h
  | _ =>
    simp only [opening?] at h
    split at h
    · cases h
    · exact h

/-- A nested field is in the configured convention when there is no warning about it. -/
theorem convention_of_fieldWarnings {field : FieldLine} {depth : Nat}
    (h : fieldWarnings s field depth = []) : field.convention = s.markerConvention := by
  unfold fieldWarnings at h
  simp only [List.append_eq_nil_iff] at h
  by_contra hne
  rw [if_neg hne] at h
  exact absurd h.1.2 (by simp)

/-- A line without a defect that opens no group keeps what has been read expressible. -/
theorem isExpressible_continued {g : Group} (hg : g.IsExpressible s.markerConvention)
    {l : InteriorLine} (hn : '\n' ∉ l.text) (he : (continued s l g).2.errors = [])
    (hw : (continued s l g).2.warnings = []) :
    (continued s l g).1.IsExpressible s.markerConvention := by
  generalize h : continued s l g = next at he hw ⊢
  cases Continues.of_eq h with
  | skip => trivial
  | blank _ => exact hg
  | field _ adds read grows =>
    obtain ⟨hk, hf⟩ := fieldOf?_eq_some_iff.mp adds
    have hexpr := FieldLine.parse?_expresses hn hf read
    rw [convention_of_fieldWarnings (List.map_eq_nil_iff.mp hw)] at hexpr
    subst grows
    exact Branch.IsExpressible.push hg hk _ hexpr _ _
  | badField => cases he
  | dropped => exact hg
  | text => exact Branch.IsExpressible.extend hg hn
  | waits => exact Tag.AwaitsSnippet.extend hg hn
  | fence mark =>
    refine ⟨hg, isTidy_trim fun hm => hn ?_, by simp⟩
    exact ((after?_suffix mark).trans (trimStart_suffix l.text)).mem hm
  | code plain =>
    obtain ⟨ht, hlang, hbody⟩ := hg
    exact ⟨ht, hlang, List.forall_mem_cons.mpr ⟨⟨hn, plain⟩, hbody⟩⟩
  | closed _ =>
    obtain ⟨ht, hlang, hbody⟩ := hg
    refine Branch.isExpressible_nil (ht.isExpressible (Snippet.isWritable_dedent hlang ?_ ?_))
    · exact fun t hm => (hbody t (List.mem_reverse.mp hm)).1
    · exact fun t hm => (hbody t (List.mem_reverse.mp hm)).2

/-- A line that goes on with a group gives no tag yet. -/
theorem tags_continued (g : Group) (l : InteriorLine) : (continued s l g).2.tags = [] := by
  generalize h : continued s l g = next
  cases Continues.of_eq h <;> rfl

/-- A line without a defect keeps what has been read expressible. -/
theorem isExpressible_step {g : Group} (hg : g.IsExpressible s.markerConvention) {l : InteriorLine}
    (hn : '\n' ∉ l.text) (he : (step s g l).2.errors = []) (hw : (step s g l).2.warnings = []) :
    (step s g l).1.IsExpressible s.markerConvention
      ∧ ∀ t ∈ (step s g l).2.tags, t.IsExpressible s.markerConvention := by
  cases ho : g.opening? l with
  | some sigil =>
    have hsuffix := (SigilLine.rest_suffix (opening?_eq_some ho)).trans (trimStart_suffix l.text)
    simp only [step, ho]
    refine ⟨isExpressible_opened fun hm => hn (hsuffix.mem hm), ?_⟩
    rw [Output.tags_append, tags_opened, List.append_nil]
    exact hg.finish
  | none =>
    simp only [step, ho] at he hw ⊢
    refine ⟨isExpressible_continued hg hn he hw, ?_⟩
    rw [tags_continued]
    exact List.forall_mem_nil _

/-- The tags of a run without defects are expressible. -/
theorem isExpressible_run {g : Group} (hg : g.IsExpressible s.markerConvention)
    {ls : List InteriorLine} (hn : ∀ l ∈ ls, '\n' ∉ l.text) (he : (run s g ls).errors = [])
    (hw : (run s g ls).warnings = []) :
    ∀ t ∈ (run s g ls).tags, t.IsExpressible s.markerConvention := by
  induction ls generalizing g with
  | nil => exact hg.finish
  | cons l ls ih =>
    obtain ⟨hl, hls⟩ := List.forall_mem_cons.mp hn
    rw [run_cons, Output.errors_append, List.append_eq_nil_iff] at he
    rw [run_cons, Output.warnings_append, List.append_eq_nil_iff] at hw
    obtain ⟨hnext, htags⟩ := isExpressible_step hg hl he.1 hw.1
    rw [run_cons, Output.tags_append]
    exact List.forall_mem_append.mpr ⟨htags, ih hnext hls he.2 hw.2⟩

end Group

/-! ### Paragraphs -/

/-- Blanks behind a sigil line leave it one. -/
theorem IsSigilText.append {t bs : Text} (h : IsSigilText t)
    (hbs : ∀ c ∈ bs.head?, isBlank c = true) : IsSigilText (t ++ bs) := by
  obtain ⟨c, word, rest, rfl, hc, hword, hrest⟩ := h
  refine ⟨c, word, rest ++ bs, by simp, hc, hword, ?_⟩
  cases rest with
  | nil => exact hbs
  | cons x r => exact hrest

/-- A sigil and its name lie in front of the first blank. -/
theorem IsSigilText.of_append {t u : Text} (hne : t ≠ []) (h : IsSigilText (t ++ ' ' :: u)) :
    IsSigilText t := by
  obtain ⟨c, word, rest, heq, hc, hword, hrest⟩ := h
  have hsolid : ' ' ∉ '@' :: c :: word := by
    simp only [List.mem_cons, not_or]
    refine ⟨by decide, ?_, fun hm => ?_⟩
    · rintro rfl
      exact absurd hc (by decide)
    · exact absurd (hword _ hm) (by decide)
  have hsplit : t ++ ' ' :: u = ('@' :: c :: word) ++ rest := heq
  rcases List.append_eq_append_iff.mp hsplit with ⟨v, hv, hu⟩ | ⟨v, rfl, hv⟩
  · -- The blank would belong to the sigil.
    cases v with
    | nil =>
      rw [List.append_nil] at hv
      exact ⟨c, word, [], by rw [List.append_nil, ← hv], hc, hword, by simp⟩
    | cons x v =>
      exfalso
      apply hsolid
      rw [hv, ← (List.cons.inj hu).1]
      simp
  · refine ⟨c, word, v, rfl, hc, hword, fun x hx => hrest x ?_⟩
    cases v with
    | nil => cases hx
    | cons y v =>
      rw [hv]
      exact hx

/-- A line that is no sigil line is none without the blanks around it. -/
theorem not_isSigilText_trim {l : InteriorLine} (hn : '\n' ∉ l.text) (h : l.sigil? = none) :
    ¬ IsSigilText (trim l.text) := by
  intro hs
  obtain ⟨bs, hbs, heq⟩ := exists_trimEnd_append (trimStart l.text)
  have hline : '\n' ∉ trimStart l.text := fun hm => hn (mem_of_mem_trimStart hm)
  refine (SigilLine.parse?_eq_none_iff hline).mp h ?_
  rw [heq]
  exact hs.append fun c hc => hbs c (List.mem_of_mem_head? hc)

/-- The paragraphs of lines that are no sigil lines. -/
theorem isParagraph_paragraphs {ls : List InteriorLine}
    (h : ∀ l ∈ ls, '\n' ∉ l.text ∧ l.sigil? = none) :
    ∀ p ∈ paragraphs ls, IsParagraph p.text := by
  induction ls with
  | nil => nofun
  | cons l ls ih =>
    obtain ⟨⟨hn, hs⟩, hls⟩ := List.forall_mem_cons.mp h
    have hrest := ih hls
    rw [paragraphs_cons]
    split
    · exact hrest
    · next hblank =>
      have hne : trim l.text ≠ [] := by
        rw [ne_eq, trim_eq_nil]
        exact hblank
      have hmark := not_isSigilText_trim hn hs
      have hline : IsParagraph (trim l.text) := ⟨hne, isTidy_trim hn, hmark⟩
      split
      · next next rest p ps hp =>
        rw [hp] at hrest
        obtain ⟨hp, hps⟩ := List.forall_mem_cons.mp hrest
        split
        · exact List.forall_mem_cons.mpr ⟨hline, List.forall_mem_cons.mpr ⟨hp, hps⟩⟩
        · refine List.forall_mem_cons.mpr ⟨⟨by simp, ?_, ?_⟩, hps⟩
          · exact hline.tidy.join_space hp.tidy hne hp.nonempty
          · exact fun hsig => hmark (hsig.of_append hne)
      · exact List.forall_mem_cons.mpr ⟨hline, hrest⟩

/-! ### The whole comment -/

/-- A comment that is read without a defect is expressible in the configured convention. -/
theorem isExpressible_parseLines {s : Settings} {ls : List InteriorLine}
    (hn : ∀ l ∈ ls, '\n' ∉ l.text) (he : (parseLines s ls).errors = [])
    (hw : (parseLines s ls).warnings = []) :
    (parseLines s ls).block.IsExpressible s.markerConvention := by
  have hprose : ∀ p ∈ paragraphs (ls.takeWhile fun l => l.sigil?.isNone), IsParagraph p.text := by
    refine isParagraph_paragraphs fun l hl => ⟨hn l ((List.takeWhile_prefix _).mem hl), ?_⟩
    have hnone := List.mem_takeWhile_imp hl
    exact Option.isNone_iff_eq_none.mp hnone
  have htags : ∀ t ∈ (Group.run s .skip (ls.dropWhile fun l => l.sigil?.isNone)).tags,
      t.IsExpressible s.markerConvention :=
    Group.isExpressible_run (g := .skip) trivial
      (fun l hl => hn l ((List.dropWhile_suffix _).mem hl)) he hw
  unfold parseLines
  dsimp only
  generalize paragraphs (ls.takeWhile fun l => l.sigil?.isNone) = ps at hprose
  generalize Group.run s .skip (ls.dropWhile fun l => l.sigil?.isNone) = out at htags
  cases ps with
  | nil =>
    -- Without a paragraph the first tag is no brief, because no tag with a sigil is one.
    have hbrief : CommentBlock.brief? { asyncMarker := out.asyncMarker, tags := out.tags }
        = none := by
      unfold CommentBlock.brief?
      dsimp only
      split
      · rfl
      · next t ts ht =>
        have := htags t (by rw [ht]; exact List.mem_cons_self)
        rw [if_neg this.sigil]
    refine ⟨?_, ?_, by simp, fun _ => rfl⟩
    · intro t ht
      exact absurd (ht.symm.trans hbrief) (by simp)
    · intro t ht
      simp only [List.head?_nil, Option.toList_none, List.map_nil, List.nil_append,
        List.tail_nil] at ht
      rw [hbrief] at ht
      exact htags t ht
  | cons p ps =>
    obtain ⟨hp, hps⟩ := List.forall_mem_cons.mp hprose
    refine ⟨?_, htags, ?_, fun hnone => by cases hnone⟩
    · rintro t ⟨⟩
      exact ⟨rfl, rfl, ⟨⟨rfl, rfl, rfl⟩, hp.tidy⟩, hp, rfl, rfl⟩
    · intro d hd
      obtain ⟨q, hq, rfl⟩ := List.mem_map.mp hd
      exact hps q hq

private theorem oneLine_textLines {t : Text} : ∀ l ∈ textLines t, '\n' ∉ l.text := by
  have hgo : ∀ n (ls : List Text), (∀ l ∈ ls, '\n' ∉ l) →
      ∀ l ∈ textLines.go n ls, '\n' ∉ l.text := by
    intro n ls
    induction ls generalizing n with
    | nil => intro _; nofun
    | cons l ls ih =>
      intro hls
      obtain ⟨hl, hls⟩ := List.forall_mem_cons.mp hls
      exact List.forall_mem_cons.mpr ⟨fun hm => hl (mem_of_mem_trimEnd hm), ih (n + 1) hls⟩
  exact hgo 1 (lines t) fun l hl => not_mem_of_mem_lines hl

/-- A text that is read without a defect gives an expressible block. -/
theorem isExpressible_parseText {s : Settings} {t : Text} (he : (parseText s t).errors = [])
    (hw : (parseText s t).warnings = []) :
    (parseText s t).block.IsExpressible s.markerConvention := by
  unfold parseText at he hw ⊢
  dsimp only at he hw ⊢
  split at he
  · next hempty =>
    rw [if_pos hempty] at hw ⊢
    exact isExpressible_parseLines oneLine_textLines he hw
  · next hempty =>
    rw [if_neg hempty] at hw ⊢
    obtain ⟨hb, hentries, hd, hu⟩ := isExpressible_parseLines oneLine_textLines he hw
    exact ⟨hb, hentries, hd, hu⟩

end DocContract
