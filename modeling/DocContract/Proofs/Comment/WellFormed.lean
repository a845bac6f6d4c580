import DocContract.Proofs.Comment.Indented
import DocContract.Proofs.Comment.InOrder

/-!
# Well-formed trees and the account of the groups

Whatever is read from lines has the shape of its kind and stands in the order of the lines. And no
group is lost: a group holds what it will give, one tag or one error, until it is ended, and no
other line gives anything for it. So each sigil that opens a group is accounted for once.
-/

namespace DocContract

open Text

/-! ### What stands at a place -/

variable {p : Nat → Nat → Bool}

/-- The number of tags and errors at certain places. -/
def Output.countAt (p : Nat → Nat → Bool) (o : Output) : Nat :=
  o.tags.countP (fun t => p t.line t.column) + o.errors.countP fun e => p e.line e.column

private theorem Output.countAt_append (a b : Output) :
    (a ++ b).countAt p = a.countAt p + b.countAt p := by
  simp only [countAt, tags_append, errors_append, List.countP_append]
  omega

private theorem Output.countAt_ofError (line column : Nat) (e : ParseError) :
    (ofError line column e).countAt p = if p line column then 1 else 0 := by
  simp [countAt, ofError, List.countP_cons]

namespace Group

variable {s : Settings}

/-- A group gives one tag or one error at its place. -/
theorem countAt_finish (g : Group) :
    g.finish.countAt p = g.place?.toList.countP fun place => p place.1 place.2 := by
  cases g with
  | skip => rfl
  | entry branch swallow =>
    have hline : branch.toTag.line = branch.root.line := congrArg Prod.fst branch.place_toTag
    have hcolumn : branch.toTag.column = branch.root.column :=
      congrArg Prod.snd branch.place_toTag
    simp [finish, place?, Output.countAt, Tag.place, List.countP_cons, hline, hcolumn]
  | awaitFence tag => simp [finish, place?, Output.countAt_ofError, Tag.place, List.countP_cons]
  | fence tag language body =>
    simp [finish, place?, Output.countAt_ofError, Tag.place, List.countP_cons]

/-- A line that opens no group gives at most an error on its own line. -/
theorem countAt_continued {l : InteriorLine} (hl : ∀ column, p l.line column = false) (g : Group) :
    (continued s l g).2.countAt p = 0 := by
  generalize h : continued s l g = next
  cases Continues.of_eq h with
  | badField => rw [Output.countAt_ofError, hl, if_neg Bool.false_ne_true]
  | _ => rfl

/-- A sigil that opens a group gives one tag or one error at its place, in the end, unless it is the
asynchronous marker or passed over. -/
theorem countAt_opened (p : Nat → Nat → Bool) (sigil : SigilLine) (line column : Nat) :
    (opened s sigil line column).2.countAt p + (opened s sigil line column).1.finish.countAt p
      = if p line column && sigil.tag != "async" && !s.ignores sigil.tag then 1 else 0 := by
  have hmarker {kind : TagKind} (known : TagKind.ofSigil? sigil.tag = some kind) :
      (sigil.tag != "async") = true := bne_iff_ne.mpr (ne_async_of_ofSigil? known)
  generalize h : opened s sigil line column = next
  unfold Settings.ignores
  cases Opens.of_eq h with
  | marker marker => simp [marker, finish, Output.countAt]
  | extra plain unknown extra => simp [unknown, extra, finish, Output.countAt]
  | unknown plain unknown strange =>
    rw [Output.countAt_ofError, bne_iff_ne.mpr plain]
    simp [strange, finish, Output.countAt]
  | usage known =>
    rw [countAt_finish, place?, Tag.place_extend, hmarker known]
    simp [known, Output.countAt, Tag.place, Tag.ofKind, List.countP_cons]
  | entry known read =>
    rw [countAt_finish, place?, hmarker known]
    simp [known, Output.countAt, Tag.place, Tag.withHeader, Tag.ofKind, List.countP_cons]
  | badHeader known other unread =>
    rw [Output.countAt_ofError, hmarker known]
    simp [known, finish, Output.countAt]

/-- What a line gives out and what its group will give are, at the places of other lines, what the
group would have given. -/
theorem countAt_step {l : InteriorLine} (hl : ∀ column, p l.line column = false) (g : Group) :
    (step s g l).2.countAt p + (step s g l).1.finish.countAt p = g.finish.countAt p := by
  unfold step
  split
  · next sigil _ =>
    have hopened := countAt_opened (s := s) p sigil l.line l.contentColumn
    simp only [hl, Bool.false_and, Bool.false_eq_true, if_false] at hopened
    simp only [Output.countAt_append]
    omega
  · rw [countAt_continued hl, countAt_finish, place?_continued, countAt_finish, Nat.zero_add]

private theorem countAt_run {ls : List InteriorLine}
    (hls : ∀ l ∈ ls, ∀ column, p l.line column = false)
    (g : Group) : (run s g ls).countAt p = g.finish.countAt p := by
  induction ls generalizing g with
  | nil => rfl
  | cons l ls ih =>
    obtain ⟨hl, hrest⟩ := List.forall_mem_cons.mp hls
    rw [run_cons, Output.countAt_append, ih hrest, countAt_step hl]

end Group

/-! ### Groups of a comment -/

section Accounts

variable {s : Settings} {as rest : List InteriorLine} {l : InteriorLine} {sigil : SigilLine}

/-- The tags and the errors of a comment at certain places. -/
def ParsedComment.countAt (p : Nat → Nat → Bool) (c : ParsedComment) : Nat :=
  c.block.tags.countP (fun t => p t.line t.column) + c.errors.countP fun e => p e.line e.column

/-- The brief stands on none of the lines of the groups. -/
theorem countAt_parseLines {ls : List InteriorLine}
    (hprose : ∀ l ∈ ls.takeWhile (fun l => l.sigil?.isNone), ∀ column, p l.line column = false) :
    (parseLines s ls).countAt p = (Group.run s .skip (groupLines ls)).countAt p := by
  obtain ⟨brief, entries, htags, hentries, hbrief, -⟩ := tags_parseLines s ls
  have hnone : brief.countP (fun t => p t.line t.column) = 0 := by
    rw [List.countP_eq_zero, hbrief]
    intro t ht
    obtain ⟨paragraph, hp, rfl⟩ := List.mem_map.mp ht
    have hline := (paragraph_of_mem (List.mem_of_mem_head? (Option.mem_toList.mp hp))).2
    obtain ⟨m, hm, hmline⟩ := List.mem_map.mp hline
    have hfalse := hprose m hm paragraph.column
    rw [hmline] at hfalse
    exact Bool.eq_false_iff.mp hfalse
  rw [ParsedComment.countAt, htags, List.countP_append, hnone, Nat.zero_add, hentries]
  rfl

/-- One tag or one error comes of a sigil that opens a group, at its place, and nothing at all there
if it is the asynchronous marker or passed over. -/
theorem countAt_opening (hopen : (leftOpen s as).opening? l = some sigil)
    (hothers : ∀ m ∈ as ++ rest, ∀ column, p m.line column = false) :
    (parseLines s (as ++ l :: rest)).countAt p
      = if p l.line l.contentColumn && sigil.tag != "async" && !s.ignores sigil.tag then 1
        else 0 := by
  have hsigil : l.sigil?.isNone = false := by rw [Group.opening?_eq_some hopen]; rfl
  have hprose : (as ++ l :: rest).takeWhile (fun l => l.sigil?.isNone)
      = as.takeWhile fun l => l.sigil?.isNone :=
    takeWhile_append_stop as (by rintro m ⟨⟩; exact hsigil)
  have hfront : ∀ m ∈ as, ∀ column, p m.line column = false :=
    fun m hm => hothers m (List.mem_append_left _ hm)
  have has : (Group.run s .skip (groupLines as)).countAt p = 0 :=
    Group.countAt_run (fun m hm => hfront m ((List.dropWhile_suffix _).mem hm)) .skip
  rw [countAt_parseLines, run_of_opening hopen, Output.countAt_append, has,
    Output.countAt_append, Group.countAt_run fun m hm => hothers m (List.mem_append_right _ hm),
    Nat.zero_add, Group.countAt_opened]
  rw [hprose]
  exact fun m hm => hfront m ((List.takeWhile_prefix _).mem hm)

/-- The sigil of a line is accounted for by just one of these: a tag on the line, an error at its
place, the asynchronous marker, or an extra tag. -/
structure ParsedComment.Accounts (c : ParsedComment) (s : Settings) (l : InteriorLine)
    (sigil : SigilLine) : Prop where
  once : c.block.tags.countP (fun t => t.line = l.line)
      + c.errors.countP (fun e => e.line = l.line ∧ e.column = l.contentColumn)
      + (if sigil.tag = "async" then 1 else 0) + (if s.ignores sigil.tag then 1 else 0) = 1
  marker : sigil.tag = "async" → c.block.asyncMarker = true

/-- A sigil is the asynchronous marker, or passed over, or neither of the two. -/
theorem one_eq_sum_of_sigil (s : Settings) (sigil : SigilLine) :
    (if sigil.tag != "async" && !s.ignores sigil.tag then 1 else 0)
      + (if sigil.tag = "async" then 1 else 0) + (if s.ignores sigil.tag then 1 else 0) = 1 := by
  by_cases hasync : sigil.tag = "async"
  · have hkept : s.ignores sigil.tag = false := by simp [Settings.ignores, hasync]
    rw [hkept, if_pos hasync, hasync]
    rfl
  · rw [bne_iff_ne.mpr hasync, if_neg hasync]
    cases s.ignores sigil.tag <;> rfl

/-- No other line bears on what becomes of a sigil that opens a group. -/
theorem accounts_parseLines (hopen : (leftOpen s as).opening? l = some sigil)
    (hothers : ∀ m ∈ as ++ rest, m.line ≠ l.line) :
    (parseLines s (as ++ l :: rest)).Accounts s l sigil := by
  have hmarker : sigil.tag = "async" →
      (parseLines s (as ++ l :: rest)).block.asyncMarker = true := by
    intro hasync
    change (Group.run s .skip (groupLines (as ++ l :: rest))).asyncMarker = true
    rw [run_of_opening hopen, Group.opened, if_pos hasync]
    simp
  -- By its line and by its place the same is found, as each line has its number to itself.
  have hline := countAt_opening (p := fun line _ => line = l.line) hopen fun m hm _ =>
    decide_eq_false (hothers m hm)
  have hplace := countAt_opening (p := fun line column => line = l.line ∧ column = l.contentColumn)
    hopen fun m hm _ => decide_eq_false fun h => hothers m hm h.1
  generalize parseLines s (as ++ l :: rest) = c at hline hplace hmarker
  refine ⟨?_, hmarker⟩
  have htags : c.block.tags.countP (fun t => t.line = l.line ∧ t.column = l.contentColumn)
      ≤ c.block.tags.countP fun t => t.line = l.line :=
    List.countP_mono_left fun t _ h => decide_eq_true (of_decide_eq_true h).1
  have herrors : c.errors.countP (fun e => e.line = l.line ∧ e.column = l.contentColumn)
      ≤ c.errors.countP fun e => e.line = l.line :=
    List.countP_mono_left fun e _ h => decide_eq_true (of_decide_eq_true h).1
  have hsum := one_eq_sum_of_sigil s sigil
  simp only [ParsedComment.countAt, decide_true, Bool.true_and, and_self] at hline hplace
  omega

end Accounts

/-! ### Trees of the right shape -/

/-- The tags of a block and the fields below them: a brief comes first and has a text, fields lie
below parameters, properties and results and are properties with a name, a snippet belongs to each
usage tag and to no other, and each entry stands on a later line than those in front of it. -/
structure CommentBlock.IsWellFormed (b : CommentBlock) : Prop where
  brief : ∀ t ∈ b.tags.tail, t.kind ≠ .brief
  described : ∀ t ∈ b.tags, t.kind = .brief → t.description ≠ []
  accepting : ∀ t ∈ Tag.nestedAll b.tags, t.children ≠ [] →
    t.kind = .param ∨ t.kind = .property ∨ t.kind = .return
  fields : ∀ t ∈ b.tags.flatMap Tag.nested,
    t.kind = .property ∧ ∃ name, t.name? = some name ∧ Header.isName name = true
  snippet : ∀ t ∈ Tag.nestedAll b.tags, t.snippet?.isSome = true ↔ t.kind = .usage
  ordered : (Tag.nestedAll b.tags).Pairwise fun t u => t.line < u.line

namespace Tag

private theorem mem_nestedAll {ts : List Tag} {t : Tag} :
    t ∈ nestedAll ts ↔ t ∈ ts ∨ t ∈ ts.flatMap nested := by
  induction ts with
  | nil => simp [nestedAll]
  | cons c ts ih =>
    simp only [nestedAll, List.mem_cons, List.mem_append, ih, List.flatMap_cons]
    tauto

private theorem forall_mem_nestedAll {holds : Tag → Prop} {ts : List Tag}
    (h : ∀ t ∈ ts, holds t ∧ ∀ f ∈ t.nested, holds f) : ∀ f ∈ nestedAll ts, holds f := by
  intro f hf
  rcases mem_nestedAll.mp hf with hf | hf
  · exact (h f hf).1
  · obtain ⟨t, ht, hf⟩ := List.mem_flatMap.mp hf
    exact (h t ht).2 f hf

/-- The fields below a nested field are nested fields too. -/
theorem IsNested.forall_mem_nested {depth : Nat} {t : Tag} (h : t.IsNested depth) :
    ∀ f ∈ t.nested, ∃ depth, f.IsNested depth := by
  induction h with
  | intro _ _ _ _ children ih =>
    rw [nested_eq]
    exact forall_mem_nestedAll fun c hc => ⟨⟨_, children c hc⟩, ih c hc⟩

private theorem IsEntry.forall_mem_nested {t : Tag} (h : t.IsEntry) :
    ∀ f ∈ t.nested, ∃ depth, f.IsNested depth := by
  rw [nested_eq]
  exact forall_mem_nestedAll fun c hc => ⟨⟨_, h.children c hc⟩, (h.children c hc).forall_mem_nested⟩

/-- What a brief is: a text and nothing else. -/
structure IsProse (t : Tag) : Prop where
  kind : t.kind = .brief
  described : t.description ≠ []
  childless : t.children = []
  plain : t.snippet? = none

/-- Fields lie below the kinds of entries that accept them. -/
theorem IsEntry.accepting {t : Tag} (h : t.IsEntry) (hne : t.children ≠ []) :
    t.kind = .param ∨ t.kind = .property ∨ t.kind = .return := by
  have hk : t.kind.acceptsChildren = true := by
    by_contra hk
    exact hne (h.childless (Bool.eq_false_iff.mpr hk))
  revert hk
  cases t.kind <;> decide

end Tag

section Shape

variable (s : Settings) (ls : List InteriorLine)

/-- All tags but the first are entries, and the first is an entry or a brief. -/
theorem brief_or_isEntry_parseLines : (∀ t ∈ (parseLines s ls).block.tags.tail, t.IsEntry)
    ∧ ∀ t ∈ (parseLines s ls).block.tags, t.IsProse ∨ t.IsEntry := by
  obtain ⟨brief, entries, htags, -, hbrief, hentries⟩ := tags_parseLines s ls
  rw [htags]
  cases hp : (paragraphs (ls.takeWhile fun l => l.sigil?.isNone)).head? with
  | none =>
    rw [hp] at hbrief
    obtain rfl : brief = [] := hbrief
    exact ⟨fun t ht => hentries t (List.mem_of_mem_tail ht), fun t ht => .inr (hentries t ht)⟩
  | some p =>
    rw [hp] at hbrief
    obtain rfl : brief = [p.toBrief] := hbrief
    have hfirst : p.toBrief.IsProse :=
      ⟨rfl, (paragraph_of_mem (List.mem_of_mem_head? hp)).1, rfl, rfl⟩
    exact ⟨hentries, List.forall_mem_cons.mpr ⟨.inl hfirst, fun t ht => .inr (hentries t ht)⟩⟩

/-- The fields below all tags are nested fields. -/
theorem isNested_parseLines :
    ∀ f ∈ (parseLines s ls).block.tags.flatMap Tag.nested, ∃ depth, f.IsNested depth := by
  intro f hf
  obtain ⟨t, ht, hf⟩ := List.mem_flatMap.mp hf
  rcases (brief_or_isEntry_parseLines s ls).2 t ht with hbrief | hentry
  · rw [Tag.nested_eq, hbrief.childless] at hf
    cases hf
  · exact hentry.forall_mem_nested f hf

private theorem isWellFormed_parseLines {ls : List InteriorLine}
    (hls : ls.Pairwise fun l m => l.line < m.line) : (parseLines s ls).block.IsWellFormed := by
  obtain ⟨htail, htags⟩ := brief_or_isEntry_parseLines s ls
  have hfields := isNested_parseLines s ls
  refine ⟨fun t ht => (htail t ht).sigil, fun t ht hk => ?_, fun t ht hne => ?_, fun f hf => ?_,
    fun t ht => ?_, ?_⟩
  · rcases htags t ht with hbrief | hentry
    · exact hbrief.described
    · exact absurd hk hentry.sigil
  · rcases Tag.mem_nestedAll.mp ht with ht | ht
    · rcases htags t ht with hbrief | hentry
      · exact absurd hbrief.childless hne
      · exact hentry.accepting hne
    · obtain ⟨depth, ⟨hkind, -, -, -, -⟩⟩ := hfields t ht
      exact .inr (.inl hkind)
  · obtain ⟨depth, ⟨hkind, -, hname, -, -⟩⟩ := hfields f hf
    exact ⟨hkind, hname⟩
  · rcases Tag.mem_nestedAll.mp ht with ht | ht
    · rcases htags t ht with hbrief | hentry
      · simp [hbrief.kind, hbrief.plain]
      · exact hentry.snippet
    · obtain ⟨depth, ⟨hkind, -, -, hplain, -⟩⟩ := hfields t ht
      simp [hkind, hplain]
  · have hlines := (List.pairwise_map.mpr hls).sublist (lines_parseLines s ls)
    exact List.pairwise_map.mp hlines

end Shape

/-! ### Whole comments -/

/-- From lines with increasing numbers a well-formed tree is read: the brief is first and not empty,
only parameters, properties and results have fields, which are named properties, the usage tags are
those with a snippet, and the entries stand on increasing lines, each in front of those below it.
And each sigil that opens a group is accounted for by exactly one of a tag on its line, an error at
its place, the asynchronous marker, which is then set, and an extra tag, which is passed over. -/
theorem parseLines_wellFormed (s : Settings) {ls : List InteriorLine}
    (hls : ls.Pairwise fun l m => l.line < m.line) :
    (parseLines s ls).block.IsWellFormed
      ∧ ∀ as l rest sigil, ls = as ++ l :: rest → (leftOpen s as).opening? l = some sigil →
        (parseLines s ls).Accounts s l sigil := by
  refine ⟨isWellFormed_parseLines s hls, ?_⟩
  rintro as l rest sigil rfl hopen
  obtain ⟨-, hrest, hfront⟩ := List.pairwise_append.mp hls
  refine accounts_parseLines hopen (List.forall_mem_append.mpr ⟨fun m hm => ?_, fun m hm => ?_⟩)
  · exact Nat.ne_of_lt (hfront m hm l List.mem_cons_self)
  · exact Nat.ne_of_gt ((List.pairwise_cons.mp hrest).1 m hm)

/-- A comment with a group of each kind. -/
def groupsInFront : List InteriorLine :=
  [⟨1, 1, "Adds."⟩, ⟨2, 1, "@async"⟩, ⟨3, 1, "@param a - one"⟩, ⟨4, 1, "  - x - two"⟩,
    ⟨6, 1, "@foo bar"⟩, ⟨7, 1, "@example"⟩, ⟨9, 1, "@usage"⟩, ⟨10, 1, "```js"⟩, ⟨11, 1, "f()"⟩,
    ⟨12, 1, "```"⟩]

/-- The same comment with one more group, a usage tag without a fence. -/
def groupsExample : List InteriorLine :=
  groupsInFront ++ ⟨13, 1, "@usage"⟩ :: [⟨14, 1, "none"⟩]

/-- The last usage tag is accounted for by an error, and the groups in front of it by two tags, an
error, the asynchronous marker and an extra tag. -/
theorem parseLines_wellFormed_groupsExample :
    groupsExample.Pairwise (fun l m => l.line < m.line)
      ∧ (leftOpen {} groupsInFront).opening? ⟨13, 1, "@usage"⟩ = some ⟨"usage", []⟩
      ∧ (parseLines {} groupsExample).block.IsWellFormed
      ∧ (parseLines {} groupsExample).Accounts {} ⟨13, 1, "@usage"⟩ ⟨"usage", []⟩
      ∧ (parseLines {} groupsExample).block.tags.map Tag.line = [1, 3, 9]
      ∧ (parseLines {} groupsExample).errors.map (fun e => (e.line, e.column))
        = [(6, 1), (13, 1)]
      ∧ ({} : Settings).ignores "example" = true := by
  have hls : groupsExample.Pairwise fun l m => l.line < m.line := by decide
  have hopen : (leftOpen {} groupsInFront).opening? ⟨13, 1, "@usage"⟩ = some ⟨"usage", []⟩ := by
    decide +kernel
  obtain ⟨hshape, haccounts⟩ := parseLines_wellFormed {} hls
  exact ⟨hls, hopen, hshape, haccounts groupsInFront _ _ _ rfl hopen, by decide +kernel,
    by decide +kernel, by decide⟩

end DocContract
