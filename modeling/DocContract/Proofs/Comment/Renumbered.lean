import DocContract.Comment.Parse
import DocContract.Proofs.Comment.Advance
import DocContract.Proofs.Comment.Branch
import DocContract.Proofs.Comment.WrittenBlock

/-!
# Line numbers are carried along

Nothing that is read from a comment depends on the numbers of its lines. They are copied to tags and
defects and never looked at: reading lines with other numbers is reading the lines, with the numbers
put in afterwards.
-/

namespace DocContract

open Text

variable (f : Nat → Nat)

/-! ### Other line numbers -/

/-- The line with another number. -/
def InteriorLine.renumber (l : InteriorLine) : InteriorLine := { l with line := f l.line }

namespace Tag

mutual
/-- The tag and the tags below it with other line numbers. -/
def renumber : Tag → Tag
  | ⟨kind, name?, description, type?, optional, depth, line, column, snippet?, children⟩ =>
    ⟨kind, name?, description, type?, optional, depth, f line, column, snippet?,
      renumberAll children⟩

/-- Tags with other line numbers. -/
def renumberAll : List Tag → List Tag
  | [] => []
  | t :: ts => renumber t :: renumberAll ts
end

private theorem renumberAll_eq_map (ts : List Tag) : renumberAll f ts = ts.map (renumber f) := by
  induction ts with
  | nil => rfl
  | cons t ts ih => rw [renumberAll, ih, List.map_cons]

private theorem renumber_eq (t : Tag) : t.renumber f
    = { t with line := f t.line, children := t.children.map (renumber f) } := by
  cases t
  rw [renumber, renumberAll_eq_map]

mutual
/-- Other line numbers are lost with the places. -/
theorem unplaced_renumber : ∀ t : Tag, (t.renumber f).unplaced = t.unplaced
  | ⟨_, _, _, _, _, _, _, _, _, children⟩ => by
    rw [renumber, unplaced, unplaced, unplacedAll_renumber children]

private theorem unplacedAll_renumber :
    ∀ ts : List Tag, unplacedAll (renumberAll f ts) = unplacedAll ts
  | [] => rfl
  | t :: ts => by
    rw [renumberAll, unplacedAll, unplacedAll, unplaced_renumber t, unplacedAll_renumber ts]
end

end Tag

/-- An open field with other line numbers. -/
def OpenField.renumber (o : OpenField) : OpenField := { o with field := o.field.renumber f }

/-- A branch with other line numbers. -/
def Branch.renumber (b : Branch) : Branch :=
  ⟨b.root.renumber f, b.path.map (OpenField.renumber f)⟩

/-- A group with other line numbers. -/
def Group.renumber : Group → Group
  | .skip => .skip
  | .entry branch swallow => .entry (branch.renumber f) swallow
  | .awaitFence tag => .awaitFence (tag.renumber f)
  | .fence tag language body => .fence (tag.renumber f) language body

/-- A finding with another line number. -/
def Located.renumber {α : Type} (x : Located α) : Located α := { x with line := f x.line }

/-- An output with other line numbers. -/
def Output.renumber (o : Output) : Output :=
  ⟨o.asyncMarker, o.tags.map (Tag.renumber f), o.errors.map (Located.renumber f),
    o.warnings.map (Located.renumber f)⟩

/-- A paragraph with another line number. -/
def Paragraph.renumber (p : Paragraph) : Paragraph := { p with line := f p.line }

/-- A comment with other line numbers in its tags and defects. -/
def ParsedComment.renumber (p : ParsedComment) : ParsedComment :=
  ⟨{ p.block with tags := p.block.tags.map (Tag.renumber f) },
    p.errors.map (Located.renumber f), p.warnings.map (Located.renumber f)⟩

private theorem Output.renumber_append (a b : Output) :
    (a ++ b).renumber f = a.renumber f ++ b.renumber f := by
  change Output.mk _ _ _ _ = Output.mk _ _ _ _
  simp only [tags_append, errors_append, warnings_append, List.map_append]
  rfl

/-! ### Tags and branches -/

private theorem Tag.renumber_extend (t : Tag) (text : Text) :
    (t.extend text).renumber f = (t.renumber f).extend text := by
  have hdescription : (t.renumber f).description = t.description := by rw [renumber_eq]
  unfold extend
  rw [hdescription]
  split
  · rfl
  · by_cases hd : t.description.isEmpty = true
    · rw [if_pos hd, if_pos hd, renumber_eq, renumber_eq]
    · rw [if_neg hd, if_neg hd, renumber_eq, renumber_eq]

private theorem Tag.renumber_addChildren (t : Tag) (ts : List Tag) :
    Tag.renumber f { t with children := t.children ++ ts }
      = { t.renumber f with children := (t.renumber f).children ++ ts.map (Tag.renumber f) } := by
  simp only [Tag.renumber_eq, List.map_append]

namespace Branch

private theorem renumber_graft (b : Branch) (ts : List Tag) :
    (b.graft ts).renumber f = (b.renumber f).graft (ts.map (Tag.renumber f)) := by
  obtain ⟨root, path⟩ := b
  cases path with
  | nil => simp only [graft, renumber, List.map_nil, Tag.renumber_addChildren]
  | cons o path =>
    simp only [graft, renumber, List.map_cons, OpenField.renumber, Tag.renumber_addChildren]

private theorem renumber_upTo (n : Nat) (b : Branch) :
    (b.upTo n).renumber f = (b.renumber f).upTo n := by
  induction b using closing_induction with
  | nil root => simp only [upTo_nil, renumber, List.map_nil]
  | cons root o path ih =>
    rw [upTo_cons]
    have hform : renumber f ⟨root, o :: path⟩
        = ⟨root.renumber f, o.renumber f :: path.map (OpenField.renumber f)⟩ := rfl
    rw [hform, upTo_cons]
    have hindent : (o.renumber f).indent = o.indent := rfl
    rw [hindent]
    split
    · rw [ih, renumber_graft]
      rfl
    · rfl

private theorem renumber_toTag (b : Branch) : b.toTag.renumber f = (b.renumber f).toTag := by
  induction b using closing_induction with
  | nil root => simp only [toTag_nil, renumber, List.map_nil]
  | cons root o path ih =>
    have hform : renumber f ⟨root, o :: path⟩
        = ⟨root.renumber f, o.renumber f :: path.map (OpenField.renumber f)⟩ := rfl
    rw [toTag_cons, ih, hform, toTag_cons, renumber_graft]
    rfl

private theorem renumber_extend (b : Branch) (text : Text) :
    (b.extend text).renumber f = (b.renumber f).extend text := by
  obtain ⟨root, path⟩ := b
  cases path with
  | nil => simp only [extend, renumber, List.map_nil, Tag.renumber_extend]
  | cons o path =>
    simp only [extend, renumber, List.map_cons, OpenField.renumber, Tag.renumber_extend]

private theorem renumber_push (b : Branch) (n : Nat) (t : Tag) :
    (b.push n t).renumber f = (b.renumber f).push n (t.renumber f) := by
  have hdepth : ((b.upTo n).renumber f).path.length = (b.upTo n).path.length :=
    List.length_map _
  rw [push_eq, push_eq, ← renumber_upTo, hdepth, Tag.renumber_eq f t]
  simp only [renumber, List.map_cons, OpenField.renumber, Tag.renumber_eq]

end Branch

/-! ### Groups -/

namespace Group

private theorem renumber_finish (g : Group) : (g.renumber f).finish = g.finish.renumber f := by
  cases g with
  | skip => rfl
  | entry branch swallow =>
    simp only [renumber, finish, Output.renumber, List.map_cons, List.map_nil,
      Branch.renumber_toTag]
  | awaitFence tag =>
    rw [renumber, finish, Tag.renumber_eq]
    rfl
  | fence tag language body =>
    rw [renumber, finish, Tag.renumber_eq]
    rfl

private theorem opening?_renumber (g : Group) (l : InteriorLine) :
    (g.renumber f).opening? (l.renumber f) = g.opening? l := by
  cases g with
  | entry branch swallow =>
    have hcolumn : (branch.renumber f).root.column = branch.root.column := by
      rw [Branch.renumber, Tag.renumber_eq]
    simp only [renumber, opening?, nests, hcolumn]
    rfl
  | _ => rfl

variable (s : Settings)

private theorem opened_renumber (sigil : SigilLine) (line column : Nat) :
    opened s sigil (f line) column
      = ((opened s sigil line column).1.renumber f, (opened s sigil line column).2.renumber f) := by
  generalize h : opened s sigil line column = next
  cases Opens.of_eq h with
  | marker marker => exact (Opens.marker marker).eq
  | extra plain unknown extra => exact (Opens.extra plain unknown extra).eq
  | unknown plain unknown strange => exact (Opens.unknown plain unknown strange).eq
  | usage known =>
    rw [renumber, Tag.renumber_extend]
    exact (Opens.usage known).eq
  | entry known read => exact (Opens.entry known read).eq
  | badHeader known other unread => exact (Opens.badHeader known other unread).eq

private theorem fieldOf?_renumber (branch : Branch) (l : InteriorLine) :
    fieldOf? (branch.renumber f) (l.renumber f) = fieldOf? branch l := by
  rw [fieldOf?, fieldOf?, Branch.renumber, Tag.renumber_eq]
  rfl

private theorem continued_renumber (g : Group) (l : InteriorLine) :
    continued s (l.renumber f) (g.renumber f)
      = ((continued s l g).1.renumber f, (continued s l g).2.renumber f) := by
  have hadds := fun branch => fieldOf?_renumber f branch l
  generalize h : continued s l g = next
  cases Continues.of_eq h with
  | skip => rfl
  | blank blank => exact (Continues.blank (l := l.renumber f) blank).eq
  | @field branch grown swallow field header solid adds read grows =>
    have hdepth : (grown.renumber f).depth = grown.depth := List.length_map _
    have hgrows := congrArg (Branch.renumber f) grows
    rw [Branch.renumber_push] at hgrows
    have hfield : continued s (l.renumber f) (.entry (branch.renumber f) swallow) = _ :=
      (Continues.field (l := l.renumber f) solid ((hadds branch).trans adds) read hgrows).eq
    rw [hdepth] at hfield
    simp only [Output.renumber, List.map_map]
    exact hfield
  | badField solid adds unread =>
    exact (Continues.badField (l := l.renumber f) solid ((hadds _).trans adds) unread).eq
  | dropped solid plain =>
    exact (Continues.dropped (l := l.renumber f) solid ((hadds _).trans plain)).eq
  | text solid plain =>
    rw [renumber, renumber, Branch.renumber_extend]
    exact (Continues.text (l := l.renumber f) solid ((hadds _).trans plain)).eq
  | waits plain =>
    rw [renumber, renumber, Tag.renumber_extend]
    exact (Continues.waits (l := l.renumber f) plain).eq
  | fence mark => exact (Continues.fence (l := l.renumber f) mark).eq
  | code plain => exact (Continues.code (l := l.renumber f) plain).eq
  | closed mark =>
    rw [renumber, renumber, Branch.renumber, Tag.renumber_eq, Tag.renumber_eq]
    exact (Continues.closed (l := l.renumber f) mark).eq

private theorem step_renumber (g : Group) (l : InteriorLine) :
    step s (g.renumber f) (l.renumber f)
      = ((step s g l).1.renumber f, (step s g l).2.renumber f) := by
  rw [step, step, opening?_renumber]
  cases g.opening? l with
  | none => exact continued_renumber f s g l
  | some sigil =>
    have hopened := opened_renumber f s sigil l.line l.contentColumn
    have hline : (l.renumber f).line = f l.line := rfl
    have hcolumn : (l.renumber f).contentColumn = l.contentColumn := rfl
    simp only [hline, hcolumn, hopened, renumber_finish, Output.renumber_append]

private theorem run_renumber (g : Group) (ls : List InteriorLine) :
    run s (g.renumber f) (ls.map (InteriorLine.renumber f)) = (run s g ls).renumber f := by
  induction ls generalizing g with
  | nil => exact renumber_finish f g
  | cons l ls ih =>
    rw [List.map_cons, run_cons, step_renumber, ih, run_cons, Output.renumber_append]

end Group

/-! ### Comments -/

private theorem paragraphs_renumber (ls : List InteriorLine) :
    paragraphs (ls.map (InteriorLine.renumber f)) = (paragraphs ls).map (Paragraph.renumber f) := by
  induction ls with
  | nil => rfl
  | cons l ls ih =>
    have hblank : ∀ l : InteriorLine, (l.renumber f).isBlank = l.isBlank := fun _ => rfl
    rw [List.map_cons, paragraphs_cons, paragraphs_cons, hblank, ih]
    by_cases hb : l.isBlank = true
    · rw [if_pos hb, if_pos hb]
    rw [if_neg hb, if_neg hb]
    cases ls with
    | nil => rfl
    | cons next rest =>
      rw [List.map_cons]
      cases paragraphs (next :: rest) with
      | nil => rfl
      | cons p ps =>
        simp only [List.map_cons, hblank]
        split <;> rfl

/-- Lines with other numbers are read like the lines, with the numbers put in afterwards. -/
theorem parseLines_renumber (s : Settings) (ls : List InteriorLine) :
    parseLines s (ls.map (InteriorLine.renumber f)) = (parseLines s ls).renumber f := by
  have hsigil : (fun l : InteriorLine => l.sigil?.isNone) ∘ InteriorLine.renumber f
      = fun l => l.sigil?.isNone := rfl
  have hbrief : ∀ p : Paragraph, (p.renumber f).toBrief = p.toBrief.renumber f := fun _ => rfl
  unfold parseLines
  rw [List.takeWhile_map, List.dropWhile_map, hsigil, paragraphs_renumber]
  have hrun := Group.run_renumber f s .skip (ls.dropWhile fun l => l.sigil?.isNone)
  rw [Group.renumber] at hrun
  rw [hrun]
  cases paragraphs (ls.takeWhile fun l => l.sigil?.isNone) with
  | nil => rfl
  | cons p ps =>
    have htext : Paragraph.text ∘ Paragraph.renumber f = Paragraph.text := rfl
    simp only [ParsedComment.renumber, Output.renumber, List.map_cons, List.tail_cons,
      List.map_map, htext, List.head?_cons, Option.toList_some, List.map_append, List.map_nil,
      hbrief]

end DocContract
