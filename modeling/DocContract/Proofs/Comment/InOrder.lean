import DocContract.Proofs.Comment.Entry
import DocContract.Proofs.Comment.Location

/-!
# Trees in the order of the lines

A line gives at most one entry of the tree, the entries come in the order of their lines, and the
brief comes before all of them. So what is read from lines with increasing numbers is a tree with
increasing numbers, each entry in front of those below it.
-/

namespace DocContract

open Text

/-! ### Lines of entries -/

/-- The lines of a tag and of the fields below it. -/
def Tag.lines (t : Tag) : List Nat := t.line :: t.bareFields.map Tag.line

private theorem Tag.lines_nestedAll (ts : List Tag) :
    (nestedAll ts).map Tag.line = ts.flatMap lines := by
  induction ts with
  | nil => rfl
  | cons t ts ih =>
    have hfields : t.bareFields.map Tag.line = t.nested.map Tag.line := by
      rw [bareFields, List.map_map]
      rfl
    rw [nestedAll, List.map_cons, List.map_append, ih, List.flatMap_cons, lines, hfields]
    rfl

/-- Text that is added to a tag leaves its place. -/
theorem Tag.place_extend (t : Tag) (text : Text) : (t.extend text).place = t.place :=
  (congrArg place (t.bare_extend text) :)

/-- Closing a branch leaves the place of its root. -/
theorem Branch.place_toTag (b : Branch) : b.toTag.place = b.root.place :=
  (congrArg Tag.place b.sameRoot_toTag).symm

private theorem Branch.place_extend (b : Branch) (text : Text) :
    (b.extend text).root.place = b.root.place :=
  (congrArg Tag.place (b.bare_root_extend text) :)

namespace Group

/-- The place of the sigil, when the group can still give a tag or an error. -/
def place? : Group → Option (Nat × Nat)
  | .skip => none
  | .entry branch _ => some branch.root.place
  | .awaitFence tag => some tag.place
  | .fence tag _ _ => some tag.place

/-- The line of the sigil. -/
def ownLine (g : Group) : List Nat := g.place?.toList.map Prod.fst

variable {s : Settings}

private theorem lines_finish (g : Group) :
    List.Sublist (g.finish.tags.flatMap Tag.lines) (g.ownLine ++ g.bareFields.map Tag.line) := by
  cases g with
  | entry branch swallow =>
    simp only [finish, List.flatMap_cons, List.flatMap_nil, List.append_nil, Tag.lines]
    have hline : branch.toTag.line = branch.root.line := congrArg Prod.fst branch.place_toTag
    rw [hline]
    exact List.Sublist.refl _
  | _ => exact List.nil_sublist _

private theorem place?_opened (sigil : SigilLine) (line column : Nat) :
    (opened s sigil line column).1.place? = none
      ∨ (opened s sigil line column).1.place? = some (line, column) := by
  generalize h : opened s sigil line column = next
  cases Opens.of_eq h with
  | usage known => exact .inr (congrArg some (Tag.place_extend _ sigil.rest))
  | entry known read => exact .inr rfl
  | _ => exact .inl rfl

/-- A line that opens no group leaves the sigil where it is. -/
theorem place?_continued (g : Group) (l : InteriorLine) :
    (continued s l g).1.place? = g.place? := by
  generalize h : continued s l g = next
  cases Continues.of_eq h with
  | @field branch _ _ field _ _ _ _ grows =>
    subst grows
    exact congrArg some (congrArg Tag.place (branch.sameRoot_upTo field.indent)).symm
  | @text branch => exact congrArg some (branch.place_extend l.text)
  | @waits tag => exact congrArg some (tag.place_extend l.text)
  | _ => rfl

/-- A line gives at most one entry, behind those that are there. -/
theorem lines_step {g : Group} (hg : g.AwaitsNoFields) (l : InteriorLine) :
    (step s g l).1.AwaitsNoFields
      ∧ List.Sublist ((step s g l).2.tags.flatMap Tag.lines
          ++ ((step s g l).1.ownLine ++ (step s g l).1.bareFields.map Tag.line))
        (g.ownLine ++ g.bareFields.map Tag.line ++ [l.line]) := by
  unfold step
  cases ho : g.opening? l with
  | some sigil =>
    obtain ⟨hnext, hfields⟩ := bareFields_opened (s := s) sigil l.line l.contentColumn
    refine ⟨hnext, ?_⟩
    have hown : List.Sublist (opened s sigil l.line l.contentColumn).1.ownLine [l.line] := by
      rw [ownLine]
      rcases place?_opened (s := s) sigil l.line l.contentColumn with h | h <;> simp [h]
    simp only [Output.tags_append, tags_opened, hfields, List.append_nil, List.map_nil]
    exact g.lines_finish.append hown
  | none =>
    obtain ⟨hnext, hfields⟩ := bareFields_continued (s := s) hg ho
    refine ⟨hnext, ?_⟩
    simp only [tags_continued, ownLine, place?_continued, hfields, List.flatMap_nil,
      List.nil_append, List.map_append, ← List.append_assoc]
    refine (List.Sublist.refl _).append ?_
    cases g.field? l with
    | none => exact List.nil_sublist _
    | some f => exact List.Sublist.refl _

/-- The entries of a run stand on the lines that it goes over, in the same order. -/
theorem lines_run {g : Group} (hg : g.AwaitsNoFields) (ls : List InteriorLine) :
    List.Sublist ((run s g ls).tags.flatMap Tag.lines)
      (g.ownLine ++ g.bareFields.map Tag.line ++ ls.map InteriorLine.line) := by
  induction ls generalizing g with
  | nil =>
    rw [List.map_nil, List.append_nil]
    exact g.lines_finish
  | cons l ls ih =>
    obtain ⟨hnext, hline⟩ := lines_step (s := s) hg l
    have hrest := (List.Sublist.refl ((step s g l).2.tags.flatMap Tag.lines)).append (ih hnext)
    rw [← List.append_assoc] at hrest
    have hall := hrest.trans (hline.append (List.Sublist.refl (ls.map InteriorLine.line)))
    rw [run_cons, Output.tags_append, List.flatMap_append, List.map_cons]
    rwa [List.append_assoc _ [l.line], List.singleton_append] at hall

end Group

/-! ### The brief -/

/-- A paragraph has a text and stands on one of its lines. -/
theorem paragraph_of_mem {ls : List InteriorLine} {p : Paragraph} (h : p ∈ paragraphs ls) :
    p.text ≠ [] ∧ p.line ∈ ls.map InteriorLine.line := by
  have hshows : ∀ l ∈ ls, l.Shows fun line _ _ => line ∈ ls.map InteriorLine.line :=
    fun l hl _ _ _ => List.mem_map_of_mem hl
  have hshown := shown_paragraphs hshows p h
  refine ⟨fun hempty => ?_, hshown.place⟩
  have hword := hshown.word
  rw [hempty] at hword
  exact hword rfl

/-- The entries of the tree of a comment, each in front of those below it, stand on its lines in the
same order. -/
theorem lines_parseLines (s : Settings) (ls : List InteriorLine) :
    List.Sublist ((Tag.nestedAll (parseLines s ls).block.tags).map Tag.line)
      (ls.map InteriorLine.line) := by
  obtain ⟨brief, entries, htags, hentries, hbrief, -⟩ := tags_parseLines s ls
  have hprose : List.Sublist (brief.flatMap Tag.lines)
      ((ls.takeWhile fun l => l.sigil?.isNone).map InteriorLine.line) := by
    rw [hbrief]
    cases hp : (paragraphs (ls.takeWhile fun l => l.sigil?.isNone)).head? with
    | none => exact List.nil_sublist _
    | some p =>
      exact List.singleton_sublist.mpr (paragraph_of_mem (List.mem_of_mem_head? hp)).2
  have hgroups := Group.lines_run (s := s) (g := .skip) trivial (groupLines ls)
  have hsplit : ls.map InteriorLine.line
      = (ls.takeWhile fun l => l.sigil?.isNone).map InteriorLine.line
        ++ (groupLines ls).map InteriorLine.line := by
    rw [← List.map_append, groupLines, List.takeWhile_append_dropWhile]
  rw [Tag.lines_nestedAll, htags, List.flatMap_append, hsplit, hentries]
  exact hprose.append hgroups

end DocContract
