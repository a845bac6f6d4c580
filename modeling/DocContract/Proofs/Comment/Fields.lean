import DocContract.Proofs.Comment.Accepted
import DocContract.Proofs.Comment.Boundary

/-!
# The nested fields of a comment

The nested fields of the tree are those that are met in the lines, in the same order: each one
stands where its marker stands, has the parts of its header and lies at the depth that it had when
it was met. Only its description may grow afterwards.
-/

namespace DocContract

open Text

/-! ### Fields below a tag -/

namespace Tag

mutual
/-- The fields below a tag at any depth, each in front of those below it. -/
def nested : Tag → List Tag
  | ⟨_, _, _, _, _, _, _, _, _, children⟩ => nestedAll children

/-- Some fields with the fields below them. -/
def nestedAll : List Tag → List Tag
  | [] => []
  | t :: ts => t :: (nested t ++ nestedAll ts)
end

/-- The line and the column of a tag. -/
def place (t : Tag) : Nat × Nat := (t.line, t.column)

/-- The places of the fields below a tag. -/
def fieldPlaces (t : Tag) : List (Nat × Nat) := t.nested.map place

/-- What lines behind a tag leave as it is: all but its description and its fields. -/
def bare (t : Tag) : Tag := { t with description := [], children := [] }

/-- The fields below a tag as their own lines give them. -/
def bareFields (t : Tag) : List Tag := t.nested.map bare

/-- The tags below a tag are its children and those below them. -/
theorem nested_eq (t : Tag) : t.nested = nestedAll t.children := by
  cases t
  rw [nested]

private theorem nestedAll_append (ts us : List Tag) :
    nestedAll (ts ++ us) = nestedAll ts ++ nestedAll us := by
  induction ts with
  | nil => rfl
  | cons t ts ih => simp [nestedAll, ih]

/-- The bare fields of a tag are the tags below it without their children. -/
theorem bareFields_eq (t : Tag) : t.bareFields = (nestedAll t.children).map bare := by
  rw [bareFields, nested_eq]

/-- The places of the fields are those of the bare fields. -/
theorem fieldPlaces_eq (t : Tag) : t.fieldPlaces = t.bareFields.map place := by
  rw [fieldPlaces, bareFields, List.map_map]
  rfl

private theorem children_extend (t : Tag) (text : Text) :
    (t.extend text).children = t.children := by
  obtain ⟨d, hd, -⟩ := t.extend_eq text
  rw [hd]

/-- Text that is added to a tag does not show in its bare form. -/
theorem bare_extend (t : Tag) (text : Text) : (t.extend text).bare = t.bare := by
  obtain ⟨d, hd, -⟩ := t.extend_eq text
  rw [hd]
  rfl

private theorem bareFields_extend (t : Tag) (text : Text) :
    (t.extend text).bareFields = t.bareFields := by
  rw [bareFields_eq, bareFields_eq, t.children_extend]

end Tag

namespace Branch

/-- Fields that are added come last. -/
theorem bareFields_graft (root : Tag) (path : List OpenField) (ts : List Tag) :
    (graft ⟨root, path⟩ ts).toTag.bareFields
      = (toTag ⟨root, path⟩).bareFields ++ (Tag.nestedAll ts).map Tag.bare := by
  induction path generalizing ts with
  | nil =>
    rw [graft, toTag_nil, toTag_nil, Tag.bareFields_eq, Tag.bareFields_eq, Tag.nestedAll_append,
      List.map_append]
  | cons f path ih =>
    rw [graft, toTag_cons, ih, toTag_cons, ih, List.append_assoc]
    obtain ⟨indent, ⟨⟩⟩ := f
    simp [Tag.nestedAll, Tag.nested, Tag.nestedAll_append, Tag.bare]

/-- The deepest open field and the fields below it come last. -/
theorem bareFields_cons (root : Tag) (f : OpenField) (path : List OpenField) :
    (toTag ⟨root, f :: path⟩).bareFields
      = (toTag ⟨root, path⟩).bareFields ++ f.field.bare :: f.field.bareFields := by
  rw [toTag_cons, bareFields_graft]
  simp [Tag.nestedAll, Tag.bareFields]

/-- Text that is added to a branch does not show in the bare form of its root. -/
theorem bare_root_extend (b : Branch) (text : Text) :
    (b.extend text).root.bare = b.root.bare := by
  obtain ⟨root, path⟩ := b
  cases path with
  | nil => exact root.bare_extend text
  | cons f path => rfl

/-- Text that is added to a branch adds no fields. -/
theorem bareFields_extend (b : Branch) (text : Text) :
    (b.extend text).toTag.bareFields = b.toTag.bareFields := by
  obtain ⟨root, path⟩ := b
  cases path with
  | nil => rw [extend, toTag_nil, toTag_nil, Tag.bareFields_extend]
  | cons f path =>
    rw [extend, bareFields_cons, bareFields_cons, Tag.bare_extend, Tag.bareFields_extend]

/-- A new field is the last one, at the depth where it is put. -/
theorem bareFields_push (b : Branch) (n : Nat) {field : Tag} (h : field.children = []) :
    (b.push n field).toTag.bareFields = b.toTag.bareFields
      ++ [{ field with depth := (b.upTo n).path.length + 1 }.bare] := by
  have hnew : Tag.bareFields { field with depth := (b.upTo n).path.length + 1 } = [] := by
    rw [Tag.bareFields_eq, h]
    rfl
  rw [push_eq, bareFields_cons, hnew, ← toTag_upTo n b]

end Branch

/-! ### What is met on the way -/

namespace Group

/-- The group after a line. The default settings stand for all settings here. -/
def next (g : Group) (l : InteriorLine) : Group := (step {} g l).1

/-- The nested field with a header that a line adds to a group, and its depth. -/
def field? (g : Group) (l : InteriorLine) : Option (FieldLine × Nat) :=
  match g with
  | .entry branch _ =>
    if (g.opening? l).isSome || l.isBlank then none
    else ((fieldOf? branch l).filter (·.header?.isSome)).map fun field =>
      (field, (branch.upTo field.indent).path.length + 1)
  | _ => none

/-- The sigils that open a group, with their places. -/
def openings (g : Group) : List InteriorLine → List (Located SigilLine)
  | [] => []
  | l :: ls =>
    ((g.opening? l).map fun sigil => ⟨l.line, l.contentColumn, sigil⟩).toList
      ++ openings (g.next l) ls

/-- The nested fields that have a header, with their places and depths. -/
def fields (g : Group) : List InteriorLine → List (Located (FieldLine × Nat))
  | [] => []
  | l :: ls =>
    ((g.field? l).map fun f => ⟨l.line, l.column + f.1.indent, f⟩).toList ++ fields (g.next l) ls

/-- A line that opens a group adds no field. -/
theorem field?_of_opening {g : Group} {l : InteriorLine} {sigil : SigilLine}
    (h : g.opening? l = some sigil) : g.field? l = none := by
  cases g <;> simp [field?, h]

/-- A line of an entry that is read as a field with a header adds that field. -/
theorem field?_of_read {branch : Branch} {swallow : Bool} {l : InteriorLine} {field : FieldLine}
    {header : Header} (h : (Group.entry branch swallow).opening? l = none)
    (solid : l.isBlank = false) (adds : fieldOf? branch l = some field)
    (read : field.header? = some header) : (Group.entry branch swallow).field? l
      = some (field, (branch.upTo field.indent).path.length + 1) := by
  simp [field?, h, solid, adds, Option.filter_some, read]

variable {s s' : Settings}

private theorem opened_group (sigil : SigilLine) (line column : Nat) :
    (opened s sigil line column).1 = (opened s' sigil line column).1 := by
  unfold opened
  split
  · rfl
  · split
    · split <;> split <;> rfl
    · rfl
    · rfl

private theorem continued_group (g : Group) (l : InteriorLine) :
    (continued s l g).1 = (continued s' l g).1 := by
  cases g with
  | entry branch swallow =>
    simp only [continued, addField]
    split
    · rfl
    · split
      · split <;> rfl
      · rfl
  | _ => rfl

/-- The settings do not bear on the group that a line leads to. -/
theorem step_group (g : Group) (l : InteriorLine) : (step s g l).1 = g.next l := by
  unfold next step
  split
  · exact opened_group _ _ _
  · exact continued_group g l

/-! ### Fields of a run -/

/-- The tag of a nested field as its line gives it. Without a header it has no parts. -/
def fieldTag (f : Located (FieldLine × Nat)) : Tag :=
  Tag.bare { (Tag.ofKind .property f.line f.column).withHeader
    (f.value.1.header?.getD ⟨none, none, false, []⟩) with depth := f.value.2 }

/-- A tag that has no snippet yet has no fields either. -/
def AwaitsNoFields : Group → Prop
  | .awaitFence tag => tag.children = []
  | .fence tag _ _ => tag.children = []
  | _ => True

/-- The fields of the open tag. -/
def bareFields : Group → List Tag
  | .entry branch _ => branch.toTag.bareFields
  | _ => []

private theorem bareFields_finish (g : Group) :
    g.finish.tags.flatMap Tag.bareFields = g.bareFields := by
  cases g with
  | entry branch swallow => exact List.append_nil _
  | _ => rfl

/-- A group that is opened has no fields and awaits none. -/
theorem bareFields_opened (sigil : SigilLine) (line column : Nat) :
    (opened s sigil line column).1.AwaitsNoFields
      ∧ (opened s sigil line column).1.bareFields = [] := by
  generalize h : opened s sigil line column = next
  cases Opens.of_eq h with
  | usage known => exact ⟨Tag.children_extend _ sigil.rest, rfl⟩
  | entry known read =>
    refine ⟨trivial, ?_⟩
    rw [bareFields, Branch.toTag_nil, Tag.bareFields_eq]
    rfl
  | _ => exact ⟨trivial, rfl⟩

/-- A line that goes on with a group adds the field that it is read as, and no other. -/
theorem bareFields_continued {g : Group} (hg : g.AwaitsNoFields) {l : InteriorLine}
    (h : g.opening? l = none) :
    (continued s l g).1.AwaitsNoFields
      ∧ (continued s l g).1.bareFields = g.bareFields
        ++ ((g.field? l).map fun f => fieldTag ⟨l.line, l.column + f.1.indent, f⟩).toList := by
  generalize hnext : continued s l g = next
  cases Continues.of_eq hnext with
  | skip => exact ⟨trivial, rfl⟩
  | blank blank => simp [field?, blank, bareFields, AwaitsNoFields]
  | @field branch _ _ field _ solid adds read grows =>
    subst grows
    refine ⟨trivial, ?_⟩
    rw [field?_of_read h solid adds read, bareFields,
      Branch.bareFields_push branch field.indent rfl]
    simp [bareFields, fieldTag, read]
  | badField solid adds unread =>
    simp [field?, solid, adds, unread, Option.filter_some, bareFields, AwaitsNoFields]
  | dropped solid plain => simp [field?, plain, bareFields, AwaitsNoFields]
  | text solid plain =>
    simp [field?, plain, bareFields, AwaitsNoFields, Branch.bareFields_extend]
  | @waits tag => exact ⟨(tag.children_extend l.text).trans hg, rfl⟩
  | fence => exact ⟨hg, rfl⟩
  | code => exact ⟨hg, rfl⟩
  | @closed tag =>
    have hchildren : tag.children = [] := hg
    refine ⟨trivial, ?_⟩
    rw [bareFields, Branch.toTag_nil, Tag.bareFields_eq, hchildren]
    rfl

/-- The tags that are read have the fields that are met. -/
theorem bareFields_run {g : Group} (hg : g.AwaitsNoFields) (ls : List InteriorLine) :
    (run s g ls).tags.flatMap Tag.bareFields = g.bareFields ++ (g.fields ls).map fieldTag := by
  induction ls generalizing g with
  | nil => exact (bareFields_finish g).trans (List.append_nil _).symm
  | cons l ls ih =>
    have hline : (step s g l).1.AwaitsNoFields
        ∧ (step s g l).2.tags.flatMap Tag.bareFields ++ (step s g l).1.bareFields = g.bareFields
          ++ ((g.field? l).map fun f => fieldTag ⟨l.line, l.column + f.1.indent, f⟩).toList := by
      unfold step
      cases ho : g.opening? l with
      | none =>
        obtain ⟨hnext, hfields⟩ := bareFields_continued (s := s) hg ho
        exact ⟨hnext, by simp only [tags_continued, hfields, List.flatMap_nil, List.nil_append]⟩
      | some sigil =>
        obtain ⟨hnext, hfields⟩ := bareFields_opened (s := s) sigil l.line l.contentColumn
        refine ⟨hnext, ?_⟩
        simp [tags_opened, bareFields_finish, hfields, field?_of_opening ho]
    have hfields : ((g.field? l).map fun f => (⟨l.line, l.column + f.1.indent, f⟩ :
        Located (FieldLine × Nat))).toList.map fieldTag
          = ((g.field? l).map fun f => fieldTag ⟨l.line, l.column + f.1.indent, f⟩).toList := by
      cases g.field? l <;> rfl
    rw [run_cons, Output.tags_append, List.flatMap_append, ih hline.1, ← List.append_assoc,
      hline.2, step_group, fields, List.map_append, hfields, List.append_assoc]

end Group

/-! ### Whole comments -/

/-- The sigils that open the groups of a comment, with their places. -/
def openSigils (ls : List InteriorLine) : List (Located SigilLine) :=
  Group.openings .skip (groupLines ls)

/-- The nested fields of a comment that have a header, with their places and depths. -/
def nestedFields (ls : List InteriorLine) : List (Located (FieldLine × Nat)) :=
  Group.fields .skip (groupLines ls)

/-- The nested fields that are met are those of the tree, in its order. -/
theorem bareFields_parseLines (s : Settings) (ls : List InteriorLine) :
    (parseLines s ls).block.tags.flatMap Tag.bareFields
      = (nestedFields ls).map Group.fieldTag := by
  have hrun := Group.bareFields_run (s := s) (g := .skip) trivial (groupLines ls)
  have hbrief : ∀ ps : List Paragraph,
      (ps.head?.toList.map Paragraph.toBrief).flatMap Tag.bareFields = [] := by
    intro ps
    cases ps <;> rfl
  unfold groupLines at hrun
  unfold parseLines
  dsimp only
  rw [List.flatMap_append, hbrief, List.nil_append, hrun]
  rfl

/-- They stand in the same places. -/
theorem fieldPlaces_parseLines (s : Settings) (ls : List InteriorLine) :
    (parseLines s ls).block.tags.flatMap Tag.fieldPlaces
      = (nestedFields ls).map fun f => (f.line, f.column) := by
  have hplaces : Tag.fieldPlaces = fun t => t.bareFields.map Tag.place := funext Tag.fieldPlaces_eq
  rw [hplaces, ← List.map_flatMap, bareFields_parseLines, List.map_map]
  rfl

end DocContract
