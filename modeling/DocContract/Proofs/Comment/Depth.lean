import DocContract.Proofs.Comment.Entry
import DocContract.Proofs.Comment.Indented

/-!
# Depth is relative indentation

The depth of a nested field depends on the order of the indentations alone: its parent is the
nearest field in front of it that is indented less. The reader keeps the fields that are still open,
and counting these is looking for that parent, since the depths of the fields have the same nearest
smaller numbers as their indentations.
-/

namespace DocContract

open Text

/-! ### Indentations along a branch -/

namespace Branch

/-- The indentations of the open fields, deepest first. -/
def indents (b : Branch) : List Nat := b.path.map OpenField.indent

private theorem indents_graft (b : Branch) (ts : List Tag) : (b.graft ts).indents = b.indents := by
  obtain ⟨root, path⟩ := b
  cases path <;> rfl

private theorem indents_extend (b : Branch) (text : Text) :
    (b.extend text).indents = b.indents := by
  obtain ⟨root, path⟩ := b
  cases path <;> rfl

private theorem indents_upTo (n : Nat) (b : Branch) :
    (b.upTo n).indents = b.indents.dropWhile (n ≤ ·) := by
  induction b using closing_induction with
  | nil root =>
    rw [upTo_nil]
    rfl
  | cons root f path ih =>
    rw [indents_graft] at ih
    have hcons : indents ⟨root, f :: path⟩ = f.indent :: indents ⟨root, path⟩ := rfl
    rw [upTo_cons, hcons, List.dropWhile_cons]
    by_cases h : n ≤ f.indent
    · simp only [h, if_true, decide_true, ih]
    · simp only [h, if_false, decide_false, Bool.false_eq_true, hcons]

private theorem length_path_upTo (n : Nat) (b : Branch) :
    (b.upTo n).path.length = (b.indents.dropWhile (n ≤ ·)).length := by
  rw [← indents_upTo, indents, List.length_map]

/-- Fewer fields remain open for a field that is indented less. -/
theorem length_path_upTo_le {m n : Nat} (h : m ≤ n) (b : Branch) :
    (b.upTo m).path.length ≤ (b.upTo n).path.length := by
  rw [← upTo_upTo h b, length_path_upTo m, ← List.length_map OpenField.indent]
  exact (List.dropWhile_suffix _).length_le

/-- A new field is open for those that are indented further, and closed with the others. -/
theorem length_path_upTo_push (b : Branch) (n : Nat) (field : Tag) (k : Nat) :
    ((b.push n field).upTo k).path.length
      = if n < k then (b.upTo n).path.length + 1 else (b.upTo k).path.length := by
  rw [push_eq, upTo_cons]
  by_cases h : k ≤ n
  · rw [if_pos h, if_neg (Nat.not_lt.mpr h), length_path_upTo, indents_graft, ← length_path_upTo,
      upTo_upTo h]
  · rw [if_neg h, if_pos (Nat.not_le.mp h), List.length_cons]

/-! ### Nearest fields -/

/-- The depths of the fields that were put below the tag. -/
def depths (b : Branch) : List Nat := b.toTag.bareFields.map Tag.depth

private theorem depths_push (b : Branch) (n : Nat) {field : Tag} (h : field.children = []) :
    (b.push n field).depths = b.depths ++ [(b.upTo n).path.length + 1] := by
  rw [depths, bareFields_push b n h, List.map_append]
  rfl

/-- The fields of the branch were met at these indentations. Their nearest smaller depths are their
nearest smaller indentations, also for a field that comes next. -/
structure Follows (is : List Nat) (b : Branch) : Prop where
  parents : nearestEach [] b.depths = nearestEach [] is
  next : ∀ k, nearestBelow is k = nearestBelow b.depths ((b.upTo k).path.length + 1)

private theorem follows_nil {root : Tag} (h : root.children = []) : Follows [] ⟨root, []⟩ := by
  have hdepths : depths ⟨root, []⟩ = [] := by
    rw [depths, toTag_nil, Tag.bareFields_eq, h]
    rfl
  exact ⟨by rw [hdepths], fun k => by rw [hdepths]; rfl⟩

/-- Text that is added to a description does not bear on the indentations. -/
theorem Follows.extend {is : List Nat} {b : Branch} (h : b.Follows is) (text : Text) :
    (b.extend text).Follows is := by
  have hdepths : (b.extend text).depths = b.depths := by rw [depths, bareFields_extend, depths]
  refine ⟨by rw [hdepths, h.parents], fun k => ?_⟩
  rw [hdepths, h.next, length_path_upTo k b, length_path_upTo k (b.extend text), indents_extend]

/-- A new field finds the nearest field that is indented less among those that remain open. -/
theorem Follows.push {is : List Nat} {b : Branch} (h : b.Follows is) (n : Nat) {field : Tag}
    (hfield : field.children = []) : (b.push n field).Follows (is ++ [n]) := by
  have hlength : b.depths.length = is.length := by
    rw [← length_nearestEach [] b.depths, h.parents, length_nearestEach]
  refine ⟨?_, fun k => ?_⟩
  · rw [depths_push b n hfield, nearestEach_append, nearestEach_append, h.parents]
    simp only [nearestEach, List.nil_append, h.next]
  · rw [depths_push b n hfield, length_path_upTo_push, nearestBelow_append_singleton,
      nearestBelow_append_singleton]
    by_cases hk : n < k
    · rw [if_pos hk, if_pos hk, if_pos (Nat.lt_succ_self _), hlength]
    · have hle := length_path_upTo_le (Nat.not_lt.mp hk) b
      rw [if_neg hk, if_neg hk, if_neg (by omega), h.next]

end Branch

/-! ### The lines of a tag -/

/-- The nested line that a line is, with or without a header that can be read. -/
def InteriorLine.fieldLine? (l : InteriorLine) : Option (Located FieldLine) :=
  (FieldLine.parse? l.text).map fun field => ⟨l.line, l.column + field.indent, field⟩

/-- The nested lines among some lines. -/
def fieldLines (ls : List InteriorLine) : List (Located FieldLine) :=
  ls.filterMap InteriorLine.fieldLine?

/-- The header of the nested line can be read. -/
def Located.isReadable (f : Located FieldLine) : Bool := f.value.header?.isSome

/-- The nested lines that have a header. -/
def readableFields (ls : List InteriorLine) : List (Located FieldLine) :=
  (fieldLines ls).filter (·.isReadable)

/-- The line goes on with a tag whose sigil stands in the column. -/
def InteriorLine.goesOn (column : Nat) (l : InteriorLine) : Bool :=
  l.sigil?.isNone || column < l.contentColumn

/-- The lines that belong to a tag, among the lines behind its sigil line. -/
def ownLines (l : InteriorLine) (rest : List InteriorLine) : List InteriorLine :=
  rest.takeWhile (·.goesOn l.contentColumn)

/-- The lines from the next group on. -/
def linesBehind (l : InteriorLine) (rest : List InteriorLine) : List InteriorLine :=
  rest.dropWhile (·.goesOn l.contentColumn)

/-- Behind some lines, the line opens a group from whose sigil a tag is read. -/
def OpensTag (s : Settings) (as : List InteriorLine) (l : InteriorLine) (kind : TagKind)
    (header : Header) : Prop :=
  ∃ sigil, (leftOpen s as).opening? l = some sigil ∧ TagKind.ofSigil? sigil.tag = some kind
    ∧ kind.header? sigil.rest = some header

private theorem fieldLines_append (ls ms : List InteriorLine) :
    fieldLines (ls ++ ms) = fieldLines ls ++ fieldLines ms := List.filterMap_append

private theorem readableFields_append (ls ms : List InteriorLine) :
    readableFields (ls ++ ms) = readableFields ls ++ readableFields ms := by
  rw [readableFields, fieldLines_append, List.filter_append]
  rfl

private theorem fieldLine?_of_isBlank {l : InteriorLine} (h : l.isBlank = true) :
    l.fieldLine? = none := by
  have hempty : trimStart l.text = [] := trimStart_eq_nil.mpr h
  rw [InteriorLine.fieldLine?, FieldLine.parse?, hempty]
  rfl

private theorem fieldLines_of_parse? {l : InteriorLine} {field : FieldLine}
    (h : FieldLine.parse? l.text = some field) :
    fieldLines [l] = [⟨l.line, l.column + field.indent, field⟩] := by
  rw [fieldLines, List.filterMap_cons, InteriorLine.fieldLine?, h]
  rfl

private theorem readableFields_of_none {l : InteriorLine} (h : l.fieldLine? = none) :
    readableFields [l] = [] := by
  rw [readableFields, fieldLines, List.filterMap_cons, h]
  rfl

namespace Branch

/-- Some lines lead from one branch to another: the tag stays the same but for its description, and
the fields of the lines come below it, each where its indentation puts it. -/
structure LedTo (ls : List InteriorLine) (b b' : Branch) : Prop where
  root : b'.root.bare = b.root.bare
  places : b'.toTag.fieldPlaces
    = b.toTag.fieldPlaces ++ (readableFields ls).map fun f => (f.line, f.column)
  follows : ∀ is, b.Follows is → b'.Follows (is ++ (readableFields ls).map (·.value.indent))

private theorem LedTo.trans {ls ms : List InteriorLine} {b b' b'' : Branch} (h : LedTo ls b b')
    (h' : LedTo ms b' b'') : LedTo (ls ++ ms) b b'' where
  root := h'.root.trans h.root
  places := by
    rw [h'.places, h.places, readableFields_append, List.map_append, List.append_assoc]
  follows := fun is his => by
    rw [readableFields_append, List.map_append, ← List.append_assoc]
    exact h'.follows _ (h.follows is his)

private theorem ledTo_self {ls : List InteriorLine} (h : readableFields ls = []) (b : Branch) :
    LedTo ls b b := by
  refine ⟨rfl, ?_, fun is his => ?_⟩
  · rw [h]
    exact (List.append_nil _).symm
  · rw [h, List.map_nil, List.append_nil]
    exact his

/-- Branches with the same root agree on it when children are left out. -/
theorem SameRoot.bare {b b' : Branch} (h : SameRoot b b') : b'.root.bare = b.root.bare :=
  (congrArg Tag.bare h).symm

private theorem ledTo_extend {ls : List InteriorLine} (h : readableFields ls = []) (b : Branch)
    (text : Text) : LedTo ls b (b.extend text) := by
  refine ⟨b.bare_root_extend text, ?_, fun is his => ?_⟩
  · rw [h, Tag.fieldPlaces_eq, bareFields_extend, ← Tag.fieldPlaces_eq]
    exact (List.append_nil _).symm
  · rw [h, List.map_nil, List.append_nil]
    exact his.extend text

/-- Closing a branch gives its root when children are left out. -/
theorem bare_toTag (b : Branch) : b.toTag.bare = b.root.bare := b.sameRoot_toTag.bare

end Branch

namespace Group

variable {s : Settings} {branch : Branch}

/-- A line that opens no group leads an open tag on. -/
theorem ledTo_continued (hk : branch.root.kind.acceptsChildren = true) (swallow : Bool)
    (l : InteriorLine) :
    ∃ b' swallow', (continued s l (.entry branch swallow)).1 = .entry b' swallow'
      ∧ branch.LedTo [l] b' := by
  have hnone (plain : fieldOf? branch l = none) : readableFields [l] = [] := by
    have hparse : FieldLine.parse? l.text = none := (if_pos hk).symm.trans plain
    exact readableFields_of_none (by rw [InteriorLine.fieldLine?, hparse]; rfl)
  generalize h : continued s l (.entry branch swallow) = next
  cases Continues.of_eq h with
  | blank blank =>
    exact ⟨branch, swallow, rfl,
      Branch.ledTo_self (readableFields_of_none (fieldLine?_of_isBlank blank)) branch⟩
  | @field _ grown _ field header _ adds read grows =>
    have hsome : readableFields [l] = [⟨l.line, l.column + field.indent, field⟩] := by
      rw [readableFields, fieldLines_of_parse? (fieldOf?_eq_some_iff.mp adds).2,
        List.filter_singleton, Located.isReadable, read]
      rfl
    subst grows
    refine ⟨_, false, rfl, ?_, ?_, fun is his => ?_⟩
    · exact (Branch.sameRoot_upTo field.indent branch).bare
    · rw [hsome, Tag.fieldPlaces_eq, Branch.bareFields_push _ _ rfl, List.map_append,
        ← Tag.fieldPlaces_eq]
      rfl
    · rw [hsome]
      exact his.push field.indent rfl
  | @badField _ _ field _ adds unread =>
    have hnone : readableFields [l] = [] := by
      rw [readableFields, fieldLines_of_parse? (fieldOf?_eq_some_iff.mp adds).2,
        List.filter_singleton, Located.isReadable, unread]
      rfl
    exact ⟨branch, true, rfl, Branch.ledTo_self hnone branch⟩
  | dropped _ plain => exact ⟨branch, true, rfl, Branch.ledTo_self (hnone plain) branch⟩
  | text _ plain => exact ⟨_, false, rfl, Branch.ledTo_extend (hnone plain) branch l.text⟩

/-- The lines of a tag lead it on. -/
theorem ledTo_advance {column : Nat} (hk : branch.root.kind.acceptsChildren = true)
    (hcolumn : branch.root.column = column) (swallow : Bool) {ls : List InteriorLine}
    (hls : ∀ l ∈ ls, l.goesOn column = true) :
    ∃ b' swallow', (advance s (.entry branch swallow) ls).1 = .entry b' swallow'
      ∧ (advance s (.entry branch swallow) ls).2.tags = [] ∧ branch.LedTo ls b' := by
  induction ls generalizing branch swallow with
  | nil => exact ⟨branch, swallow, rfl, rfl, Branch.ledTo_self rfl branch⟩
  | cons l ls ih =>
    obtain ⟨hl, hrest⟩ := List.forall_mem_cons.mp hls
    have hholds : (Group.entry branch swallow).HoldsAt column := hcolumn
    have hopening : (Group.entry branch swallow).opening? l = none := by
      refine hholds.opening? fun hsigil => ?_
      simpa [InteriorLine.goesOn, Option.isSome_iff_ne_none.mp hsigil] using hl
    obtain ⟨b₁, swallow₁, hnext, hled⟩ := ledTo_continued (s := s) hk swallow l
    have hkind : b₁.root.kind = branch.root.kind := congrArg (·.kind) hled.root
    have hplace : b₁.root.column = branch.root.column := congrArg (·.column) hled.root
    obtain ⟨b', swallow', hlast, htags, hled'⟩ :=
      ih (by rw [hkind]; exact hk) (hplace.trans hcolumn) swallow₁ hrest
    rw [advance_cons, step_stays hopening, hnext]
    refine ⟨b', swallow', hlast, ?_, hled.trans hled'⟩
    rw [Output.tags_append, tags_continued, htags]
    rfl

end Group

/-! ### The tag of a group -/

section OpenedTag

variable {s : Settings} {as rest : List InteriorLine} {l : InteriorLine} {kind : TagKind}
  {header : Header}

/-- Behind the lines of a tag there is nothing, or a sigil line that ends it. -/
theorem linesBehind_cases (l : InteriorLine) (rest : List InteriorLine) : linesBehind l rest = []
    ∨ ∃ column, column ≤ l.contentColumn ∧ OpensAt column (linesBehind l rest) := by
  cases hbehind : linesBehind l rest with
  | nil => exact .inl rfl
  | cons m ms =>
    have hstop : m.goesOn l.contentColumn = false := by
      have hhead := List.head?_dropWhile_not (InteriorLine.goesOn l.contentColumn) rest
      rwa [show rest.dropWhile (InteriorLine.goesOn l.contentColumn) = m :: ms from hbehind]
        at hhead
    rw [InteriorLine.goesOn, Bool.or_eq_false_iff, decide_eq_false_iff_not] at hstop
    obtain ⟨hsigil, hcolumn⟩ := hstop
    cases hs : m.sigil? with
    | none => simp [hs] at hsigil
    | some sigil => exact .inr ⟨m.contentColumn, Nat.not_lt.mp hcolumn, m, ms, sigil, rfl, hs, rfl⟩

/-- The tags in front of a sigil line are read on their own, that of the open group included. -/
theorem tags_of_opening {sigil : SigilLine} (hopen : (leftOpen s as).opening? l = some sigil)
    (rest : List InteriorLine) : (parseLines s (as ++ l :: rest)).block.tags
      = (parseLines s as).block.tags
        ++ (Group.run s (Group.opened s sigil l.line l.contentColumn).1 rest).tags := by
  have hopens : OpensAt l.contentColumn (l :: rest) :=
    ⟨l, rest, sigil, rfl, Group.opening?_eq_some hopen, rfl⟩
  obtain ⟨brief, htags, -, hbrief⟩ := hopens.parseLines_behind s as
  have hfront : (parseLines s as).block.tags
      = brief ++ (Group.run s .skip (groupLines as)).tags := by
    rw [hbrief]
    rfl
  rw [htags, ← hopens.groupLines_append, run_of_opening hopen, hfront]
  simp [Group.tags_opened]

/-- A tag is handed out at the end of its lines, and the groups behind it are read on their own. -/
theorem tags_of_entry (branch : Branch) (swallow : Bool) {ls : List InteriorLine}
    (hls : ls = [] ∨ ∃ column, column ≤ branch.root.column ∧ OpensAt column ls) :
    (Group.run s (.entry branch swallow) ls).tags
      = branch.toTag :: (parseLines s ls).block.tags := by
  rcases hls with rfl | ⟨column, hcolumn, hopens⟩
  · rfl
  · have hends : (Group.entry branch swallow).EndsAt column := hcolumn
    rw [Group.run_of_endsAt hends hopens, hopens.parseLines_eq]
    rfl

/-- The group of a tag that accepts fields gives the tag, which its lines lead on, and the groups in
front of it and behind it are read on their own. -/
theorem exists_ledTo (h : OpensTag s as l kind header) (hk : kind.acceptsChildren = true)
    (rest : List InteriorLine) :
    ∃ b, Branch.LedTo (ownLines l rest)
        ⟨(Tag.ofKind kind l.line l.contentColumn).withHeader header, []⟩ b
      ∧ (parseLines s (as ++ l :: rest)).block.tags = (parseLines s as).block.tags
        ++ b.toTag :: (parseLines s (linesBehind l rest)).block.tags := by
  obtain ⟨sigil, hopen, hkind, hheader⟩ := h
  have hopened : Group.opened s sigil l.line l.contentColumn
      = (.entry ⟨(Tag.ofKind kind l.line l.contentColumn).withHeader header, []⟩ false, {}) := by
    exact (Group.Opens.entry hkind hheader).eq
  let branch : Branch := ⟨(Tag.ofKind kind l.line l.contentColumn).withHeader header, []⟩
  have haccepts : branch.root.kind.acceptsChildren = true := hk
  have hown : ∀ m ∈ ownLines l rest, m.goesOn l.contentColumn = true :=
    fun m hm => List.mem_takeWhile_imp hm
  obtain ⟨b, swallow, hlast, hnone, hled⟩ :=
    Group.ledTo_advance (s := s) haccepts rfl false hown
  have hsplit : rest = ownLines l rest ++ linesBehind l rest := List.takeWhile_append_dropWhile.symm
  have hbehind : linesBehind l rest = []
      ∨ ∃ column, column ≤ b.root.column ∧ OpensAt column (linesBehind l rest) := by
    have hcolumn : b.root.column = l.contentColumn := congrArg (·.column) hled.root
    rw [hcolumn]
    exact linesBehind_cases l rest
  refine ⟨b, hled, ?_⟩
  rw [tags_of_opening hopen, hopened]
  conv_lhs => rw [hsplit]
  rw [Group.run_append, hlast, Output.tags_append, hnone, List.nil_append,
    tags_of_entry b swallow hbehind]

/-- The fields below a tag are some nested lines in their order, each below the nearest one in front
of it that is indented less, or right below the tag if there is none. -/
structure Tag.Nests (fs : List (Located FieldLine)) (t : Tag) : Prop where
  places : t.fieldPlaces = fs.map fun f => (f.line, f.column)
  parents : t.parents = nearestEach [] (fs.map (·.value.indent))

/-- The group of a tag that accepts fields gives the tag with the fields of its own lines, each
where its indentation puts it. -/
theorem exists_tag (h : OpensTag s as l kind header) (hk : kind.acceptsChildren = true)
    (rest : List InteriorLine) :
    ∃ t : Tag, (parseLines s (as ++ l :: rest)).block.tags
        = (parseLines s as).block.tags ++ t :: (parseLines s (linesBehind l rest)).block.tags
      ∧ t.bare = ((Tag.ofKind kind l.line l.contentColumn).withHeader header).bare
      ∧ t.Nests (readableFields (ownLines l rest)) := by
  obtain ⟨b, hled, htags⟩ := exists_ledTo h hk rest
  have hdeepens : b.toTag.Deepens 0 := deepens_parseLines s _ _ (by rw [htags]; simp)
  have hfollows := hled.follows [] (Branch.follows_nil rfl)
  have hdepths : b.toTag.nested.map Tag.depth = b.depths := by
    rw [Branch.depths, Tag.bareFields, List.map_map]
    rfl
  refine ⟨b.toTag, htags, b.bare_toTag.trans hled.root, ?_, ?_⟩
  · rw [hled.places, Branch.toTag_nil]
    rfl
  · rw [hdeepens.parents_eq, hdepths, hfollows.parents, List.nil_append]

end OpenedTag

/-! ### Warnings -/

/-- Is it the warning that a marker belongs to another depth? -/
def ParseWarning.isMarker : ParseWarning → Bool
  | .marker _ _ => true
  | _ => false

/-- Is it the warning that a field lies deeper than the limit? -/
def ParseWarning.isDepth : ParseWarning → Bool
  | .depth _ _ => true
  | _ => false

namespace Group

variable {s : Settings}

private theorem marker_fieldWarnings (field : FieldLine) (depth : Nat) :
    (fieldWarnings s field depth).filter ParseWarning.isMarker
      = if field.marker ≠ Marker.ofDepth depth then [.marker depth field.marker] else [] := by
  have hconvention : (if field.convention = s.markerConvention then []
      else [ParseWarning.convention field.convention s.markerConvention]).filter
        ParseWarning.isMarker = [] := by
    split <;> rfl
  have hdepth : ∀ limit, (if depth > limit then [ParseWarning.depth depth limit]
      else []).filter ParseWarning.isMarker = [] := by
    intro limit
    split <;> rfl
  rw [ite_not]
  unfold fieldWarnings
  cases s.maxTagDepth? <;>
    simp only [List.filter_append, hconvention, hdepth, List.append_nil] <;>
    split <;> rfl

private theorem depth_fieldWarnings (field : FieldLine) (depth : Nat) :
    (fieldWarnings s field depth).filter ParseWarning.isDepth = match s.maxTagDepth? with
      | none => []
      | some limit => if limit < depth then [.depth depth limit] else [] := by
  have hmarker : (if field.marker = Marker.ofDepth depth then []
      else [ParseWarning.marker depth field.marker]).filter ParseWarning.isDepth = [] := by
    split <;> rfl
  have hconvention : (if field.convention = s.markerConvention then []
      else [ParseWarning.convention field.convention s.markerConvention]).filter
        ParseWarning.isDepth = [] := by
    split <;> rfl
  unfold fieldWarnings
  cases s.maxTagDepth? with
  | none => simp only [List.filter_append, hmarker, hconvention, List.append_nil]
  | some limit =>
    simp only [List.filter_append, hmarker, hconvention, List.nil_append]
    split <;> rfl

/-- A field that is met is a nested line with a header. -/
theorem field?_eq_some {g : Group} {l : InteriorLine} {f : FieldLine × Nat}
    (h : g.field? l = some f) : FieldLine.parse? l.text = some f.1 := by
  cases g with
  | entry branch swallow =>
    simp only [field?] at h
    split at h
    · cases h
    · obtain ⟨field, hfield, rfl⟩ := Option.map_eq_some_iff.mp h
      have hfieldOf := (Option.filter_eq_some_iff.mp hfield).1
      unfold fieldOf? at hfieldOf
      split at hfieldOf
      · exact hfieldOf
      · cases hfieldOf
  | _ => cases h

/-- The fields that are met are nested lines, in the same order. -/
theorem fields_sublist (g : Group) (ls : List InteriorLine) :
    List.Sublist ((g.fields ls).map fun f => ⟨f.line, f.column, f.value.1⟩) (fieldLines ls) := by
  induction ls generalizing g with
  | nil => exact List.Sublist.slnil
  | cons l ls ih =>
    rw [fields, List.map_append, ← List.singleton_append, fieldLines_append]
    refine List.Sublist.append ?_ (ih _)
    cases hf : g.field? l with
    | none => exact List.nil_sublist _
    | some f =>
      rw [fieldLines, List.filterMap_cons, InteriorLine.fieldLine?, field?_eq_some hf]
      exact List.Sublist.refl _

end Group

/-- The fields of a comment stand on nested lines, in the same order. -/
theorem nestedFields_sublist (ls : List InteriorLine) :
    List.Sublist ((nestedFields ls).map fun f => ⟨f.line, f.column, f.value.1⟩)
      (fieldLines ls) := by
  refine (Group.fields_sublist .skip (groupLines ls)).trans ?_
  exact (List.dropWhile_suffix _).sublist.filterMap _

/-- The warnings about markers are those of fields whose marker belongs to another depth. -/
theorem marker_parseLines (s : Settings) (ls : List InteriorLine) :
    (parseLines s ls).warnings.filter (·.value.isMarker)
      = ((nestedFields ls).filter fun f => f.value.1.marker ≠ Marker.ofDepth f.value.2).map
          fun f => ⟨f.line, f.column, .marker f.value.2 f.value.1.marker⟩ := by
  refine filter_warnings s ls ParseWarning.isMarker (fun f => f.1.marker ≠ Marker.ofDepth f.2)
    (fun f => .marker f.2 f.1.marker) fun field depth => ?_
  rw [Group.marker_fieldWarnings]
  simp only [decide_eq_true_eq]

/-- The warnings about depths are those of the fields of the tree that lie deeper than the limit. -/
theorem depth_parseLines (s : Settings) (ls : List InteriorLine) :
    (parseLines s ls).warnings.filter (·.value.isDepth) = match s.maxTagDepth? with
      | none => []
      | some limit => (((parseLines s ls).block.tags.flatMap Tag.nested).filter fun t =>
          limit < t.depth).map fun t => ⟨t.line, t.column, .depth t.depth limit⟩ := by
  have hfields := Group.depth_fieldWarnings (s := s)
  cases hlimit : s.maxTagDepth? with
  | none =>
    rw [hlimit] at hfields
    rw [filter_warnings s ls ParseWarning.isDepth (fun _ => false) (fun f => .depth f.2 0) hfields]
    simp
  | some limit =>
    rw [hlimit] at hfields
    rw [filter_warnings s ls ParseWarning.isDepth (fun f => limit < f.2) (fun f => .depth f.2 limit)
      fun field depth => (hfields field depth).trans (by simp)]
    have htree : ((parseLines s ls).block.tags.flatMap Tag.nested).map Tag.bare
        = (nestedFields ls).map Group.fieldTag := by
      rw [← bareFields_parseLines s ls, List.map_flatMap]
      rfl
    -- Places and depths of the fields are those of their own lines.
    have hfilter := congrArg (fun ts => (ts.filter fun t => limit < t.depth).map fun t =>
      (⟨t.line, t.column, .depth t.depth limit⟩ : Located ParseWarning)) htree
    simp only [List.filter_map, List.map_map] at hfilter
    exact hfilter.symm

/-! ### Whole comments -/

/-- Depth is relative indentation only. In every tree each field lies one level below its parent,
and tags lie at zero. A group with a tag that accepts fields gives that tag, and the fields below it
are its nested lines with a header: the parent of each one is the nearest of them in front of it
that is indented less, so the tree is the same for all indentations that are ordered alike. The
fields of the whole tree are the nested lines that are met; a wrong marker is reported for those
whose marker is not the one of their depth, and with a limit the fields of the tree below it are
reported. -/
theorem parseLines_nesting (s : Settings) (ls : List InteriorLine) :
    (∀ t ∈ (parseLines s ls).block.tags, t.Deepens 0)
      ∧ (∀ as l rest kind header, ls = as ++ l :: rest → OpensTag s as l kind header →
        kind.acceptsChildren = true →
        ∃ t : Tag, (parseLines s ls).block.tags
            = (parseLines s as).block.tags ++ t :: (parseLines s (linesBehind l rest)).block.tags
          ∧ t.bare = ((Tag.ofKind kind l.line l.contentColumn).withHeader header).bare
          ∧ t.Nests (readableFields (ownLines l rest))
          ∧ ∀ indents, indents = (readableFields (ownLines l rest)).map (·.value.indent) →
            ∀ f : Nat → Nat, StrictMonoOn f {i | i ∈ indents} →
              t.parents = nearestEach [] (indents.map f))
      ∧ (parseLines s ls).block.tags.flatMap Tag.bareFields
        = (nestedFields ls).map Group.fieldTag
      ∧ List.Sublist ((nestedFields ls).map fun f => ⟨f.line, f.column, f.value.1⟩)
        (fieldLines ls)
      ∧ (parseLines s ls).warnings.filter (·.value.isMarker)
        = (((nestedFields ls).filter fun f => f.value.1.marker ≠ Marker.ofDepth f.value.2).map
            fun f => ⟨f.line, f.column, .marker f.value.2 f.value.1.marker⟩)
      ∧ (parseLines s ls).warnings.filter (·.value.isDepth) = match s.maxTagDepth? with
        | none => []
        | some limit => (((parseLines s ls).block.tags.flatMap Tag.nested).filter fun t =>
            limit < t.depth).map fun t => ⟨t.line, t.column, .depth t.depth limit⟩ := by
  refine ⟨deepens_parseLines s ls, ?_, bareFields_parseLines s ls, nestedFields_sublist ls,
    marker_parseLines s ls, depth_parseLines s ls⟩
  intro as l rest kind header hls hopens hk
  obtain ⟨t, htags, hbare, hnests⟩ := exists_tag hopens hk rest
  rw [hls]
  refine ⟨t, htags, hbare, hnests, fun indents hindents f hf => ?_⟩
  have hmap := @nearestEach_map f [] indents hf
  rw [List.map_nil] at hmap
  rw [hmap, hindents, hnests.parents]

/-- Settings with a limit of one level. -/
def shallowSettings : Settings where
  maxTagDepth? := some 1

/-- The lines below a parameter: a field, one that is indented far below it, one that is indented
less than that and has the wrong marker, and one more at the first indentation. -/
def dedentedLines : List InteriorLine :=
  [⟨3, 1, "  - x - two"⟩, ⟨4, 1, "      + y - three"⟩, ⟨5, 1, "    - z - four"⟩,
    ⟨6, 1, "  - w - five"⟩]

/-- A field that is indented less than the one in front of it is still below the field that is
indented less than both, as it is when the indentations are halved. -/
theorem parseLines_nesting_dedentedLines :
    OpensTag shallowSettings [⟨1, 1, "Adds."⟩] ⟨2, 1, "@param a - one"⟩ .param
        ⟨some "a", none, false, "one"⟩
      ∧ TagKind.param.acceptsChildren = true
      ∧ StrictMonoOn (· / 2) {i | i ∈ [2, 6, 4, 2]}
      ∧ ∃ brief t : Tag, (parseLines shallowSettings
            (⟨1, 1, "Adds."⟩ :: ⟨2, 1, "@param a - one"⟩ :: dedentedLines)).block.tags = [brief, t]
        ∧ t.parents = [none, some 0, some 0, none] ∧ nearestEach [] [1, 3, 2, 1] = t.parents
        ∧ (parseLines shallowSettings (⟨1, 1, "Adds."⟩ :: ⟨2, 1, "@param a - one"⟩
            :: dedentedLines)).warnings.filter (·.value.isMarker) = [⟨5, 5, .marker 2 .dash⟩] := by
  have hopens : OpensTag shallowSettings [⟨1, 1, "Adds."⟩] ⟨2, 1, "@param a - one"⟩ .param
      ⟨some "a", none, false, "one"⟩ := ⟨⟨"param", "a - one"⟩, by decide, by decide, by decide⟩
  have hmono : StrictMonoOn (· / 2) {i | i ∈ [2, 6, 4, 2]} := by
    intro i hi j hj hij
    have hvalue : ∀ k ∈ [2, 6, 4, 2], k % 2 = 0 := by decide
    have hi₂ := hvalue i hi
    have hj₂ := hvalue j hj
    show i / 2 < j / 2
    omega
  obtain ⟨-, hgroup, -, -, hmarker, -⟩ := parseLines_nesting shallowSettings
    (⟨1, 1, "Adds."⟩ :: ⟨2, 1, "@param a - one"⟩ :: dedentedLines)
  obtain ⟨t, htags, -, hnests, horder⟩ := hgroup [⟨1, 1, "Adds."⟩] _ _ _ _ rfl hopens rfl
  have hhalved := horder [2, 6, 4, 2] (by decide +kernel) (· / 2) hmono
  refine ⟨hopens, rfl, hmono, _, t, htags, ?_, hhalved.symm, ?_⟩
  · rw [hhalved]
    decide +kernel
  · rw [hmarker]
    decide +kernel

end DocContract
