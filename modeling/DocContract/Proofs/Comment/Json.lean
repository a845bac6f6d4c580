import DocContract.Comment.Json
import DocContract.Proofs.Comment.RoundTrip
import DocContract.Proofs.Json.Signature
import DocContract.Proofs.Settings.Json

/-!
# Comments are read back only without tags

The form of a tag leaves out an empty list of children, and the reader asks for the list. Every tree
of tags has a tag without children, so the form of a comment is refused as soon as the comment has
tags. The list is all that is missing: with the empty lists written as well, every comment is read
back.
-/

namespace DocContract

open Json

/-! ### Forms with all lists -/

/-- The member of the children, also when there are none. -/
def childrenList (children : List Json) : List (Text × Json) := [("children", .array children)]

mutual
/-- The form of a tag that lists the children also when there are none. -/
def Tag.fullJson : Tag → Json
  | ⟨kind, name, description, type, optional, depth, line, column, snippet, children⟩ =>
    .object (("kind", .string kind.name) :: ("name", Json.ofText? name)
      :: ("description", .string description) :: ("ty", Json.ofText? type)
      :: ("optional", .bool optional) :: ("depth", .nat depth) :: ("line", .nat line)
      :: ("column", .nat column)
      :: (snippetMember snippet ++ childrenList (tagsToFullJson children)))

/-- The forms of tags that list the children of each of them. -/
def tagsToFullJson : List Tag → List Json
  | [] => []
  | t :: ts => t.fullJson :: tagsToFullJson ts
end

/-- The form of a comment with some forms of its tags. -/
def CommentBlock.formWith (b : CommentBlock) (items : List Json) : Json :=
  .object [("span", .object [("start", .nat b.spanStart), ("end", .nat b.spanEnd)]),
    ("start_line", .nat b.startLine), ("end_line", .nat b.endLine),
    ("async_marker", .bool b.asyncMarker), ("details", .ofTexts b.details),
    ("tags", .array items)]

/-- The form of a comment that lists the children of every tag. -/
def CommentBlock.fullJson (b : CommentBlock) : Json := b.formWith (tagsToFullJson b.tags)

/-! ### Numbers that can be read -/

/-- The numbers of a tag and of the tags below it can be read from JSON. -/
inductive Tag.InRange : Tag → Prop
  | intro {t : Tag} (depth : t.depth < natBound) (line : t.line < natBound)
      (column : t.column < natBound) (children : ∀ child ∈ t.children, Tag.InRange child) :
      Tag.InRange t

private theorem Tag.inRange_mk {kind : TagKind} {name? type? : Option Text} {description : Text}
    {optional : Bool} {depth line column : Nat} {snippet? : Option Snippet} {children : List Tag} :
    Tag.InRange ⟨kind, name?, description, type?, optional, depth, line, column, snippet?, children⟩
      ↔ depth < natBound ∧ line < natBound ∧ column < natBound
        ∧ ∀ child ∈ children, child.InRange :=
  ⟨fun ⟨hdepth, hline, hcolumn, hchildren⟩ => ⟨hdepth, hline, hcolumn, hchildren⟩,
    fun ⟨hdepth, hline, hcolumn, hchildren⟩ => .intro hdepth hline hcolumn hchildren⟩

/-- The numbers of a comment can be read from JSON. -/
structure CommentBlock.InRange (b : CommentBlock) : Prop where
  spanStart : b.spanStart < natBound
  spanEnd : b.spanEnd < natBound
  startLine : b.startLine < natBound
  endLine : b.endLine < natBound
  tags : ∀ t ∈ b.tags, t.InRange

/-! ### The parts of a tag -/

private theorem Snippet.ofJson?_toJson (s : Snippet) : Snippet.ofJson? s.toJson = some s := rfl

private theorem TagKind.ofName?_name (k : TagKind) : ofName? k.name = some k := by
  cases k <;> decide

private theorem Snippet.orNull?_toJson (s? : Option Snippet) :
    orNull? Snippet.ofJson? (s?.map Snippet.toJson) = some s? := by
  cases s? with
  | none => rfl
  | some s => exact orNull?_of_ne_null (by simp [Snippet.toJson]) s.ofJson?_toJson

namespace Tag

/-- The values of the members of a tag, with a list of children or without it. -/
def values (t : Tag) (children? : Option (List Json)) : List (Option Json) :=
  [some (.string t.kind.name), some (Json.ofText? t.name?), some (.string t.description),
    some (Json.ofText? t.type?), some (.bool t.optional), some (.nat t.depth), some (.nat t.line),
    some (.nat t.column), t.snippet?.map Snippet.toJson, children?.map .array]

private theorem record?_fullJson (t : Tag) :
    record? members t.fullJson = some (t.values (some (tagsToFullJson t.children))) := by
  obtain ⟨kind, name?, description, type?, optional, depth, line, column, snippet?, children⟩ := t
  cases snippet? <;> rfl

private theorem record?_toJson_leaf {t : Tag} (h : t.children = []) :
    record? members t.toJson = some (t.values none) := by
  obtain ⟨kind, name?, description, type?, optional, depth, line, column, snippet?, children⟩ := t
  cases h
  cases snippet? <;> rfl

private theorem record?_toJson_node {t : Tag} (h : t.children ≠ []) :
    record? members t.toJson = some (t.values (some (tagsToJson t.children))) := by
  obtain ⟨kind, name?, description, type?, optional, depth, line, column, snippet?, children⟩ := t
  cases children with
  | nil => exact absurd rfl h
  | cons child children => cases snippet? <;> rfl

/-- Without a list of children the tag is refused. -/
theorem ofJson?_of_unlisted {t : Tag} {j : Json} (h : record? members j = some (t.values none)) :
    ofJson? j = none := by
  rw [ofJson?]
  split
  · next hr =>
    rw [h] at hr
    cases hr
  · rfl

/-- A tag is refused with its children. -/
theorem ofJson?_of_refused {t : Tag} {j : Json} {items : List Json}
    (h : record? members j = some (t.values (some items))) (hitems : tagsOfJson? items = none) :
    ofJson? j = none := by
  rw [ofJson?]
  split
  · next hr =>
    rw [h] at hr
    cases hr
    simp [hitems]
  · rfl

/-- A tag is read with its children. -/
theorem ofJson?_of_listed {t : Tag} (ht : t.InRange) {j : Json} {items : List Json}
    (h : record? members j = some (t.values (some items)))
    (hitems : tagsOfJson? items = some t.children) : ofJson? j = some t := by
  obtain ⟨hdepth, hline, hcolumn, -⟩ := ht
  rw [ofJson?]
  split
  · next hr =>
    rw [h] at hr
    cases hr
    have hkind : TagKind.ofJson? (.string t.kind.name) = some t.kind := t.kind.ofName?_name
    simp only [need?, hkind, orNull?_ofText?, asText?, asBool?, asNat?, if_pos hdepth,
      if_pos hline, if_pos hcolumn, Snippet.orNull?_toJson, hitems]
    cases t
    rfl
  · next hr => exact absurd h (hr _ _ _ _ _ _ _ _ _ _)

end Tag

/-! ### Trees of tags -/

mutual
/-- No tag is read from its written form: below it there is one without a list of children. -/
theorem Tag.ofJson?_toJson_eq_none : ∀ t : Tag, Tag.ofJson? t.toJson = none
  | ⟨_, _, _, _, _, _, _, _, _, []⟩ => Tag.ofJson?_of_unlisted (Tag.record?_toJson_leaf rfl)
  | ⟨_, _, _, _, _, _, _, _, _, child :: children⟩ =>
    Tag.ofJson?_of_refused (Tag.record?_toJson_node (List.cons_ne_nil child children))
      (tagsOfJson?_tagsToJson_eq_none child children)

private theorem tagsOfJson?_tagsToJson_eq_none : ∀ (t : Tag) (ts : List Tag),
    tagsOfJson? (tagsToJson (t :: ts)) = none
  | t, ts => by
    rw [tagsToJson, tagsOfJson?, t.ofJson?_toJson_eq_none]
    rfl
end

mutual
/-- A tag is read from the form that lists all children. -/
theorem Tag.ofJson?_fullJson : ∀ t : Tag, t.InRange → Tag.ofJson? t.fullJson = some t
  | ⟨_, _, _, _, _, _, _, _, _, children⟩, h => by
    obtain ⟨-, -, -, hchildren⟩ := id h
    exact Tag.ofJson?_of_listed h (Tag.record?_fullJson _)
      (tagsOfJson?_tagsToFullJson children hchildren)

private theorem tagsOfJson?_tagsToFullJson : ∀ ts : List Tag, (∀ t ∈ ts, t.InRange) →
    tagsOfJson? (tagsToFullJson ts) = some ts
  | [], _ => by rw [tagsToFullJson, tagsOfJson?]
  | t :: ts, h => by
    obtain ⟨ht, hts⟩ := List.forall_mem_cons.mp h
    rw [tagsToFullJson, tagsOfJson?, t.ofJson?_fullJson ht, tagsOfJson?_tagsToFullJson ts hts]
    rfl
end

private theorem isPlain_ofText? (t? : Option Text) : (Json.ofText? t?).isPlain = true := by
  cases t? <;> rfl

private theorem membersPlain_append (ms ms' : List (Text × Json)) :
    membersPlain (ms ++ ms') = (membersPlain ms && membersPlain ms') := by
  induction ms with
  | nil => rfl
  | cons m ms ih => simp [membersPlain, ih, Bool.and_assoc]

private theorem membersPlain_snippetMember (s? : Option Snippet) :
    membersPlain (snippetMember s?) = true := by
  cases s? <;> rfl

mutual
private theorem Tag.isPlain_toJson : ∀ t : Tag, t.toJson.isPlain = true
  | ⟨_, _, _, _, _, _, _, _, _, children⟩ => by
    have hchildren : membersPlain (childrenMember (tagsToJson children)) = true := by
      rw [childrenMember]
      split
      · rfl
      · exact Bool.and_eq_true_iff.mpr ⟨arePlain_tagsToJson children, rfl⟩
    simp [Tag.toJson, isPlain, membersPlain, membersPlain_append, isPlain_ofText?,
      membersPlain_snippetMember, hchildren]

private theorem arePlain_tagsToJson : ∀ ts : List Tag, arePlain (tagsToJson ts) = true
  | [] => rfl
  | t :: ts => Bool.and_eq_true_iff.mpr ⟨t.isPlain_toJson, arePlain_tagsToJson ts⟩
end

mutual
private theorem Tag.isPlain_fullJson : ∀ t : Tag, t.fullJson.isPlain = true
  | ⟨_, _, _, _, _, _, _, _, _, children⟩ => by
    simp [Tag.fullJson, childrenList, isPlain, membersPlain, membersPlain_append, isPlain_ofText?,
      membersPlain_snippetMember, arePlain_tagsToFullJson children]

private theorem arePlain_tagsToFullJson : ∀ ts : List Tag, arePlain (tagsToFullJson ts) = true
  | [] => rfl
  | t :: ts => Bool.and_eq_true_iff.mpr ⟨t.isPlain_fullJson, arePlain_tagsToFullJson ts⟩
end

/-! ### Comments -/

namespace CommentBlock

variable {b : CommentBlock}

private theorem toJson_eq (b : CommentBlock) : b.toJson = b.formWith (tagsToJson b.tags) := rfl

/-- A comment is read with its tags. -/
theorem ofJson?_formWith (h : b.InRange) (items : List Json) :
    ofJson? (b.formWith items) = (tagsOfJson? items).map fun tags => { b with tags } := by
  have hrecord : record? members (b.formWith items)
      = some [some (.object [("start", .nat b.spanStart), ("end", .nat b.spanEnd)]),
        some (.nat b.startLine), some (.nat b.endLine), some (.bool b.asyncMarker),
        some (.ofTexts b.details), some (.array items)] := rfl
  have hnat : ∀ n < natBound, asNat? (.nat n) = some n := fun n hn => if_pos hn
  have hspan : spanOfJson? (.object [("start", .nat b.spanStart), ("end", .nat b.spanEnd)])
      = some (b.spanStart, b.spanEnd) := by
    have hparts : record? [.required "start", .required "end"]
        (.object [("start", .nat b.spanStart), ("end", .nat b.spanEnd)])
        = some [some (.nat b.spanStart), some (.nat b.spanEnd)] := rfl
    unfold spanOfJson?
    rw [hparts]
    simp only [need?, hnat _ h.spanStart, hnat _ h.spanEnd]
    rfl
  unfold ofJson?
  rw [hrecord]
  simp only [need?, hspan, hnat _ h.startLine, hnat _ h.endLine, asBool?, asList?_ofTexts,
    tagListOfJson?]
  cases tagsOfJson? items <;> rfl

private theorem isPlain_formWith {items : List Json} (h : arePlain items = true) :
    (b.formWith items).isPlain = true := by
  simp [formWith, isPlain, membersPlain, isPlain_ofTexts, h]

/-- The written form of a comment is read only when there are no tags. -/
theorem ofJson?_toJson (h : b.InRange) :
    ofJson? b.toJson = if b.tags.isEmpty then some b else none := by
  rw [toJson_eq, ofJson?_formWith h]
  obtain ⟨spanStart, spanEnd, startLine, endLine, asyncMarker, details, tags⟩ := b
  cases tags with
  | nil =>
    rw [tagsToJson, tagsOfJson?]
    rfl
  | cons t ts =>
    rw [tagsOfJson?_tagsToJson_eq_none]
    rfl

private theorem ofJson?_fullJson (h : b.InRange) : ofJson? b.fullJson = some b := by
  rw [fullJson, ofJson?_formWith h, tagsOfJson?_tagsToFullJson b.tags h.tags, Option.map_some]

private theorem fits_toJson (h : b.tags = []) : b.toJson.fits maxDepth = true := by
  simp [toJson, fits, membersFit, maxDepth, h, tagsToJson, itemsFit, fits_ofTexts]

/-- A comment is read back, as a value and from its texts, exactly when it has no tags; it is
refused otherwise. The form that lists the children of every tag is read back, from its texts as far
as the reader goes. -/
theorem ofJson?_toJson_eq_some_iff (h : b.InRange) :
    (ofJson? b.toJson = some b ↔ b.tags = [])
      ∧ (∀ t, b.toJson.IsTextOf t → ((parse? t).bind ofJson? = some b ↔ b.tags = []))
      ∧ (b.tags ≠ [] → ofJson? b.toJson = none)
      ∧ ofJson? b.fullJson = some b
      ∧ ∀ t, b.fullJson.IsTextOf t →
        ((parse? t).bind ofJson? = some b ↔ b.fullJson.fits maxDepth = true) := by
  have hwritten : ofJson? b.toJson = some b ↔ b.tags = [] := by
    rw [ofJson?_toJson h, ← List.isEmpty_iff]
    cases b.tags.isEmpty <;> simp
  have hrefused : b.tags ≠ [] → ofJson? b.toJson = none := fun hne => by
    rw [ofJson?_toJson h, if_neg (by simpa using hne)]
  have hfull := ofJson?_fullJson h
  refine ⟨hwritten, fun t ht => ?_, hrefused, hfull, fun t ht => ?_⟩
  · rw [ht.parse? (isPlain_formWith (arePlain_tagsToJson b.tags))]
    constructor
    · intro hread
      split at hread
      · exact hwritten.mp hread
      · cases hread
    · intro hnil
      rw [if_pos (fits_toJson hnil)]
      exact hwritten.mpr hnil
  · rw [ht.parse? (isPlain_formWith (arePlain_tagsToFullJson b.tags))]
    cases b.fullJson.fits maxDepth <;> simp [hfull]

/-- A block with nested fields and a snippet is refused, and read from the form with all lists. -/
theorem ofJson?_nestedExample : nestedExample.InRange
    ∧ (ofJson? nestedExample.toJson = some nestedExample ↔ nestedExample.tags = [])
    ∧ ofJson? nestedExample.toJson = none
    ∧ ofJson? nestedExample.fullJson = some nestedExample := by
  have hrange : nestedExample.InRange := by
    refine ⟨by decide, by decide, by decide, by decide, ?_⟩
    simp [nestedExample, Tag.ofKind, Tag.inRange_mk, natBound]
  obtain ⟨hiff, -, hrefused, hfull, -⟩ := ofJson?_toJson_eq_some_iff hrange
  exact ⟨hrange, hiff, hrefused (List.cons_ne_nil _ _), hfull⟩

/-- A block that is no more than a brief. -/
def briefExample : CommentBlock where
  startLine := 1
  endLine := 1
  tags := [{ Tag.ofKind .brief 1 1 with description := "Adds." }]

/-- A brief alone is not read back. -/
theorem ofJson?_briefExample_ne :
    briefExample.InRange ∧ ofJson? briefExample.toJson ≠ some briefExample := by
  have hrange : briefExample.InRange := by
    refine ⟨by decide, by decide, by decide, by decide, ?_⟩
    simp [briefExample, Tag.ofKind, Tag.inRange_mk, natBound]
  refine ⟨hrange, ?_⟩
  rw [ofJson?_toJson hrange, if_neg (by decide)]
  exact (Option.some_ne_none briefExample).symm

end CommentBlock

end DocContract
