import DocContract.Comment.Canonical
import DocContract.DocBlock
import DocContract.Proofs.Comment.RoundTrip
import DocContract.Proofs.DocBlock.Delimiter
import DocContract.Proofs.Schema.Forest
import DocContract.Proofs.Schema.Silent
import DocContract.Proofs.Text.Cut
import Mathlib.Data.List.Dedup

/-!
# The documentation of a signature

A signature can be documented by repeating it: a tag for each parameter, property, generic and kind
of error and one for the result, with nested fields for the fields of types, as optional as they are
and without their types. When the names of the signature can be written in a comment, this
documentation can be written and read back, and its paths are those of the signature.
-/

namespace DocContract

open Text

/-! ### Writing down a signature -/

mutual
/-- The entry of a field, with the fields of its type below it. -/
def Field.toTag (kind : TagKind) (word : Text) (depth : Nat) : Field → Tag
  | ⟨name, type, optional⟩ =>
    { Tag.ofKind kind 0 0 with
      name? := some name
      description := word
      optional
      depth
      children := typeTags word (depth + 1) type }

/-- The entries of the fields of a type. -/
def typeTags (word : Text) (depth : Nat) : Option TypeRef → List Tag
  | none => []
  | some ⟨_, fields, _⟩ => fieldTags .property word depth fields

/-- The entries of fields, one field after the other. -/
def fieldTags (kind : TagKind) (word : Text) (depth : Nat) : List Field → List Tag
  | [] => []
  | f :: fs => f.toTag kind word depth :: fieldTags kind word depth fs
end

/-- An entry that has a name only. -/
def Tag.named (kind : TagKind) (word name : Text) : Tag :=
  { Tag.ofKind kind 0 0 with name? := some name, description := word }

/-- The entry of a result. -/
def TypeRef.toTag (word : Text) (t : TypeRef) : Tag :=
  { Tag.ofKind .return 0 0 with
    description := word, children := fieldTags .property word 1 t.fields }

namespace Symbol

/-- The entries of a signature, kind by kind. -/
def entryTags (word : Text) (s : Symbol) : List Tag :=
  s.generics.dedup.map (Tag.named .template word)
    ++ (fieldTags .param word 0 (s.parameters.map Parameter.toField)
    ++ (fieldTags .property word 0 s.fields
    ++ (s.returnType?.toList.map (TypeRef.toTag word)
    ++ s.raiseKinds.dedup.map (Tag.named .throws word))))

/-- The documentation of a signature: a brief, then an entry for each of its parts. -/
def documentation (brief word : Text) (s : Symbol) : CommentBlock where
  asyncMarker := s.isAsync
  tags := Paragraph.toBrief ⟨0, 0, brief⟩ :: s.entryTags word

end Symbol

/-! ### Names that can be written -/

/-- A text of word characters. -/
structure IsWordText (t : Text) : Prop where
  nonempty : t ≠ []
  word : ∀ c ∈ t, isWord c = true

instance (t : Text) : Decidable (IsWordText t) :=
  decidable_of_iff (t ≠ [] ∧ t.all isWord = true)
    ⟨fun h => ⟨h.1, List.all_eq_true.mp h.2⟩, fun h => ⟨h.1, List.all_eq_true.mpr h.2⟩⟩

/-- The field is named by a single segment. -/
def Field.IsSegment (f : Field) : Prop := Header.isSegment f.name = true

/-- The names of fields are single segments, which siblings do not share, all the way down. -/
structure WellNamed (fs : List Field) : Prop where
  siblings : (fs.map Field.segment).Nodup
  fields : ∀ f ∈ fs, f.Everywhere fun f =>
    f.IsSegment ∧ ∀ type ∈ f.type?, (type.fields.map Field.segment).Nodup

/-- The names of a signature can be written in a comment. -/
structure Symbol.IsWellNamed (s : Symbol) : Prop where
  parameters : WellNamed (s.parameters.map Parameter.toField)
  fields : WellNamed s.fields
  result : ∀ type ∈ s.returnType?, WellNamed type.fields
  generics : ∀ g ∈ s.generics, Header.isIdentifier g = true
  raiseKinds : ∀ k ∈ s.raiseKinds, IsErrorKind k ∧ contains k closeMark = false

namespace IsWordText

variable {t : Text} (h : IsWordText t)

include h

private theorem not_mem {c : Char} (hc : isWord c = false) : c ∉ t := by
  intro hm
  rw [h.word c hm] at hc
  cases hc

private theorem isTidy : IsTidy t :=
  Header.isTidy_of_solid fun c hc => isBlank_of_isWord (h.word c hc)

/-- A word text is a paragraph. -/
theorem isParagraph : IsParagraph t := by
  refine ⟨h.nonempty, h.isTidy, ?_⟩
  rintro ⟨c, word, rest, rfl, -⟩
  exact h.not_mem (by decide) List.mem_cons_self

private theorem not_leadsWithDash : ¬ LeadsWithDash t := by
  rintro ⟨r, rfl, -⟩
  exact h.not_mem (by decide) List.mem_cons_self

end IsWordText

section Segments

private theorem dropElementMarks_of_not_mem {t : Text} (h : ']' ∉ t) : dropElementMarks t = t := by
  have hgo : dropElementMarks.go t.reverse = t.reverse.reverse := by
    refine dropElementMarks.go.eq_2 _ fun r hr => h ?_
    rw [← List.mem_reverse, hr]
    exact List.mem_cons_self
  rw [dropElementMarks, hgo, List.reverse_reverse]

/-- An element mark at the end does not count. -/
theorem dropElementMarks_append (t : Text) :
    dropElementMarks (t ++ ['[', ']']) = dropElementMarks t := by
  rw [dropElementMarks, List.reverse_append]
  rfl

/-- An identifier holds word characters and dollar signs only. -/
theorem not_mem_identifier {t : Text} (h : Header.isIdentifier t = true) {c : Char}
    (hc : isIdentTail c = false) : c ∉ t := by
  intro hm
  rw [Header.isIdentTail_of_mem h hm] at hc
  cases hc

/-- A single segment is an identifier with an element marker or without. -/
theorem isSegment_cases {t : Text} (h : Header.isSegment t = true) :
    Header.isIdentifier (dropElementMarks t) = true
      ∧ (t = dropElementMarks t ∨ t = dropElementMarks t ++ ['[', ']']) := by
  have hdrop : ∀ ident : Text, Header.isIdentifier ident = true → dropElementMarks ident = ident :=
    fun ident hident => dropElementMarks_of_not_mem (not_mem_identifier hident (by decide))
  rcases Header.dropElementMark_eq t with he | he
  · have hident : Header.isIdentifier t = true := he ▸ h
    rw [hdrop t hident]
    exact ⟨hident, .inl rfl⟩
  · have hmarks : dropElementMarks t = Header.dropElementMark t := by
      rw [he, dropElementMarks_append, ← he]
      exact hdrop _ h
    rw [hmarks]
    exact ⟨h, .inr he⟩

private theorem not_mem_segment {t : Text} (h : Header.isSegment t = true) {c : Char}
    (hc : isIdentTail c = false) (hmark : c ∉ ['[', ']']) : c ∉ t := by
  obtain ⟨hident, he | he⟩ := isSegment_cases h
  · rw [he]
    exact not_mem_identifier hident hc
  · rw [he, List.mem_append]
    exact not_or.mpr ⟨not_mem_identifier hident hc, hmark⟩

private theorem Field.IsSegment.hasSegment {f : Field} (h : f.IsSegment) : f.HasSegment := by
  refine ⟨fun he => ?_, not_mem_segment h (by decide) (by decide)⟩
  have hident := (isSegment_cases h).1
  rw [show dropElementMarks f.name = [] from he] at hident
  cases hident

private theorem Field.IsSegment.isName {f : Field} (h : f.IsSegment) :
    Header.isName f.name = true := by
  rw [Header.isName, splitOn_of_not_mem h.hasSegment.2, List.all_cons, h]
  rfl

/-- A single segment is a key of its own. -/
theorem ownKey_name {f : Field} (h : f.HasSegment) : ownKey f.name = f.segment := by
  have hne : dropElementMarks f.name ≠ [] := h.1
  rw [ownKey, pathSegments, splitOn_of_not_mem h.2]
  simp [hne, join, Field.segment]

/-- Well-named fields have distinct names. -/
theorem WellNamed.distinctlyNamed {fs : List Field} (h : WellNamed fs) : DistinctlyNamed fs :=
  ⟨h.siblings, fun f hf => (h.fields f hf).mono fun _ hg =>
    ⟨hg.1.hasSegment, hg.2⟩⟩

private theorem WellNamed.segments {fs : List Field} (h : WellNamed fs) :
    ∀ f ∈ fs, f.Everywhere Field.IsSegment :=
  fun f hf => (h.fields f hf).mono fun _ hg => hg.1

/-- Well-named fields have a segment each, at every depth. -/
theorem WellNamed.hasSegment {fs : List Field} (h : WellNamed fs) :
    ∀ f ∈ fs, f.Everywhere Field.HasSegment :=
  fun f hf => (h.segments f hf).mono fun _ hg => hg.hasSegment

end Segments

/-! ### The documentation repeats the paths -/

section Paths

variable {word : Text}

mutual
private theorem outline_toTag {kind : TagKind} {depth start : Nat} {parent? : Option Nat}
    {above : Text} :
    ∀ {f : Field}, f.Everywhere Field.HasSegment →
      (docPathsOf above (f.toTag kind word depth)).map DocPath.outline
        = (pathsOfField start parent? above f).map SignaturePath.outline
  | ⟨name, type, optional⟩, h => by
    have hkey : ownKey name = dropElementMarks name := ownKey_name h.own
    rw [Field.toTag, docPathsOf, pathsOfField, hkey]
    exact congrArg (_ :: ·) (outline_typeTags h.inner)

private theorem outline_typeTags {depth start parent : Nat} {above : Text} :
    ∀ {t : Option TypeRef}, (∀ type ∈ t, ∀ g ∈ type.fields, g.Everywhere Field.HasSegment) →
      (docPathsBelow above (typeTags word depth t)).map DocPath.outline
        = (pathsOfType start parent above t).map SignaturePath.outline
  | none, _ => rfl
  | some ⟨_, _, _⟩, h => outline_fieldTags (h _ rfl)

/-- The tags of some fields are documented under the paths of the fields. -/
theorem outline_fieldTags {kind : TagKind} {depth start : Nat} {parent? : Option Nat}
    {above : Text} : ∀ {fs : List Field}, (∀ f ∈ fs, f.Everywhere Field.HasSegment) →
      (docPathsBelow above (fieldTags kind word depth fs)).map DocPath.outline
        = (pathsOfFields start parent? above fs).map SignaturePath.outline
  | [], _ => rfl
  | f :: fs, h => by
    obtain ⟨hf, hfs⟩ := List.forall_mem_cons.mp h
    rw [fieldTags, docPathsBelow, pathsOfFields, List.map_append, List.map_append,
      outline_toTag hf, outline_fieldTags hfs]
end

end Paths

/-! ### The documentation can be written -/

/-- The tag is read back from its lines, and none of them closes the block. -/
structure Tag.IsWritable (c : Convention) (t : Tag) : Prop where
  expressible : t.IsExpressible c
  settled : t.IsSettled
  unclosed : ∀ l ∈ t.tagLines c, contains l closeMark = false

section Written

variable {word : Text}

/-- The header of a field that is written down. -/
theorem header_toTag (hw : IsWordText word) (kind : TagKind) (depth : Nat) {f : Field}
    (h : f.IsSegment) :
    (∃ name, (f.toTag kind word depth).header.name? = some name ∧ Header.isName name = true)
      ∧ (f.toTag kind word depth).header.type? = none
      ∧ IsTidy (f.toTag kind word depth).header.description := by
  obtain ⟨name, type, optional⟩ := f
  exact ⟨⟨name, rfl, h.isName⟩, rfl, hw.isTidy⟩

/-- The lines that a field is written with hold no star. -/
theorem star_not_mem_toTag (hw : IsWordText word) {kind : TagKind} (depth n : Nat) {f : Field}
    (h : f.IsSegment) (hk : kind = .param ∨ kind = .property) :
    '*' ∉ Tag.fieldLine .dashPlus n (f.toTag kind word depth)
      ∧ '*' ∉ (f.toTag kind word depth).headLine := by
  obtain ⟨name, type, optional⟩ := f
  have hname : '*' ∉ name := not_mem_segment h (by decide) (by decide)
  have hword : '*' ∉ word := hw.not_mem (by decide)
  have hsymbol : '*' ≠ (Marker.ofDepth n).symbol := by
    cases Marker.ofDepth n <;> decide
  rw [Tag.fieldLine_eq]
  rcases hk with rfl | rfl <;> cases optional <;>
    simp [Tag.headLine, Tag.fieldContent, Tag.flaggedName, Tag.nameText, Tag.typeClause,
      Tag.fieldEnd, withDash, withText, dashed, Field.toTag, Tag.ofKind, hw.nonempty, hword, hname,
      hsymbol]

mutual
private theorem written_toTag (hw : IsWordText word) (depth : Nat) : ∀ {f : Field},
    f.Everywhere Field.IsSegment → (f.toTag .property word depth).IsField .dashPlus depth
      ∧ ∀ l ∈ Tag.fieldLines .dashPlus depth (f.toTag .property word depth), '*' ∉ l
  | ⟨name, type, optional⟩, h => by
    obtain ⟨hname, htype, hd⟩ := header_toTag hw .property depth h.own
    obtain ⟨hfields, hlines⟩ := written_typeTags hw (depth + 1) h.inner
    refine ⟨.intro rfl rfl ⟨hname, ?_, hd⟩ rfl hfields, List.forall_mem_cons.mpr ⟨?_, hlines⟩⟩
    · rw [htype]
      nofun
    · exact (star_not_mem_toTag hw depth depth h.own (.inr rfl)).1

private theorem written_typeTags (hw : IsWordText word) (depth : Nat) : ∀ {t : Option TypeRef},
    (∀ type ∈ t, ∀ g ∈ type.fields, g.Everywhere Field.IsSegment) →
    (∀ child ∈ typeTags word depth t, child.IsField .dashPlus depth)
      ∧ ∀ l ∈ Tag.childLines .dashPlus depth (typeTags word depth t), '*' ∉ l
  | none, _ => ⟨List.forall_mem_nil _, List.forall_mem_nil _⟩
  | some ⟨_, _, _⟩, h => written_fieldTags hw depth (h _ rfl)

private theorem written_fieldTags (hw : IsWordText word) (depth : Nat) : ∀ {fs : List Field},
    (∀ f ∈ fs, f.Everywhere Field.IsSegment) →
    (∀ child ∈ fieldTags .property word depth fs, child.IsField .dashPlus depth)
      ∧ ∀ l ∈ Tag.childLines .dashPlus depth (fieldTags .property word depth fs), '*' ∉ l
  | [], _ => ⟨List.forall_mem_nil _, List.forall_mem_nil _⟩
  | f :: fs, h => by
    obtain ⟨hf, hfs⟩ := List.forall_mem_cons.mp h
    obtain ⟨hfield, hline⟩ := written_toTag hw depth hf
    obtain ⟨hfields, hlines⟩ := written_fieldTags hw depth hfs
    exact ⟨List.forall_mem_cons.mpr ⟨hfield, hfields⟩, List.forall_mem_append.mpr ⟨hline, hlines⟩⟩
end

/-- Apart from errors, an entry without a star in its lines is settled and does not close the
block. -/
theorem isWritable_of_star {t : Tag} (h : t.IsExpressible .dashPlus) (hthrows : t.kind ≠ .throws)
    (hs : t.snippet? = none) (hstar : ∀ l ∈ t.tagLines .dashPlus, '*' ∉ l) :
    t.IsWritable .dashPlus where
  expressible := h
  settled := ⟨fun hk => absurd hk hthrows, fun hk => absurd hk hthrows, by simp [hs]⟩
  unclosed := fun l hl => contains_closeMark_of_not_mem (hstar l hl)

variable (hw : IsWordText word)

include hw

/-- A field at the top can be written. -/
theorem isWritable_toTag {kind : TagKind} (hk : kind = .param ∨ kind = .property) {f : Field}
    (h : f.Everywhere Field.IsSegment) : (f.toTag kind word 0).IsWritable .dashPlus := by
  obtain ⟨hname, htype, hd⟩ := header_toTag hw kind 0 h.own
  have hline := (star_not_mem_toTag hw 0 0 h.own hk).2
  obtain ⟨hfields, hlines⟩ := written_typeTags hw 1 h.inner
  obtain ⟨name, type, optional⟩ := f
  have hplaces : kind.HasPlaces (Field.toTag kind word 0 ⟨name, type, optional⟩).header := by
    rcases hk with rfl | rfl <;> exact ⟨hname, by rw [htype]; nofun⟩
  rcases hk with rfl | rfl <;>
    exact isWritable_of_star ⟨nofun, rfl, ⟨hplaces, hd⟩, rfl, hfields, nofun⟩ nofun rfl
      (List.forall_mem_cons.mpr ⟨hline, hlines⟩)

/-- Fields at the top can be written. -/
theorem isWritable_fieldTags {kind : TagKind} (hk : kind = .param ∨ kind = .property)
    {fs : List Field} (h : ∀ f ∈ fs, f.Everywhere Field.IsSegment) :
    ∀ t ∈ fieldTags kind word 0 fs, t.IsWritable .dashPlus := by
  induction fs with
  | nil => exact List.forall_mem_nil _
  | cons f fs ih =>
    obtain ⟨hf, hfs⟩ := List.forall_mem_cons.mp h
    exact List.forall_mem_cons.mpr ⟨isWritable_toTag hw hk hf, ih hfs⟩

/-- The entry of a result can be written. -/
theorem isWritable_result {type : TypeRef} (h : ∀ f ∈ type.fields, f.Everywhere Field.IsSegment) :
    (type.toTag word).IsWritable .dashPlus := by
  obtain ⟨hfields, hlines⟩ := written_fieldTags hw 1 h
  have hstar : '*' ∉ word := hw.not_mem (by decide)
  refine isWritable_of_star ⟨nofun, rfl, ⟨⟨nofun, fun _ => rfl, nofun⟩, hw.isTidy⟩, rfl, hfields,
    nofun⟩ nofun rfl (List.forall_mem_cons.mpr ⟨?_, hlines⟩)
  simp [Tag.headLine, TypeRef.toTag, withDash, withText, Tag.ofKind, hw.nonempty, hstar]

/-- The entry of a generic can be written. -/
theorem isWritable_template {name : Text} (h : Header.isIdentifier name = true) :
    (Tag.named .template word name).IsWritable .dashPlus := by
  have hname : '*' ∉ name := not_mem_identifier h (by decide)
  have hstar : '*' ∉ word := hw.not_mem (by decide)
  refine isWritable_of_star ⟨nofun, rfl, ⟨⟨⟨name, rfl, h⟩, rfl, nofun⟩, hw.isTidy⟩, rfl,
    List.forall_mem_nil _, fun _ => rfl⟩ nofun rfl (List.forall_mem_singleton.mpr ?_)
  simp [Tag.headLine, Tag.named, withDash, withText, Tag.nameText, Tag.ofKind, hw.nonempty, hstar,
    hname]

/-- The entry of an error can be written when its kind does not close the block. -/
theorem isWritable_throws {kind : Text} (h : IsErrorKind kind)
    (hopen : contains kind closeMark = false) :
    (Tag.named .throws word kind).IsWritable .dashPlus where
  expressible := ⟨nofun, rfl, ⟨⟨by rintro _ ⟨⟩; exact h, rfl, rfl⟩, hw.isTidy⟩, rfl,
    List.forall_mem_nil _, fun _ => rfl⟩
  settled := ⟨fun _ => rfl, fun _ => hw.not_leadsWithDash, by simp [Tag.named, Tag.ofKind]⟩
  unclosed := by
    have hline : (Tag.named .throws word kind).headLine
        = "@throws ".toList ++ '{' :: (kind ++ '}' :: ' ' :: word) := by
      have hne : word.isEmpty = false := by simpa using hw.nonempty
      simp [Tag.headLine, Tag.named, Tag.ofKind, Tag.nameText, withText, hne]
    refine List.forall_mem_singleton.mpr ?_
    rw [hline]
    refine contains_closeMark_append (by decide) (by decide) (by decide)
      (contains_closeMark_append (by decide) (by decide) hopen ?_)
    exact contains_closeMark_of_not_mem (List.not_mem_cons_of_ne_of_not_mem (by decide)
      (hw.not_mem (by decide)))

end Written

namespace Symbol

variable {s : Symbol} (hs : s.IsWellNamed) {brief word : Text} (hb : IsWordText brief)
  (hw : IsWordText word)

include hs hw

private theorem isWritable_entryTags : ∀ t ∈ s.entryTags word, t.IsWritable .dashPlus := by
  refine List.forall_mem_append.mpr ⟨?_, List.forall_mem_append.mpr ⟨?_,
    List.forall_mem_append.mpr ⟨?_, List.forall_mem_append.mpr ⟨?_, ?_⟩⟩⟩⟩
  · refine List.forall_mem_map.mpr fun g hg => ?_
    exact isWritable_template hw (hs.generics g (List.mem_dedup.mp hg))
  · exact isWritable_fieldTags hw (.inl rfl) hs.parameters.segments
  · exact isWritable_fieldTags hw (.inr rfl) hs.fields.segments
  · refine List.forall_mem_map.mpr fun type ht => ?_
    exact isWritable_result hw (hs.result type (by simpa using ht)).segments
  · refine List.forall_mem_map.mpr fun k hk => ?_
    obtain ⟨hkind, hopen⟩ := hs.raiseKinds k (List.mem_dedup.mp hk)
    exact isWritable_throws hw hkind hopen

include hb

/-- The documentation is read back from its written form. -/
theorem isCanonical_documentation : (s.documentation brief word).IsCanonical .dashPlus := by
  have hentries := isWritable_entryTags hs hw
  have hbrief : Tag.IsBrief (Paragraph.toBrief ⟨0, 0, brief⟩) :=
    ⟨rfl, rfl, ⟨⟨rfl, rfl, rfl⟩, hb.isTidy⟩, hb.isParagraph, rfl, rfl⟩
  refine ⟨⟨?_, fun t ht => (hentries t ht).expressible, List.forall_mem_nil _, nofun⟩, ?_⟩
  · rintro t ⟨⟩
    exact hbrief
  · exact List.forall_mem_cons.mpr ⟨hbrief.isSettled, fun t ht => (hentries t ht).settled⟩

/-- No line of the documentation closes the block. -/
theorem unclosed_documentation :
    ∀ l ∈ (s.documentation brief word).interiorLines .dashPlus, contains l closeMark = false := by
  intro l hl
  obtain ⟨tail, ht, -, hi⟩ := CommentBlock.interiorLines_eq .dashPlus (s.documentation brief word)
  rw [hi, List.append_assoc, List.mem_append, List.mem_append] at hl
  rcases hl with hl | hl | hl
  · rcases mem_of_mem_intersperse hl with hl | rfl
    · rw [List.mem_singleton.mp hl]
      exact contains_closeMark_of_not_mem (hb.not_mem (by decide))
    · rfl
  · rw [ht l hl]
    rfl
  · rw [CommentBlock.markedLines, List.mem_append] at hl
    rcases hl with hl | hl
    · split at hl
      · rw [List.mem_singleton.mp hl]
        decide
      · cases hl
    · obtain ⟨t, htag, hl⟩ := List.mem_flatMap.mp hl
      rcases List.mem_cons.mp htag with rfl | htag
      · cases hl
      · exact (isWritable_entryTags hs hw t htag).unclosed l hl

end Symbol

end DocContract
