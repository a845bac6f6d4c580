import DocContract.Proofs.Comment.Unwarned
import DocContract.Proofs.DocBlock.Rendered
import DocContract.Proofs.Schema.Contract
import DocContract.Proofs.Schema.Documentation

/-!
# Every well named signature is documentable

A signature that is documented by repeating it passes all checks without a finding: the written
documentation is found above the declaration, read without a defect, and held against the signature
path by path. So no check is in the way of a complete documentation, and none warns of it.
-/

namespace DocContract

open Text

/-! ### Content at other places -/

/-- What does not depend on places is the same for the same tags at other places. -/
theorem map_eq_of_unplaced {α : Type} {f : Tag → α} (hf : ∀ t, f t.unplaced = f t)
    {ts us : List Tag} (h : ts.map Tag.unplaced = us.map Tag.unplaced) : ts.map f = us.map f := by
  have hmap : ∀ ts : List Tag, (ts.map Tag.unplaced).map f = ts.map f := fun ts => by
    rw [List.map_map]
    exact List.map_congr_left fun t _ => hf t
  rw [← hmap ts, h, hmap us]

private theorem CommentBlock.SameContent.tagsOf {a b : CommentBlock} (h : a.SameContent b)
    (kind : TagKind) : (a.tagsOf kind).map Tag.unplaced = (b.tagsOf kind).map Tag.unplaced := by
  have hmap : ∀ ts : List Tag, (ts.filter fun t => t.kind == kind).map Tag.unplaced
      = (ts.map Tag.unplaced).filter fun t => t.kind == kind := by
    intro ts
    rw [List.filter_map]
    congr 1
    refine List.filter_congr fun t _ => ?_
    rw [Function.comp_apply, Tag.unplaced_eq]
  rw [CommentBlock.tagsOf, CommentBlock.tagsOf, hmap, hmap, h.tags]

mutual
/-- The outlines of the paths of a tag do not depend on its place. -/
theorem outline_unplaced (above : Text) : ∀ t : Tag,
    (docPathsOf above t.unplaced).map DocPath.outline = (docPathsOf above t).map DocPath.outline
  | ⟨_, none, _, _, _, _, _, _, _, _⟩ => rfl
  | ⟨_, some _, _, _, _, _, _, _, _, children⟩ =>
    congrArg (_ :: ·) (outline_unplacedAll _ children)

private theorem outline_unplacedAll (above : Text) : ∀ ts : List Tag,
    (docPathsBelow above (Tag.unplacedAll ts)).map DocPath.outline
      = (docPathsBelow above ts).map DocPath.outline
  | [] => rfl
  | t :: ts => by
    rw [Tag.unplacedAll, docPathsBelow, docPathsBelow, List.map_append, List.map_append,
      outline_unplaced above t, outline_unplacedAll above ts]
end

/-- The same tags at other places have paths of the same outlines. -/
theorem outline_eq_of_unplaced {ts us : List Tag}
    (h : ts.map Tag.unplaced = us.map Tag.unplaced) :
    (docPaths ts).map DocPath.outline = (docPaths us).map DocPath.outline := by
  rw [← Tag.unplacedAll_eq_map, ← Tag.unplacedAll_eq_map] at h
  rw [docPaths, docPaths, ← outline_unplacedAll, h, outline_unplacedAll]

/-! ### The tags of the documentation -/

private theorem kind_toTag (kind : TagKind) (word : Text) (depth : Nat) (f : Field) :
    (f.toTag kind word depth).kind = kind := by
  obtain ⟨name, type, optional⟩ := f
  rfl

private theorem kind_fieldTags {kind : TagKind} {word : Text} {depth : Nat} {fs : List Field} :
    ∀ t ∈ fieldTags kind word depth fs, t.kind = kind := by
  induction fs with
  | nil => exact List.forall_mem_nil _
  | cons f fs ih => exact List.forall_mem_cons.mpr ⟨kind_toTag kind word depth f, ih⟩

/-- Of tags of one kind, those of a kind are all or none. -/
theorem filter_kind {ts : List Tag} {kind : TagKind} (h : ∀ t ∈ ts, t.kind = kind)
    (wanted : TagKind) :
    ts.filter (fun t => t.kind == wanted) = if kind = wanted then ts else [] := by
  split
  · next he =>
    exact List.filter_eq_self.mpr fun t ht => beq_iff_eq.mpr ((h t ht).trans he)
  · next hne =>
    exact List.filter_eq_nil_iff.mpr fun t ht => by
      rw [h t ht, beq_iff_eq]
      exact hne

/-- The tags of each kind in the documentation of a signature. -/
theorem Symbol.tagsOf_documentation (brief word : Text) (s : Symbol) (kind : TagKind) :
    (s.documentation brief word).tagsOf kind = match kind with
      | .brief => [Paragraph.toBrief ⟨0, 0, brief⟩]
      | .template => s.generics.dedup.map (Tag.named .template word)
      | .param => fieldTags .param word 0 (s.parameters.map Parameter.toField)
      | .property => fieldTags .property word 0 s.fields
      | .return => s.returnType?.toList.map (TypeRef.toTag word)
      | .throws => s.raiseKinds.dedup.map (Tag.named .throws word)
      | .usage => [] := by
  have hnamed : ∀ (kind : TagKind) (names : List Text),
      ∀ t ∈ names.map (Tag.named kind word), t.kind = kind :=
    fun kind names => List.forall_mem_map.mpr fun _ _ => rfl
  have hresult : ∀ t ∈ s.returnType?.toList.map (TypeRef.toTag word), t.kind = .return :=
    List.forall_mem_map.mpr fun _ _ => rfl
  have hbrief : ∀ t ∈ [Paragraph.toBrief ⟨0, 0, brief⟩], t.kind = .brief :=
    List.forall_mem_singleton.mpr rfl
  have htags : (s.documentation brief word).tags
      = [Paragraph.toBrief ⟨0, 0, brief⟩] ++ s.entryTags word := rfl
  rw [CommentBlock.tagsOf, htags, entryTags, List.filter_append, List.filter_append,
    List.filter_append, List.filter_append, List.filter_append, filter_kind hbrief,
    filter_kind (hnamed .template _), filter_kind kind_fieldTags, filter_kind kind_fieldTags,
    filter_kind hresult, filter_kind (hnamed .throws _)]
  cases kind <;> simp

/-! ### The checks -/

/-- Templates that name generics, each of them once, are as they should be. -/
theorem SchemaCheck.templateTagFindings_eq_nil {generics seen : List Text} {tags : List Tag}
    (honce : (tags.map fun t => t.name?.getD []).Nodup)
    (hnames : ∀ name ∈ tags.map fun t => t.name?.getD [], name ∈ generics ∧ name ∉ seen) :
    templateTagFindings generics seen tags = [] := by
  induction tags generalizing seen with
  | nil => rfl
  | cons t ts ih =>
    obtain ⟨hnew, honce⟩ := List.nodup_cons.mp honce
    obtain ⟨⟨hgeneric, hseen⟩, hnames⟩ := List.forall_mem_cons.mp hnames
    rw [templateTagFindings, if_neg (by simpa using hgeneric), if_neg (by simpa using hseen)]
    refine ih honce fun name hname => ⟨(hnames name hname).1, fun hm => ?_⟩
    rcases List.mem_cons.mp hm with rfl | hm
    · exact hnew hname
    · exact (hnames name hname).2 hm

/-- Fields of a result that repeat those of its type are as they should be. -/
theorem SchemaCheck.returnFieldFindings_eq_nil {t : Tag} {type : TypeRef} {word : Text}
    (hwell : WellNamed type.fields) (hchildren : t.children.map Tag.unplaced
      = (fieldTags .property word 1 type.fields).map Tag.unplaced) :
    returnFieldFindings t type = [] := by
  rw [returnFieldFindings]
  split
  · rfl
  · refine pathFindings_eq_nil (nodup_fieldPaths hwell.distinctlyNamed) ?_
    rw [outline_eq_of_unplaced hchildren]
    exact outline_fieldTags hwell.hasSegment

namespace SchemaCheck

variable {c : SchemaCheck} {brief word : Text} (hs : c.symbol.IsWellNamed)
  (hsame : (c.symbol.documentation brief word).SameContent c.block)

include hsame

/-- What the tags of a kind say apart from their places. -/
theorem map_tagsOf {α : Type} {f : Tag → α} (hf : ∀ t, f t.unplaced = f t) (kind : TagKind) :
    (c.block.tagsOf kind).map f = ((c.symbol.documentation brief word).tagsOf kind).map f :=
  (map_eq_of_unplaced hf (hsame.tagsOf kind)).symm

private theorem briefFindings_eq_nil (hb : IsWordText brief) : c.briefFindings = [] := by
  have hhas : c.hasBrief = true := by
    refine hasBrief_iff.mpr ?_
    obtain ⟨t, rest, htags, ht, -⟩ := List.map_eq_cons_iff.mp hsame.tags.symm
    rw [Tag.unplaced_eq, Tag.unplaced_eq] at ht
    refine ⟨t, rest, htags, congrArg Tag.kind ht, ?_⟩
    rw [congrArg Tag.description ht]
    exact isBlankText_paragraph hb.isParagraph
  have hasync : c.symbol.isAsync = c.block.asyncMarker := hsame.asyncMarker
  rw [briefFindings, if_pos hhas, if_pos hasync]
  rfl

private theorem templateFindings_eq_nil : c.templateFindings = [] := by
  have hnames : (c.block.tagsOf .template).map (fun t => t.name?.getD [])
      = c.symbol.generics.dedup := by
    rw [map_tagsOf hsame (fun t => by rw [Tag.unplaced_eq]), Symbol.tagsOf_documentation]
    simp [Tag.named, Function.comp_def]
  have honce : (c.symbol.generics.dedup).Nodup := List.nodup_dedup _
  rw [templateFindings, hnames, templateTagFindings_eq_nil (by rwa [hnames]) fun name hm => ?_]
  · simp only [List.nil_append, List.map_eq_nil_iff, List.filter_eq_nil_iff]
    intro g hg
    simpa [List.mem_dedup] using mem_sortedSet.mp hg
  · rw [hnames, List.mem_dedup] at hm
    exact ⟨hm, List.not_mem_nil⟩

private theorem throwsFindings_eq_nil : c.throwsFindings = [] := by
  have hnames : (c.block.tagsOf .throws).map Tag.name?
      = c.symbol.raiseKinds.dedup.map some := by
    rw [map_tagsOf hsame (fun t => by rw [Tag.unplaced_eq]), Symbol.tagsOf_documentation,
      List.map_map]
    rfl
  have hkinds : (c.block.tagsOf .throws).filterMap Tag.name? = c.symbol.raiseKinds.dedup := by
    have := congrArg (List.filterMap id) hnames
    rwa [List.filterMap_map, List.filterMap_map, Function.id_comp, Function.id_comp,
      List.filterMap_some] at this
  have hmissing : (sortedSet c.symbol.raiseKinds).filter
      (fun k => !c.symbol.raiseKinds.dedup.contains k) = [] := by
    refine List.filter_eq_nil_iff.mpr fun k hk => ?_
    simpa [List.mem_dedup] using mem_sortedSet.mp hk
  have hunused : (c.block.tagsOf .throws).flatMap (throwsTagFindings c.symbol.raiseKinds) = [] := by
    refine List.flatMap_eq_nil_iff.mpr fun t ht => ?_
    have hname := hnames ▸ List.mem_map_of_mem (f := Tag.name?) ht
    obtain ⟨k, hk, hname⟩ := List.mem_map.mp hname
    rw [throwsTagFindings, ← hname]
    exact if_pos (by simpa using hk)
  rw [throwsFindings, hkinds, hmissing, hunused]
  rfl

private theorem usageFindings_eq_nil : c.usageFindings = [] := by
  have hnone : c.block.tagsOf .usage = [] := by
    have := hsame.tagsOf .usage
    rw [Symbol.tagsOf_documentation] at this
    exact List.map_eq_nil_iff.mp this.symm
  rw [usageFindings, hnone]
  rfl

/-- The outlines of the documented paths are those of the entries. -/
theorem outline_tagsOf (kind : TagKind) : (docPaths (c.block.tagsOf kind)).map DocPath.outline
    = (docPaths ((c.symbol.documentation brief word).tagsOf kind)).map DocPath.outline :=
  (outline_eq_of_unplaced (hsame.tagsOf kind)).symm

include hs

private theorem parameterFindings_eq_nil : c.parameterFindings = [] := by
  refine pathFindings_eq_nil (nodup_fieldPaths hs.parameters.distinctlyNamed) ?_
  rw [outline_tagsOf hsame, Symbol.tagsOf_documentation]
  exact outline_fieldTags hs.parameters.hasSegment

private theorem propertyFindings_eq_nil : c.propertyFindings = [] := by
  refine pathFindings_eq_nil (nodup_fieldPaths hs.fields.distinctlyNamed) ?_
  rw [outline_tagsOf hsame, Symbol.tagsOf_documentation]
  exact outline_fieldTags hs.fields.hasSegment

private theorem returnFindings_eq_nil : c.returnFindings = [] := by
  have htags := hsame.tagsOf .return
  rw [Symbol.tagsOf_documentation] at htags
  rw [returnFindings]
  cases htype : c.symbol.returnType? with
  | none =>
    rw [htype] at htags
    rw [List.map_eq_nil_iff.mp htags.symm]
    simp [Symbol.returnsValue, htype]
  | some type =>
    rw [htype] at htags
    obtain ⟨t, rest, hrest, ht, hnone⟩ := List.map_eq_cons_iff.mp htags.symm
    rw [Tag.unplaced_eq, Tag.unplaced_eq] at ht
    have hnotype : t.type? = none := congrArg Tag.type? ht
    have hwell := hs.result type (by rw [htype]; rfl)
    have hfields := returnFieldFindings_eq_nil hwell (congrArg Tag.children ht)
    rw [hrest, List.map_eq_nil_iff.mp hnone]
    dsimp only
    rw [List.map_nil, List.nil_append, returnTagFindings, htype]
    dsimp only
    rw [hnotype, hfields]
    rfl

/-- Nothing is found wrong with the documentation of a signature, wherever it stands. -/
theorem run_documentation (hb : IsWordText brief) (file : Path) : c.run file = [] :=
  run_eq_nil_iff.mpr ⟨briefFindings_eq_nil hsame hb, templateFindings_eq_nil hsame,
    parameterFindings_eq_nil hs hsame, propertyFindings_eq_nil hs hsame,
    returnFindings_eq_nil hs hsame, throwsFindings_eq_nil hsame, usageFindings_eq_nil hsame⟩

end SchemaCheck

/-! ### The whole file -/

/-- The default settings accept nested fields that are marked with dashes and pluses. -/
theorem acceptsFields_default : Settings.AcceptsFields {} := ⟨rfl, rfl⟩

/-- A file that holds the documentation of a well named signature above its declaration has no
findings. -/
theorem validateUnit_documentation {f : Symbol} (hs : f.IsWellNamed) {brief word : Text}
    (hb : IsWordText brief) (hw : IsWordText word) {declaration : Text}
    (hline : '\n' ∉ declaration) (hwritten : isBlankText declaration = false)
    (hcode : startsWith (trimStart declaration) "/*" = false) (u : SourceUnit)
    (htext : u.text = (f.documentation brief word).render .dashPlus ++ '\n' :: declaration)
    (hsymbols : u.symbols = [f]) (hdeclared : f.declarationLine = u.lineCount) :
    validateUnit {} u = .ok [] := by
  have hcanonical := Symbol.isCanonical_documentation hs hb hw
  have hopen := Symbol.unclosed_documentation hs hb hw
  obtain ⟨d, hextract, -, htexts, hcolumn⟩ := CommentBlock.exists_extract
    (CommentBlock.areLines_interior hcanonical.expressible) hopen hline hwritten hcode htext
    hsymbols hdeclared
  obtain ⟨herrors, hsame⟩ := CommentBlock.parseBlock_of_isCanonical {} hcanonical htexts hcolumn
  have hwarnings : (parseBlock {} d).warnings = [] :=
    CommentBlock.warnings_interior acceptsFields_default hcanonical.expressible htexts hcolumn
  have hchecked : SchemaCheck.run ⟨u.language, f, (parseBlock {} d).block⟩ u.path = [] :=
    SchemaCheck.run_documentation (c := ⟨u.language, f, (parseBlock {} d).block⟩) hs hsame hb u.path
  rw [validateUnit, hextract]
  simp [Except.map, validateSymbol, checkParsed, herrors, hwarnings, hchecked]

/-- An asynchronous method with nested options, two names for one generic and a result of pages. -/
def fetchAllSymbol : Symbol where
  kind := .method
  name := "fetchAll"
  parameters :=
    [⟨"requests[]", some ⟨"Request[]", [⟨"url", none, false⟩,
        ⟨"retry", some ⟨"Retry", [⟨"limits[]", none, false⟩], true⟩, true⟩], false⟩, false⟩,
      ⟨"url", none, true⟩]
  returnType? := some ⟨"Promise<Page[]>", [⟨"body", none, false⟩, ⟨"next", none, true⟩], true⟩
  generics := ["T", "T"]
  raiseKinds := ["fetch.failed", "not a page", "fetch.failed"]
  isAsync := true
  declarationLine := 17

/-- The method below its documentation. -/
def fetchAllFile : SourceUnit where
  path := "src/fetch.ts"
  text := (fetchAllSymbol.documentation "Fetches" "given").render .dashPlus
    ++ '\n' :: "  async fetchAll<T>(requests, url) \x7b"
  language := .typescript
  symbols := [fetchAllSymbol]

private theorem fetchAllSymbol_isWellNamed : fetchAllSymbol.IsWellNamed := by
  refine ⟨⟨by decide, ?_⟩, ⟨by decide, nofun⟩, ?_, by decide, by decide⟩
  · simp [fetchAllSymbol, Parameter.toField, Field.IsSegment, Field.segment]
    decide
  · rintro type ⟨⟩
    refine ⟨by decide, ?_⟩
    simp [Field.IsSegment]
    decide

/-- Nothing is found wrong with the documented method. -/
theorem validateUnit_fetchAllFile :
    fetchAllSymbol.IsWellNamed ∧ IsWordText "Fetches" ∧ IsWordText "given"
      ∧ fetchAllFile.lineCount = 17 ∧ validateUnit {} fetchAllFile = .ok [] := by
  have hs := fetchAllSymbol_isWellNamed
  have hb : IsWordText "Fetches" := by decide
  have hw : IsWordText "given" := by decide
  have hcount : fetchAllFile.lineCount = 17 := by decide
  exact ⟨hs, hb, hw, hcount, validateUnit_documentation hs hb hw (by decide) (by decide)
    (by decide) fetchAllFile rfl rfl hcount.symm⟩

end DocContract
