import DocContract.Proofs.Schema.Contract
import DocContract.Proofs.Schema.Forest
import DocContract.Proofs.Schema.Silent
import DocContract.Report

/-!
# Removing the entry of a parameter

A comment without findings that loses the entry of a required parameter gets one finding, that this
parameter is missing. The fields below the parameter lose their documentation too, but the field
right below one that is not documented is not expected, and no path outside the entry hangs below
it.
-/

namespace DocContract

open Text

section Paths

variable {family : PathFamily} {signature : List SignaturePath} {place : Nat × Nat}
  (hd : (signature.map SignaturePath.key).Nodup) (hf : ParentsFirst signature)

include hd hf

/-- A path below one that is not documented, nor anything below it, is not expected. -/
theorem isExpected_below {docs : List DocPath} {key : Text} {i : Nat} {q : SignaturePath}
    (hq : signature[i]? = some q) (hlinked : Linked signature q)
    (hnone : ∀ d ∈ docs, ¬ IsWithin key d.key) (habove : IsAbove key q.key) :
    isExpected signature (documentedPlaces signature docs) q = false := by
  rcases hlinked with ⟨-, hroot⟩ | ⟨u, ⟨up, hup, hu⟩, hkey⟩
  · exact absurd habove (not_isAbove_of_keyAbove? hroot)
  · refine (isExpected_eq_false_iff hf hq).mpr (.inl ⟨up, hup, fun hm => ?_⟩)
    obtain ⟨d, hdoc, hdkey⟩ := List.mem_map.mp ((mem_documentedPlaces hd hu).mp hm)
    apply hnone d hdoc
    rw [hdkey]
    exact ((isAbove_iff_of_keyAbove? hkey).mp habove).imp_left Eq.symm

/-- When the documentation of a required root and of everything below it is taken out, the root is
all that is missing. -/
theorem pathFindings_without (hlinked : ∀ q ∈ signature, Linked signature q)
    {front entry back : List DocPath} {p : SignaturePath}
    (hsilent : pathFindings family (front ++ entry ++ back) signature place true = [])
    (hp : p ∈ signature) (hroot : p.parent? = none) (hreq : p.optional = false)
    (hentry : ∀ d ∈ entry, IsWithin p.key d.key) (hhas : p.key ∈ entry.map DocPath.key)
    (hothers : ∀ d ∈ front ++ back, ¬ IsAbove p.key d.key) :
    pathFindings family (front ++ back) signature place true
      = [⟨place.1, place.2, .pathMissing family p.key⟩] := by
  obtain ⟨hfound, hmissing⟩ := List.append_eq_nil_iff.mp hsilent
  obtain ⟨honce, hfine⟩ := documentedFindings_eq_nil_iff.mp hfound
  have hkept : (front ++ back).Sublist (front ++ entry ++ back) :=
    (List.sublist_append_left front entry).append (List.Sublist.refl back)
  have hplaces : (documentedPlaces signature (front ++ back)).Sublist
      (documentedPlaces signature (front ++ entry ++ back)) := hkept.filterMap _
  -- The entry documents the root once, so nothing else does.
  have hnone : ∀ d ∈ front ++ back, ¬ IsWithin p.key d.key := by
    rintro d hmem (hkey | habove)
    · have hcount := (nodup_documentedPlaces hd).mp honce p hp
      have hrest : p.key ∈ (front ++ back).map DocPath.key := List.mem_map.mpr ⟨d, hmem, hkey⟩
      have hpos := List.count_pos_iff.mpr hhas
      have hpos' := List.count_pos_iff.mpr hrest
      simp only [List.map_append, List.count_append] at hcount hpos'
      omega
    · exact hothers d hmem habove
  have hdocumented : documentedFindings family signature [] (front ++ back) = [] :=
    documentedFindings_eq_nil_iff.mpr
      ⟨honce.sublist hplaces, fun d hmem => hfine d (hkept.subset hmem)⟩
  obtain ⟨i, hi⟩ := List.getElem?_of_mem hp
  have hnot : i ∉ documentedPlaces signature (front ++ back) := by
    rw [mem_documentedPlaces hd hi]
    intro hm
    obtain ⟨d, hmem, hkey⟩ := List.mem_map.mp hm
    exact hnone d hmem (.inl hkey)
  have hexpected :
      isExpected signature (documentedPlaces signature (front ++ back)) p = true := by
    rw [isExpected, hroot]
  rw [pathFindings, hdocumented, if_pos rfl, List.nil_append]
  refine missingFindings_eq_singleton hi hnot hreq hexpected fun j q hq hne => ?_
  by_cases habove : IsAbove p.key q.key
  · exact .inr (.inr (isExpected_below hd hf hq (hlinked q (List.mem_of_getElem? hq)) hnone habove))
  have hother : q.key ≠ p.key := by
    intro hkey
    have hj := lastPlace?_eq_some hd hq
    rw [hkey, lastPlace?_eq_some hd hi] at hj
    exact hne (Option.some.inj hj).symm
  rcases missingFindings_eq_nil_iff.mp hmissing j q hq with hm | hopt | hnot
  · refine .inl ((mem_documentedPlaces hd hq).mpr ?_)
    rw [Nat.zero_add, mem_documentedPlaces hd hq] at hm
    obtain ⟨d, hmem, hkey⟩ := List.mem_map.mp hm
    refine List.mem_map.mpr ⟨d, ?_, hkey⟩
    rw [List.append_assoc, List.mem_append, List.mem_append] at hmem
    rcases hmem with hmem | hmem | hmem
    · exact List.mem_append_left _ hmem
    · rcases hentry d hmem with h | h
      · exact absurd (hkey.symm.trans h) hother
      · exact absurd (hkey ▸ h) habove
    · exact List.mem_append_right _ hmem
  · exact .inr (.inl hopt)
  · refine .inr (.inr ((isExpected_eq_false_iff hf hq).mpr ?_))
    refine ((isExpected_eq_false_iff hf hq).mp hnot).imp_left ?_
    rintro ⟨up, hup, hm⟩
    exact ⟨up, hup, fun h => hm (hplaces.subset h)⟩

end Paths

/-! ### The paths of a tag -/

mutual
/-- The paths of a tag have its key or lie below it. -/
theorem under_docPathsOf {above : Text} (ha : above ≠ []) :
    ∀ t : Tag, ∀ d ∈ docPathsOf above t, IsAbove above d.key
  | ⟨_, none, _, _, _, _, _, _, _, _⟩, _, hd => nomatch hd
  | ⟨_, some name, _, _, _, _, _, _, _, children⟩, d, hd => by
    rw [docPathsOf] at hd
    rcases List.mem_cons.mp hd with rfl | hd
    · exact isAbove_joinKey ha
    · have hne : joinKey above (ownKey name) ≠ [] := by
        rw [joinKey_of_ne_nil ha]
        simp
      exact (isAbove_joinKey ha).trans (under_docPathsBelow hne children d hd)

private theorem under_docPathsBelow {above : Text} (ha : above ≠ []) :
    ∀ ts : List Tag, ∀ d ∈ docPathsBelow above ts, IsAbove above d.key
  | [], _, hd => nomatch hd
  | t :: ts, d, hd => by
    rw [docPathsBelow] at hd
    rcases List.mem_append.mp hd with hd | hd
    · exact under_docPathsOf ha t d hd
    · exact under_docPathsBelow ha ts d hd
end

/-- The paths of joined tags are those of the first ones and those of the others. -/
theorem docPathsBelow_append (above : Text) (ts us : List Tag) :
    docPathsBelow above (ts ++ us) = docPathsBelow above ts ++ docPathsBelow above us := by
  induction ts with
  | nil => rfl
  | cons t ts ih => rw [List.cons_append, docPathsBelow, docPathsBelow, ih, List.append_assoc]

/-- The paths of a tag are its own and those of its children below it. -/
theorem docPathsOf_eq {t : Tag} {name above : Text} (h : t.name? = some name) :
    docPathsOf above t = ⟨joinKey above (ownKey name), t⟩
      :: docPathsBelow (joinKey above (ownKey name)) t.children := by
  obtain ⟨kind, name?, description, type?, optional, depth, line, column, snippet?, children⟩ := t
  cases h
  rfl

/-- The key of a tag that stands at the top. -/
def Tag.key? (t : Tag) : Option Text := t.name?.map ownKey

/-- The paths of a tag at the top have its key or lie below it. -/
theorem under_docPathsOf_nil {t : Tag} {key : Text} (hkey : t.key? = some key) (hne : key ≠ []) :
    (∀ d ∈ docPathsOf [] t, IsWithin key d.key) ∧ key ∈ (docPathsOf [] t).map DocPath.key := by
  obtain ⟨name, hname, rfl⟩ := Option.map_eq_some_iff.mp hkey
  rw [docPathsOf_eq hname]
  refine ⟨fun d hd => ?_, List.mem_map.mpr ⟨_, List.mem_cons_self, rfl⟩⟩
  rcases List.mem_cons.mp hd with rfl | hd
  · exact .inl rfl
  · exact .inr (under_docPathsBelow hne t.children d hd)

/-! ### Reports about at most one finding -/

namespace Report

variable {strict : Bool} {unitsChecked : Nat}

private theorem passed_nil : (assemble strict true unitsChecked []).passed = true := by
  simp [assemble, sorted, List.eraseRepsBy]

private theorem passed_singleton {d : Diagnostic} (h : (promote strict d).isError = true) :
    (assemble strict true unitsChecked [d]).passed = false := by
  simp [assemble, sorted, List.eraseRepsBy, List.eraseRepsBy.loop, h]

end Report

/-! ### Comments without a tag -/

/-- The comment with other tags. -/
def SchemaCheck.withTags (c : SchemaCheck) (tags : List Tag) : SchemaCheck :=
  { c with block := { c.block with tags } }

/-- A tag of the comment is the entry of a required parameter, and no other entry reaches below
it. -/
structure SchemaCheck.HasEntry (c : SchemaCheck) (before : List Tag) (t : Tag) (after : List Tag)
    (p : Parameter) : Prop where
  tags : c.block.tags = before ++ t :: after
  kind : t.kind = .param
  key : t.key? = some p.toField.segment
  parameter : p ∈ c.symbol.parameters
  required : p.optional = false
  others : ∀ d ∈ docPaths ((c.withTags (before ++ after)).block.tagsOf .param),
    ¬ IsAbove p.toField.segment d.key

namespace SchemaCheck

variable {c : SchemaCheck} {before after : List Tag} {t : Tag} {p : Parameter}

/-- Only the tags of its own kind lose a tag. -/
theorem HasEntry.tagsOf (h : c.HasEntry before t after p) {kind : TagKind} (hk : kind ≠ .param) :
    (c.withTags (before ++ after)).block.tagsOf kind = c.block.tagsOf kind := by
  have hne : (t.kind == kind) = false := by
    rw [h.kind]
    exact beq_eq_false_iff_ne.mpr hk.symm
  rw [CommentBlock.tagsOf, CommentBlock.tagsOf, h.tags, List.filter_append, List.filter_cons, hne]
  simp [withTags]

/-- The entry of a parameter is not the brief. -/
theorem HasEntry.hasBrief (h : c.HasEntry before t after p) (hbrief : c.hasBrief = true) :
    (c.withTags (before ++ after)).hasBrief = true := by
  obtain ⟨b, rest, htags, hkind, hblank⟩ := hasBrief_iff.mp hbrief
  rw [h.tags] at htags
  cases before with
  | nil =>
    obtain ⟨rfl, -⟩ := List.cons.inj htags
    rw [h.kind] at hkind
    cases hkind
  | cons b' before =>
    obtain ⟨rfl, -⟩ := List.cons.inj htags
    exact hasBrief_iff.mpr ⟨b', before ++ after, rfl, hkind, hblank⟩

/-- What is found about the parameters when the entry is removed. -/
theorem HasEntry.parameterFindings (h : c.HasEntry before t after p)
    (hseg : ∀ q ∈ c.symbol.parameters, q.toField.Everywhere Field.HasSegment)
    (hd : ((parameterPaths c.symbol.parameters).map SignaturePath.key).Nodup)
    (hsilent : c.parameterFindings = []) :
    (c.withTags (before ++ after)).parameterFindings
      = [c.lacking (.pathMissing .parameter p.toField.segment)] := by
  have hfields : ∀ f ∈ c.symbol.parameters.map Parameter.toField,
      f.Everywhere Field.HasSegment := List.forall_mem_map.mpr hseg
  have hmem : p.toField ∈ c.symbol.parameters.map Parameter.toField :=
    List.mem_map_of_mem h.parameter
  obtain ⟨q, hq, hkey, hopt, hroot⟩ := exists_mem_pathsOfFields 0 none [] hmem
  have hkey' : q.key = p.toField.segment := hkey
  obtain ⟨hunder, hhas⟩ := under_docPathsOf_nil h.key (hfields _ hmem).own.1
  rw [← hkey'] at hunder hhas
  have htag : (t.kind == TagKind.param) = true := by rw [h.kind]; rfl
  have hdocs : docPaths (c.block.tagsOf .param)
      = docPaths (before.filter fun t => t.kind == .param) ++ docPathsOf [] t
        ++ docPaths (after.filter fun t => t.kind == .param) := by
    rw [CommentBlock.tagsOf, h.tags, List.filter_append, List.filter_cons, htag, if_pos rfl,
      docPaths, docPathsBelow_append, docPathsBelow, List.append_assoc]
    rfl
  have hrest : docPaths ((c.withTags (before ++ after)).block.tagsOf .param)
      = docPaths (before.filter fun t => t.kind == .param)
        ++ docPaths (after.filter fun t => t.kind == .param) := by
    rw [CommentBlock.tagsOf, withTags, List.filter_append, docPaths, docPathsBelow_append]
    rfl
  have hothers := h.others
  rw [hrest, ← hkey'] at hothers
  rw [SchemaCheck.parameterFindings, hdocs] at hsilent
  rw [SchemaCheck.parameterFindings, hrest, ← hkey']
  exact pathFindings_without hd (parentsFirst_fieldPaths _) (linked_fieldPaths hfields) hsilent hq
    hroot (hopt.trans h.required) hunder hhas hothers

/-- A comment without findings that loses the entry of a required parameter lacks exactly this
parameter, and a report about it does not pass any more. -/
theorem run_withoutEntry {file : Path}
    (hseg : ∀ q ∈ c.symbol.parameters, q.toField.Everywhere Field.HasSegment)
    (hd : ((parameterPaths c.symbol.parameters).map SignaturePath.key).Nodup)
    (hsilent : c.run file = []) (h : c.HasEntry before t after p) :
    (c.withTags (before ++ after)).run file
        = [c.toDiagnostic file (c.lacking (.pathMissing .parameter p.toField.segment))]
      ∧ ∀ strict unitsChecked,
        (Report.assemble strict true unitsChecked (c.run file)).passed = true
          ∧ (Report.assemble strict true unitsChecked
            ((c.withTags (before ++ after)).run file)).passed = false := by
  obtain ⟨hbrief, htemplate, hparam, hproperty, hreturn, hthrows, husage⟩ :=
    run_eq_nil_iff.mp hsilent
  have hfindings : (c.withTags (before ++ after)).findings
      = [c.lacking (.pathMissing .parameter p.toField.segment)] := by
    have hbrief' : (c.withTags (before ++ after)).briefFindings = [] := by
      have hhas : c.hasBrief = true := noErrors_brief.mp (hbrief ▸ noErrors_nil)
      rw [briefFindings, hhas] at hbrief
      rw [briefFindings, h.hasBrief hhas]
      exact hbrief
    have htemplate' : (c.withTags (before ++ after)).templateFindings = [] := by
      rw [← htemplate, templateFindings, templateFindings, h.tagsOf (by decide)]
      rfl
    have hproperty' : (c.withTags (before ++ after)).propertyFindings = [] := by
      rw [← hproperty, propertyFindings, propertyFindings, h.tagsOf (by decide)]
      rfl
    have hreturn' : (c.withTags (before ++ after)).returnFindings = [] := by
      rw [← hreturn, returnFindings, returnFindings, h.tagsOf (by decide)]
      rfl
    have hthrows' : (c.withTags (before ++ after)).throwsFindings = [] := by
      rw [← hthrows, throwsFindings, throwsFindings, h.tagsOf (by decide)]
      rfl
    have husage' : (c.withTags (before ++ after)).usageFindings = [] := by
      rw [← husage, usageFindings, usageFindings, h.tagsOf (by decide)]
      rfl
    rw [findings, hbrief', htemplate', hproperty', hreturn', hthrows', husage',
      h.parameterFindings hseg hd hparam]
    rfl
  have hrun : (c.withTags (before ++ after)).run file
      = [c.toDiagnostic file (c.lacking (.pathMissing .parameter p.toField.segment))] := by
    rw [run, hfindings]
    rfl
  refine ⟨hrun, fun strict unitsChecked => ?_⟩
  rw [hrun, hsilent]
  refine ⟨Report.passed_nil, Report.passed_singleton ?_⟩
  cases strict <;> rfl

/-- The example without its only parameter lacks this parameter and none of the fields below it. -/
theorem run_withoutEntry_fetchExample :
    (fetchExample.withTags
        (fetchExample.block.tags.take 2 ++ fetchExample.block.tags.drop 3)).run []
      = [(Diagnostic.ofCode .paramMissing [] 1 1
          "parameter `options` of `fetch` is not documented").about "fetch@9"] := by
  have hd : ((parameterPaths fetchExample.symbol.parameters).map SignaturePath.key).Nodup := by
    decide +kernel
  have hseg : ∀ q ∈ fetchExample.symbol.parameters, q.toField.Everywhere Field.HasSegment := by
    simp [fetchExample, Parameter.toField, Field.HasSegment, Field.segment]
    decide
  have hentry : fetchExample.HasEntry (fetchExample.block.tags.take 2) fetchExample.block.tags[2]
      (fetchExample.block.tags.drop 3) fetchExample.symbol.parameters[0] :=
    ⟨rfl, rfl, by decide, List.getElem_mem _, rfl, fun _ h => nomatch h⟩
  refine (run_withoutEntry hseg hd (by decide +kernel) hentry).1.trans ?_
  decide +kernel

end SchemaCheck

end DocContract
