import DocContract.Proofs.Schema.Documented
import DocContract.Proofs.Schema.Languages

/-!
# The contract that the schema check decides

A comment fulfils the contract of a signature when it has a brief, names exactly the generics, and
documents the paths of the parameters, the properties and the result as they should be. The check
finds no error exactly when the contract is fulfilled.
-/

namespace DocContract

open Text

/-- The names that the template tags document; a tag without a name has an empty one. -/
def CommentBlock.templateNames (b : CommentBlock) : List Text :=
  (b.tagsOf .template).map fun t => t.name?.getD []

/-- The keys that tags document, in their order. -/
def documentedKeys (tags : List Tag) : List Text := (docPaths tags).map DocPath.key

/-- The paths of the parameters, of the fields and of the result have keys of their own. -/
structure Symbol.HasDistinctPaths (s : Symbol) : Prop where
  parameters : ((parameterPaths s.parameters).map SignaturePath.key).Nodup
  fields : ((fieldPaths s.fields).map SignaturePath.key).Nodup
  result : ∀ type ∈ s.returnType?, ((fieldPaths type.fields).map SignaturePath.key).Nodup

/-- The keys document the paths of a signature without repetition, invention or omission. -/
structure Documents (signature : List SignaturePath) (keys : List Text) : Prop where
  once : DocumentsOnce signature keys
  known : DocumentsKnown signature keys
  all : DocumentsAll signature keys

namespace SchemaCheck

/-- What a comment has to say about a signature. -/
structure Contract (c : SchemaCheck) : Prop where
  brief : ∃ t rest, c.block.tags = t :: rest ∧ t.kind = .brief ∧ isBlankText t.description = false
  templatesOnce : c.block.templateNames.Nodup
  templates : ∀ name, name ∈ c.block.templateNames ↔ name ∈ c.symbol.generics
  parameters : Documents (parameterPaths c.symbol.parameters)
    (documentedKeys (c.block.tagsOf .param))
  properties : Documents (fieldPaths c.symbol.fields) (documentedKeys (c.block.tagsOf .property))
  oneResult : (c.block.tagsOf .return).length ≤ 1
  result : c.symbol.returnsValue = true → c.block.tagsOf .return ≠ []
  /-- Unknown fields of the result are no error, and a type that is documented elsewhere need not
  be expanded. -/
  resultFields : ∀ t ∈ (c.block.tagsOf .return).head?, ∀ type ∈ c.symbol.returnType?,
    DocumentsOnce (fieldPaths type.fields) (documentedKeys t.children)
      ∧ (type.documentedElsewhere = false →
        DocumentsAll (fieldPaths type.fields) (documentedKeys t.children))

variable {c : SchemaCheck}

/-! ### The brief -/

/-- A comment has a brief when its first tag is one with a text. -/
theorem hasBrief_iff : c.hasBrief = true
    ↔ ∃ t rest, c.block.tags = t :: rest ∧ t.kind = .brief ∧ isBlankText t.description = false := by
  unfold hasBrief CommentBlock.brief?
  constructor
  · intro h
    split at h
    · cases h
    · next t rest htags =>
      split at h
      · next hk => exact ⟨t, rest, htags, hk, by simpa using h⟩
      · cases h
  · rintro ⟨t, rest, htags, hk, hb⟩
    rw [htags]
    dsimp only
    rw [if_pos hk, Option.any_some, hb]
    rfl

/-- The findings about the brief hold no error when there is a brief. -/
theorem noErrors_brief : NoErrors c.briefFindings ↔ c.hasBrief = true := by
  have hasync : NoErrors (if c.symbol.isAsync = c.block.asyncMarker then []
      else [c.lacking (if c.symbol.isAsync then .asyncMissing else .asyncUnexpected)]) := by
    split
    · exact noErrors_nil
    · apply noErrors_singleton.mpr
      change SchemaFinding.isError (if _ then _ else _) = false
      split <;> rfl
  rw [briefFindings, noErrors_append]
  constructor
  · rintro ⟨h, -⟩
    cases hb : c.hasBrief with
    | true => rfl
    | false =>
      rw [hb] at h
      cases noErrors_singleton.mp h
  · intro h
    refine ⟨?_, hasync⟩
    rw [if_pos h]
    exact noErrors_nil

/-! ### The templates -/

/-- The template tags that are checked one after the other name generics that no earlier tag
names. -/
theorem noErrors_templateTags {generics seen : List Text} {tags : List Tag} :
    NoErrors (templateTagFindings generics seen tags)
      ↔ (tags.map fun t => t.name?.getD []).Nodup
        ∧ ∀ name ∈ tags.map fun t => t.name?.getD [], name ∈ generics ∧ name ∉ seen := by
  induction tags generalizing seen with
  | nil => simp [templateTagFindings, noErrors_nil]
  | cons t ts ih =>
    rw [templateTagFindings, List.map_cons, List.nodup_cons, List.forall_mem_cons]
    have hcons : ∀ f fs, f.isError = true → ¬ NoErrors (t.finding f :: fs) := by
      intro f fs hf h
      have := h _ List.mem_cons_self
      rw [show (t.finding f).value = f from rfl, hf] at this
      cases this
    by_cases hg : t.name?.getD [] ∈ generics
    · by_cases hs : t.name?.getD [] ∈ seen
      · rw [if_neg (by simpa using hg), if_pos (by simpa using hs)]
        exact ⟨fun h => absurd h (hcons _ _ rfl), fun h => absurd hs h.2.1.2⟩
      · rw [if_neg (by simpa using hg), if_neg (by simpa using hs), ih]
        constructor
        · rintro ⟨hn, hall⟩
          refine ⟨⟨fun hm => (hall _ hm).2 List.mem_cons_self, hn⟩, ⟨hg, hs⟩, fun name hm => ?_⟩
          have := hall name hm
          exact ⟨this.1, fun h => this.2 (List.mem_cons_of_mem _ h)⟩
        · rintro ⟨⟨hnew, hn⟩, -, hall⟩
          refine ⟨hn, fun name hm => ⟨(hall name hm).1, fun h => ?_⟩⟩
          rcases List.mem_cons.mp h with rfl | h
          · exact hnew hm
          · exact (hall name hm).2 h
    · rw [if_pos (by simpa using hg)]
      exact ⟨fun h => absurd h (hcons _ _ rfl), fun h => absurd h.2.1.1 hg⟩

/-- The sorted set of some texts has the same members. -/
theorem mem_sortedSet {ts : List Text} {t : Text} : t ∈ sortedSet ts ↔ t ∈ ts := by
  rw [sortedSet, List.mem_mergeSort, List.mem_eraseDups]

/-- A template is missing for each generic that no tag names. -/
theorem noErrors_missingTemplates {generics documented : List Text} :
    NoErrors (((sortedSet generics).filter fun g => !documented.contains g).map fun g =>
        c.lacking (.templateMissing g))
      ↔ ∀ name ∈ generics, name ∈ documented := by
  constructor
  · intro h name hname
    by_cases hd : name ∈ documented
    · exact hd
    · have hm : name ∈ (sortedSet generics).filter fun g => !documented.contains g :=
        List.mem_filter.mpr ⟨mem_sortedSet.mpr hname, by simpa using hd⟩
      cases h _ (List.mem_map_of_mem hm)
  · intro h f hf
    obtain ⟨name, hm, -⟩ := List.mem_map.mp hf
    obtain ⟨hname, hd⟩ := List.mem_filter.mp hm
    have := h name (mem_sortedSet.mp hname)
    simp [this] at hd

private theorem noErrors_templates : NoErrors c.templateFindings
    ↔ c.block.templateNames.Nodup
      ∧ ∀ name, name ∈ c.block.templateNames ↔ name ∈ c.symbol.generics := by
  rw [templateFindings, noErrors_append, noErrors_templateTags, noErrors_missingTemplates,
    and_assoc, ← CommentBlock.templateNames]
  apply and_congr_right
  intro _
  constructor
  · rintro ⟨hgen, hdoc⟩ name
    exact ⟨fun h => (hgen name h).1, hdoc name⟩
  · intro h
    exact ⟨fun name hm => ⟨(h name).mp hm, List.not_mem_nil⟩, fun name => (h name).mpr⟩

/-! ### The result, the errors and the usage -/

private theorem noErrors_returnFields {t : Tag} {type : TypeRef}
    (hd : ((fieldPaths type.fields).map SignaturePath.key).Nodup) :
    NoErrors (returnFieldFindings t type)
      ↔ DocumentsOnce (fieldPaths type.fields) (documentedKeys t.children)
        ∧ (type.documentedElsewhere = false →
          DocumentsAll (fieldPaths type.fields) (documentedKeys t.children)) := by
  rw [returnFieldFindings]
  split
  · next he =>
    -- A type without fields has no paths, so nothing can be repeated or omitted.
    have hnone : fieldPaths type.fields = [] := by
      rw [List.isEmpty_iff.mp he]
      rfl
    rw [hnone]
    exact ⟨fun _ => ⟨nofun, fun _ => nofun⟩, fun _ => noErrors_nil⟩
  · rw [noErrors_paths hd (parentsFirst_fieldPaths _), documentedKeys, Bool.not_eq_true']
    constructor
    · rintro ⟨honce, -, hall⟩
      exact ⟨honce, hall⟩
    · rintro ⟨honce, hall⟩
      exact ⟨honce, .inl rfl, hall⟩

private theorem noErrors_returnTag {t : Tag} :
    NoErrors (c.returnTagFindings t)
      ↔ ∀ type ∈ c.symbol.returnType?, NoErrors (returnFieldFindings t type) := by
  rw [returnTagFindings]
  cases c.symbol.returnType? with
  | none => simp [noErrors_nil]
  | some type =>
    have hrepeated : NoErrors (if t.type?.isSome && !isBlankText type.text then
        [t.finding (.returnTypeRepeated type.text)] else []) := by
      split
      · exact noErrors_singleton.mpr rfl
      · exact noErrors_nil
    dsimp only
    rw [noErrors_append]
    constructor
    · rintro ⟨-, h⟩ type' htype
      cases htype
      exact h
    · intro h
      exact ⟨hrepeated, h type rfl⟩

private theorem noErrors_return (hd : c.symbol.HasDistinctPaths) :
    NoErrors c.returnFindings
      ↔ (c.block.tagsOf .return).length ≤ 1
        ∧ (c.symbol.returnsValue = true → c.block.tagsOf .return ≠ [])
        ∧ ∀ t ∈ (c.block.tagsOf .return).head?, ∀ type ∈ c.symbol.returnType?,
          DocumentsOnce (fieldPaths type.fields) (documentedKeys t.children)
            ∧ (type.documentedElsewhere = false →
              DocumentsAll (fieldPaths type.fields) (documentedKeys t.children)) := by
  rw [returnFindings]
  cases c.block.tagsOf .return with
  | nil =>
    cases c.symbol.returnsValue with
    | false => simp [noErrors_nil]
    | true => simp [noErrors_singleton, lacking, SchemaFinding.isError, SchemaFinding.code,
        DiagnosticCode.severity]
  | cons t extra =>
    have hextra : NoErrors (extra.map fun e => e.finding .returnTwice)
        ↔ (t :: extra).length ≤ 1 := by
      cases extra with
      | nil => simp [noErrors_nil]
      | cons e es =>
        simp only [List.map_cons, List.length_cons]
        constructor
        · intro h
          cases h _ List.mem_cons_self
        · intro h
          omega
    have htag : NoErrors (c.returnTagFindings t) ↔ ∀ type ∈ c.symbol.returnType?,
        DocumentsOnce (fieldPaths type.fields) (documentedKeys t.children)
          ∧ (type.documentedElsewhere = false →
            DocumentsAll (fieldPaths type.fields) (documentedKeys t.children)) := by
      rw [noErrors_returnTag]
      exact forall₂_congr fun type htype => noErrors_returnFields (hd.result type htype)
    simp [noErrors_append, hextra, htag]

private theorem noErrors_throws : NoErrors c.throwsFindings := by
  rw [throwsFindings, noErrors_append]
  constructor
  · intro f hf
    obtain ⟨k, -, rfl⟩ := List.mem_map.mp hf
    rfl
  · intro f hf
    obtain ⟨t, -, hf⟩ := List.mem_flatMap.mp hf
    unfold throwsTagFindings at hf
    split at hf
    · cases hf
    · split at hf
      · cases hf
      · rw [List.mem_singleton.mp hf]
        rfl

private theorem noErrors_usage : NoErrors c.usageFindings := by
  intro f hf
  rw [SchemaFinding.isError, code_of_mem_usageFindings hf]
  rfl

/-! ### The whole check -/

private theorem noErrors_documents {family : PathFamily} {signature : List SignaturePath}
    {tags : List Tag}
    {place : Nat × Nat} (hd : (signature.map SignaturePath.key).Nodup)
    (hf : ParentsFirst signature) (he : family.unknownCode.severity = .error) :
    NoErrors (pathFindings family (docPaths tags) signature place true)
      ↔ Documents signature (documentedKeys tags) := by
  rw [noErrors_paths hd hf, he, ← documentedKeys]
  constructor
  · rintro ⟨honce, hknown, hall⟩
    exact ⟨honce, hknown.resolve_left nofun, hall rfl⟩
  · rintro ⟨honce, hknown, hall⟩
    exact ⟨honce, .inr hknown, fun _ => hall⟩

private theorem noErrors_findings (hd : c.symbol.HasDistinctPaths) :
    NoErrors c.findings ↔ c.Contract := by
  have hparameters : NoErrors c.parameterFindings ↔ _ :=
    noErrors_documents hd.parameters (parentsFirst_fieldPaths _) rfl
  have hproperties : NoErrors c.propertyFindings ↔ _ :=
    noErrors_documents hd.fields (parentsFirst_fieldPaths _) rfl
  simp only [findings, noErrors_append, noErrors_brief, hasBrief_iff, noErrors_templates,
    hparameters, hproperties, noErrors_return hd, noErrors_throws, noErrors_usage, and_true]
  constructor
  · rintro ⟨⟨⟨⟨hbrief, honce, hnames⟩, hparameters⟩, hproperties⟩, hone, hresult, hfields⟩
    exact ⟨hbrief, honce, hnames, hparameters, hproperties, hone, hresult, hfields⟩
  · intro h
    exact ⟨⟨⟨⟨h.brief, h.templatesOnce, h.templates⟩, h.parameters⟩, h.properties⟩, h.oneResult,
      h.result, h.resultFields⟩

/-- A diagnostic of the check has the severity of its finding. -/
theorem forall_run_iff {file : Path} :
    (∀ d ∈ c.run file, d.severity ≠ .error) ↔ NoErrors c.findings := by
  rw [run, List.forall_mem_map]
  apply forall₂_congr
  intro f _
  change f.value.code.severity ≠ .error ↔ (f.value.code.severity == .error) = false
  simp

/-- The schema check reports no error exactly when the comment fulfils the contract. -/
theorem run_noErrors_iff (hd : c.symbol.HasDistinctPaths) (file : Path) :
    (∀ d ∈ c.run file, d.severity ≠ .error) ↔ c.Contract := by
  rw [forall_run_iff, noErrors_findings hd]

/-- A function with nested options and a result whose fields are documented elsewhere. -/
def fetchExample : SchemaCheck where
  language := .typescript
  symbol :=
    { kind := .function
      name := "fetch"
      parameters :=
        [⟨"options", some ⟨"", [⟨"retry", some ⟨"", [⟨"limit", none, false⟩], false⟩, false⟩,
            ⟨"cache", some ⟨"Cache", [⟨"size", none, false⟩], true⟩, false⟩], false⟩, false⟩]
      returnType? := some ⟨"Page", [⟨"body", none, false⟩], true⟩
      generics := ["T"]
      declarationLine := 9 }
  block :=
    { startLine := 1
      tags :=
        [{ Tag.ofKind .brief 1 4 with description := "Fetches a page." },
          { Tag.ofKind .template 2 4 with name? := some "T" },
          { Tag.ofKind .param 3 4 with
            name? := some "options"
            children :=
              [{ Tag.ofKind .param 4 6 with name? := some "retry.limit", depth := 1 },
                { Tag.ofKind .param 5 6 with name? := some "retry", depth := 1 },
                { Tag.ofKind .param 6 6 with name? := some "cache", depth := 1 }] },
          Tag.ofKind .return 7 4] }

/-- All options are documented; the fields of the cache and of the result need not be. -/
theorem contract_fetchExample : fetchExample.symbol.HasDistinctPaths ∧ fetchExample.Contract := by
  have hd : fetchExample.symbol.HasDistinctPaths :=
    ⟨by decide +kernel, by decide +kernel, by decide +kernel⟩
  exact ⟨hd, (run_noErrors_iff hd []).mp (by decide +kernel)⟩

end SchemaCheck

end DocContract
