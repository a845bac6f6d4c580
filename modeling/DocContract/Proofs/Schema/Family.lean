import DocContract.Proofs.Lists
import DocContract.Proofs.Schema.Contract

/-!
# Families of paths

The check holds three families of documented paths against the paths of the signature. What the
report about a path says can be read back: that a path is missing, or unknown, is reported exactly
when the comparison of its family finds it.
-/

namespace DocContract

open Text

/-! ### What a report says -/

namespace SchemaFinding

/-- The family of the path that a finding is about. -/
def family? : SchemaFinding → Option PathFamily
  | .pathTwice family _ => some family
  | .pathMissing family _ => some family
  | .pathUnknown family _ => some family
  | .optionality family _ _ => some family
  | .typeRepeated family _ _ => some family
  | .typeUnresolved family _ => some family
  | _ => none

private theorem quoted_append_inj {t u rest : Text} (h : quoted t ++ rest = quoted u ++ rest) :
    t = u := by
  have hquoted := List.append_cancel_right h
  rw [quoted, quoted] at hquoted
  exact List.append_cancel_left (List.append_cancel_right hquoted)

variable {f : SchemaFinding} {family : PathFamily} {key symbol : Text} {language : Language}

private theorem message_pathMissing (family : PathFamily) (key symbol : Text)
    (language : Language) :
    (pathMissing family key).message symbol language
      = (family.noun ++ " ")
        ++ (quoted key ++ (" of " ++ quoted symbol ++ " is not documented")) := by
  have hassoc : ∀ a b c d e f : Text,
      a ++ b ++ c ++ d ++ e ++ f = a ++ b ++ (c ++ (d ++ e ++ f)) := by simp
  exact hassoc _ _ _ _ _ _

private theorem message_pathUnknown (family : PathFamily) (key symbol : Text)
    (language : Language) :
    (pathUnknown family key).message symbol language
      = (family.noun ++ " ") ++ (quoted key ++ (" does not exist on " ++ quoted symbol)) := by
  have hassoc : ∀ a b c d e : Text, a ++ b ++ c ++ d ++ e = a ++ b ++ (c ++ (d ++ e)) := by
    simp
  exact hassoc _ _ _ _ _

/-- The code and the wording of a missing path tell its family and its key. -/
theorem eq_pathMissing (hcode : f.code = (pathMissing family key).code)
    (hmessage : f.message symbol language = (pathMissing family key).message symbol language) :
    f = .pathMissing family key := by
  cases f with
  | pathMissing family' key' =>
    obtain rfl : family' = family := by
      cases family' <;> cases family <;> first | rfl | cases hcode
    rw [message_pathMissing, message_pathMissing] at hmessage
    rw [quoted_append_inj (List.append_cancel_left hmessage)]
  | pathUnknown family' _ => cases family' <;> cases family <;> cases hcode
  | _ => cases family <;> cases hcode

/-- The code and the wording of an unknown path tell its family and its key. -/
theorem eq_pathUnknown (hcode : f.code = (pathUnknown family key).code)
    (hmessage : f.message symbol language = (pathUnknown family key).message symbol language) :
    f = .pathUnknown family key := by
  cases f with
  | pathUnknown family' key' =>
    obtain rfl : family' = family := by
      cases family' <;> cases family <;> first | rfl | cases hcode
    rw [message_pathUnknown, message_pathUnknown] at hmessage
    rw [quoted_append_inj (List.append_cancel_left hmessage)]
  | pathMissing family' _ => cases family' <;> cases family <;> cases hcode
  | _ => cases family <;> cases hcode

end SchemaFinding

/-! ### The findings of one family -/

section Paths

variable {family : PathFamily} {signature : List SignaturePath}

/-- Findings about documented paths belong to the family, and say of none that it is missing. -/
theorem of_mem_documented {docs : List DocPath} {seen : List Nat} {f : Located SchemaFinding}
    (hf : f ∈ documentedFindings family signature seen docs) :
    f.value.family? = some family ∧ ∀ key, f.value ≠ .pathMissing family key := by
  induction docs generalizing seen with
  | nil => cases hf
  | cons d ds ih =>
    have hmatched : ∀ p, f ∈ matchedFindings family d p →
        f.value.family? = some family ∧ ∀ key, f.value ≠ .pathMissing family key := by
      intro p hm
      rw [matchedFindings, List.mem_append] at hm
      rcases hm with hm | hm
      · split at hm
        · cases hm
        · rw [List.mem_singleton.mp hm]
          exact ⟨rfl, fun _ h => by cases h⟩
      · split at hm
        · rw [List.mem_singleton.mp hm]
          exact ⟨rfl, fun _ h => by cases h⟩
        · cases hm
    have hunmatched : f ∈ unmatchedFindings family signature d →
        f.value.family? = some family ∧ ∀ key, f.value ≠ .pathMissing family key := by
      intro hm
      rw [unmatchedFindings, List.mem_append] at hm
      rcases hm with hm | hm <;> split at hm
      · cases hm
      · rw [List.mem_singleton.mp hm]
        exact ⟨rfl, fun _ h => by cases h⟩
      · rw [List.mem_singleton.mp hm]
        exact ⟨rfl, fun _ h => by cases h⟩
      · cases hm
    rw [documentedFindings] at hf
    split at hf
    · exact (List.mem_append.mp hf).elim hunmatched ih
    · refine (List.mem_append.mp hf).elim (fun hm => ?_) ih
      split at hm
      · rw [List.mem_singleton.mp hm]
        exact ⟨rfl, fun _ h => by cases h⟩
      · split at hm
        · cases hm
        · exact hmatched _ hm

/-- A documented path is found to be unknown when no path has its key and the signature could have
one. -/
theorem exists_unknown_iff {docs : List DocPath} {seen : List Nat} {key : Text} :
    (∃ f ∈ documentedFindings family signature seen docs, f.value = .pathUnknown family key)
      ↔ key ∈ docs.map DocPath.key ∧ lastPlace? signature key = none
        ∧ isUnderOpaque signature key = false := by
  induction docs generalizing seen with
  | nil => simp [documentedFindings]
  | cons d ds ih =>
    have hhead : (∃ f ∈ unmatchedFindings family signature d, f.value = .pathUnknown family key)
        ↔ d.key = key ∧ isUnderOpaque signature d.key = false := by
      rw [unmatchedFindings]
      cases isUnderOpaque signature d.key <;> cases d.tag.type?.isNone <;> simp [Tag.finding]
    have hmatched : ∀ p, ¬ ∃ f ∈ matchedFindings family d p, f.value = .pathUnknown family key := by
      rintro p ⟨f, hf, hv⟩
      rw [matchedFindings, List.mem_append] at hf
      rcases hf with hf | hf <;> split at hf
      · cases hf
      · rw [List.mem_singleton.mp hf] at hv
        cases hv
      · rw [List.mem_singleton.mp hf] at hv
        cases hv
      · cases hf
    rw [documentedFindings, List.map_cons, List.mem_cons]
    cases hl : lastPlace? signature d.key with
    | none =>
      simp only [exists_mem_append, hhead, ih]
      constructor
      · rintro (⟨rfl, ho⟩ | ⟨hmem, h⟩)
        · exact ⟨.inl rfl, hl, ho⟩
        · exact ⟨.inr hmem, h⟩
      · rintro ⟨rfl | hmem, h⟩
        · exact .inl ⟨rfl, h.2⟩
        · exact .inr ⟨hmem, h⟩
    | some i =>
      rw [exists_mem_append, ih]
      constructor
      · rintro (⟨f, hf, hv⟩ | ⟨hmem, h⟩)
        · split at hf
          · rw [List.mem_singleton.mp hf] at hv
            cases hv
          · split at hf
            · cases hf
            · exact (hmatched _ ⟨f, hf, hv⟩).elim
        · exact ⟨.inr hmem, h⟩
      · rintro ⟨rfl | hmem, h⟩
        · rw [hl] at h
          cases h.1
        · exact .inr ⟨hmem, h⟩

/-- Findings about missing paths belong to the family and say that paths are missing. -/
theorem of_mem_missing {documented : List Nat} {place : Nat × Nat} {start : Nat}
    {ps : List SignaturePath} {f : Located SchemaFinding}
    (hf : f ∈ missingFindings family signature documented place start ps) :
    ∃ key, f.value = .pathMissing family key := by
  have hall : ∀ f ∈ missingFindings family signature documented place start ps,
      ∃ key, f.value = .pathMissing family key :=
    forall_missing_iff.mpr fun _ p _ => .inr ⟨p.key, rfl⟩
  exact hall f hf

/-- A path is missing when its place is not documented although it had to be. -/
def IsMissing (signature : List SignaturePath) (docs : List DocPath) (i : Nat)
    (p : SignaturePath) : Prop :=
  i ∉ documentedPlaces signature docs ∧ p.optional = false
    ∧ isExpected signature (documentedPlaces signature docs) p = true

private theorem exists_missing_iff {docs : List DocPath} {place : Nat × Nat} {complete : Bool}
    {key : Text} :
    (∃ f ∈ pathFindings family docs signature place complete, f.value = .pathMissing family key)
      ↔ complete = true
        ∧ ∃ i p, signature[i]? = some p ∧ p.key = key ∧ IsMissing signature docs i p := by
  have hdocumented : ¬ ∃ f ∈ documentedFindings family signature [] docs,
      f.value = .pathMissing family key := fun ⟨f, hf, hv⟩ => (of_mem_documented hf).2 key hv
  have hmissing : (∃ f ∈ missingFindings family signature (documentedPlaces signature docs) place 0
      signature, f.value = .pathMissing family key)
        ↔ ∃ i p, signature[i]? = some p ∧ p.key = key ∧ IsMissing signature docs i p := by
    rw [← not_iff_not]
    have hall := @forall_missing_iff family signature (fun f => f.value ≠ .pathMissing family key)
      (documentedPlaces signature docs) place signature 0
    simp only [Nat.zero_add] at hall
    simp only [IsMissing]
    constructor
    · rintro h ⟨i, p, hp, rfl, hnot, hreq, hexp⟩
      rcases hall.mp (fun f hf hv => h ⟨f, hf, hv⟩) i p hp with (hm | hopt | hno) | hne
      · exact hnot hm
      · rw [hreq] at hopt
        cases hopt
      · rw [hexp] at hno
        cases hno
      · exact hne rfl
    · rintro h ⟨f, hf, hv⟩
      refine hall.mpr (fun i p hp => ?_) f hf hv
      by_cases hkey : p.key = key
      · left
        by_contra hnone
        rw [not_or, not_or, Bool.not_eq_true, Bool.not_eq_false] at hnone
        exact h ⟨i, p, hp, hkey, hnone⟩
      · exact .inr fun he => hkey (SchemaFinding.pathMissing.inj he).2
  rw [pathFindings]
  cases complete with
  | false => simpa using hdocumented
  | true =>
    simp only [if_pos, exists_mem_append, hdocumented, false_or, hmissing, true_and]

private theorem exists_unknown_paths_iff {docs : List DocPath} {place : Nat × Nat} {complete : Bool}
    {key : Text} :
    (∃ f ∈ pathFindings family docs signature place complete, f.value = .pathUnknown family key)
      ↔ key ∈ docs.map DocPath.key ∧ lastPlace? signature key = none
        ∧ isUnderOpaque signature key = false := by
  rw [← @exists_unknown_iff family signature docs [] key, pathFindings]
  simp only [exists_mem_append, or_iff_left_iff_imp]
  rintro ⟨f, hf, hv⟩
  split at hf
  · obtain ⟨key', hv'⟩ := of_mem_missing hf
    rw [hv'] at hv
    cases hv
  · cases hf

end Paths

/-! ### The families of a check -/

namespace SchemaCheck

/-- The fields of the signature that a family is about. -/
def fieldsOf (c : SchemaCheck) : PathFamily → List Field
  | .parameter => c.symbol.parameters.map Parameter.toField
  | .property => c.symbol.fields
  | .returnField =>
    match c.symbol.returnType? with
    | none => []
    | some type => type.fields

/-- The tags that document the paths of a family; for the result, those below its first tag. -/
def entriesOf (c : SchemaCheck) : PathFamily → List Tag
  | .parameter => c.block.tagsOf .param
  | .property => c.block.tagsOf .property
  | .returnField =>
    match c.block.tagsOf .return with
    | [] => []
    | t :: _ => t.children

/-- Do the paths of a family have to be documented? -/
def requires (c : SchemaCheck) : PathFamily → Bool
  | .parameter => true
  | .property => true
  | .returnField =>
    !(c.block.tagsOf .return).isEmpty && c.symbol.returnType?.any fun t => !t.documentedElsewhere

/-- The paths of the signature that a family is about. -/
def signatureOf (c : SchemaCheck) (family : PathFamily) : List SignaturePath :=
  fieldPaths (c.fieldsOf family)

/-- In the signature of a family every path stands behind its parent. -/
theorem parentsFirst_signatureOf (c : SchemaCheck) (family : PathFamily) :
    ParentsFirst (c.signatureOf family) :=
  parentsFirst_fieldPaths (c.fieldsOf family)

/-- The keys that the comment documents in a family. -/
def keysOf (c : SchemaCheck) (family : PathFamily) : List Text :=
  documentedKeys (c.entriesOf family)

/-- The findings about the paths of a family. -/
def familyFindings (c : SchemaCheck) : PathFamily → List (Located SchemaFinding)
  | .parameter => c.parameterFindings
  | .property => c.propertyFindings
  | .returnField =>
    match c.block.tagsOf .return, c.symbol.returnType? with
    | t :: _, some type => returnFieldFindings t type
    | _, _ => []

/-- The check reports a finding: a diagnostic has its code and its wording. -/
def Reports (c : SchemaCheck) (file : Path) (f : SchemaFinding) : Prop :=
  ∃ d ∈ c.run file, d.code = f.code ∧ d.message = f.message c.symbol.name c.language

variable {c : SchemaCheck} {file : Path} {family : PathFamily} {key : Text}

/-- The findings about the paths of a family compare its keys with its signature, unless there is
nothing to compare with. -/
theorem familyFindings_cases (c : SchemaCheck) (family : PathFamily) :
    (∃ place, c.familyFindings family
      = pathFindings family (docPaths (c.entriesOf family)) (c.signatureOf family) place
        (c.requires family))
      ∨ c.fieldsOf family = [] ∧ c.familyFindings family = [] := by
  cases family with
  | parameter => exact .inl ⟨c.anchor, rfl⟩
  | property => exact .inl ⟨c.anchor, rfl⟩
  | returnField =>
    simp only [familyFindings, entriesOf, requires, signatureOf, fieldsOf]
    cases c.symbol.returnType? with
    | none => exact .inr ⟨rfl, by cases c.block.tagsOf .return <;> rfl⟩
    | some type =>
      cases c.block.tagsOf .return with
      | nil => exact .inl ⟨(0, 0), rfl⟩
      | cons t extra =>
        by_cases hfields : type.fields = []
        · exact .inr ⟨hfields, by simp [returnFieldFindings, hfields]⟩
        · exact .inl ⟨(t.line, t.column), by simp [returnFieldFindings, hfields]⟩

/-- Each comparison of paths is about its own family. -/
theorem family?_of_mem_paths {signature : List SignaturePath} {docs : List DocPath}
    {place : Nat × Nat} {complete : Bool} {f : Located SchemaFinding}
    (hf : f ∈ pathFindings family docs signature place complete) :
    f.value.family? = some family := by
  rw [pathFindings, List.mem_append] at hf
  rcases hf with hf | hf
  · exact (of_mem_documented hf).1
  · split at hf
    · obtain ⟨key, hv⟩ := of_mem_missing hf
      rw [hv]
      rfl
    · cases hf

private theorem family?_of_mem {f : Located SchemaFinding} (hf : f ∈ c.familyFindings family) :
    f.value.family? = some family := by
  rcases c.familyFindings_cases family with ⟨place, he⟩ | ⟨-, he⟩ <;> rw [he] at hf
  · exact family?_of_mem_paths hf
  · cases hf

/-- None of the findings is about a path. -/
def NoPaths (fs : List (Located SchemaFinding)) : Prop := ∀ f ∈ fs, f.value.family? = none

private theorem noPaths_append {fs gs : List (Located SchemaFinding)} :
    NoPaths (fs ++ gs) ↔ NoPaths fs ∧ NoPaths gs :=
  List.forall_mem_append

private theorem noPaths_ite {p : Prop} [Decidable p] {f : Located SchemaFinding}
    (h : f.value.family? = none) : NoPaths (if p then [] else [f]) := by
  split
  · exact List.forall_mem_nil _
  · exact List.forall_mem_singleton.mpr h

private theorem noPaths_brief : NoPaths c.briefFindings := by
  refine noPaths_append.mpr ⟨noPaths_ite rfl, noPaths_ite ?_⟩
  change SchemaFinding.family? (if _ then _ else _) = none
  split <;> rfl

private theorem noPaths_templateTags {generics seen : List Text} {tags : List Tag} :
    NoPaths (templateTagFindings generics seen tags) := by
  induction tags generalizing seen with
  | nil => exact List.forall_mem_nil _
  | cons t ts ih =>
    rw [templateTagFindings]
    split
    · exact List.forall_mem_cons.mpr ⟨rfl, ih⟩
    · split
      · exact List.forall_mem_cons.mpr ⟨rfl, ih⟩
      · exact ih

private theorem noPaths_template : NoPaths c.templateFindings :=
  noPaths_append.mpr ⟨noPaths_templateTags, List.forall_mem_map.mpr fun _ _ => rfl⟩

private theorem noPaths_throws : NoPaths c.throwsFindings := by
  refine noPaths_append.mpr ⟨List.forall_mem_map.mpr fun _ _ => rfl, fun f hf => ?_⟩
  obtain ⟨t, -, hf⟩ := List.mem_flatMap.mp hf
  rw [throwsTagFindings] at hf
  split at hf
  · cases hf
  · exact noPaths_ite rfl f hf

private theorem noPaths_usage : NoPaths c.usageFindings := by
  intro f hf
  rcases SchemaFinding.eq_snippet (code_of_mem_usageFindings hf) with h | ⟨tag, h⟩ <;>
  · rw [h]
    rfl

/-- Apart from the fields, nothing that is found about the result is about a path. -/
theorem returnFindings_eq (c : SchemaCheck) :
    ∃ fs, c.returnFindings = fs ++ c.familyFindings .returnField ∧ NoPaths fs := by
  rw [returnFindings, familyFindings]
  cases c.block.tagsOf .return with
  | nil =>
    refine ⟨if c.symbol.returnsValue then [c.lacking .returnMissing] else [],
      (List.append_nil _).symm, ?_⟩
    split
    · exact List.forall_mem_singleton.mpr rfl
    · exact List.forall_mem_nil _
  | cons t extra =>
    have hextra : NoPaths (extra.map fun e => e.finding .returnTwice) :=
      List.forall_mem_map.mpr fun _ _ => rfl
    dsimp only
    rw [returnTagFindings]
    cases c.symbol.returnType? with
    | none => exact ⟨_, rfl, hextra⟩
    | some type =>
      refine ⟨_, (List.append_assoc _ _ _).symm, noPaths_append.mpr ⟨hextra, ?_⟩⟩
      split
      · exact List.forall_mem_singleton.mpr rfl
      · exact List.forall_mem_nil _

/-- What is found about the paths of a family is found in the comparison of that family. -/
theorem mem_findings_iff {f : Located SchemaFinding} (h : f.value.family? = some family) :
    f ∈ c.findings ↔ f ∈ c.familyFindings family := by
  have houtside : ∀ {fs : List (Located SchemaFinding)}, NoPaths fs → f ∉ fs := by
    intro fs hfs hf
    rw [hfs f hf] at h
    cases h
  have hother : ∀ other : PathFamily, f ∈ c.familyFindings other → f ∈ c.familyFindings family := by
    intro other hf
    obtain rfl : other = family := Option.some.inj ((family?_of_mem hf).symm.trans h)
    exact hf
  obtain ⟨fs, hreturn, hfs⟩ := c.returnFindings_eq
  simp only [findings, hreturn, List.mem_append, houtside noPaths_brief, houtside noPaths_template,
    houtside noPaths_throws, houtside noPaths_usage, houtside hfs, or_false, false_or]
  constructor
  · rintro ((hf | hf) | hf)
    · exact hother .parameter hf
    · exact hother .property hf
    · exact hother .returnField hf
  · intro hf
    cases family with
    | parameter => exact .inl (.inl hf)
    | property => exact .inl (.inr hf)
    | returnField => exact .inr hf

/-! ### Reports about paths -/

/-- A finding whose code and wording tell what it is is reported exactly when it is found. -/
theorem reports_iff {f : SchemaFinding}
    (hf : ∀ g : SchemaFinding, g.code = f.code →
      g.message c.symbol.name c.language = f.message c.symbol.name c.language → g = f) :
    c.Reports file f ↔ ∃ g ∈ c.findings, g.value = f := by
  constructor
  · rintro ⟨d, hd, hcode, hmessage⟩
    obtain ⟨g, hg, rfl⟩ := List.mem_map.mp hd
    exact ⟨g, hg, hf g.value hcode hmessage⟩
  · rintro ⟨g, hg, rfl⟩
    exact ⟨c.toDiagnostic file g, List.mem_map_of_mem hg, rfl, rfl⟩

/-- A path is reported missing when its family has to be documented and a path of its key is
missing. -/
theorem reports_missing_iff : c.Reports file (.pathMissing family key)
    ↔ c.requires family = true ∧ ∃ i p, (c.signatureOf family)[i]? = some p ∧ p.key = key
      ∧ IsMissing (c.signatureOf family) (docPaths (c.entriesOf family)) i p := by
  rw [reports_iff fun g => SchemaFinding.eq_pathMissing]
  have hfound : (∃ g ∈ c.findings, g.value = .pathMissing family key)
      ↔ ∃ g ∈ c.familyFindings family, g.value = .pathMissing family key :=
    exists_congr fun g => and_congr_left fun hg => mem_findings_iff (by rw [hg]; rfl)
  rw [hfound]
  rcases c.familyFindings_cases family with ⟨place, he⟩ | ⟨hfields, he⟩
  · rw [he, exists_missing_iff]
  · have hnone : c.signatureOf family = [] := by
      rw [signatureOf, hfields]
      rfl
    simp [he, hnone]

/-- A key is reported unknown when it is documented, no path of the signature has it, and the
signature could have one. -/
theorem reports_unknown_iff (hne : c.fieldsOf family ≠ []) :
    c.Reports file (.pathUnknown family key)
      ↔ key ∈ c.keysOf family ∧ lastPlace? (c.signatureOf family) key = none
        ∧ isUnderOpaque (c.signatureOf family) key = false := by
  rw [reports_iff fun g => SchemaFinding.eq_pathUnknown]
  have hfound : (∃ g ∈ c.findings, g.value = .pathUnknown family key)
      ↔ ∃ g ∈ c.familyFindings family, g.value = .pathUnknown family key :=
    exists_congr fun g => and_congr_left fun hg => mem_findings_iff (by rw [hg]; rfl)
  rw [hfound]
  rcases c.familyFindings_cases family with ⟨place, he⟩ | ⟨hfields, -⟩
  · rw [he, exists_unknown_paths_iff]
    rfl
  · exact absurd hfields hne

end SchemaCheck

end DocContract
