import DocContract.Proofs.TestFile.Fragments
import DocContract.Proofs.TestFile.OneCase
import DocContract.Proofs.TestFile.Setup

/-!
# Conventions for test files that find the same

Two conventions find the same in every test file exactly when they agree about three things: the
kind of each statement, the titles that name a negative path, and the names of flow files. They need
not have the same words or the same pattern for that. Each of the three shows in the findings of
files that are written for it: an empty file shows its name, a flow with one case shows the title,
and any file with a suite in front of it shows the kinds of its statements.
-/

namespace DocContract

open Text

namespace TestLayout

/-- Two conventions agree about every test file. -/
structure Alike (layout layout' : TestLayout) : Prop where
  kinds : ∀ t, ∀ f ∈ fragments (maskComments t),
    classify layout.dbKeywords f.text = classify layout'.dbKeywords f.text
  negative : ∀ c : TestCase,
    c.isNegative layout.negativeKeywords = c.isNegative layout'.negativeKeywords
  naming : ∀ file, Outline.flowNaming layout.flowPattern file
    = Outline.flowNaming layout'.flowPattern file

variable {layout layout' : TestLayout}

/-! ### Conventions that agree -/

private theorem toDiagnostic_congr (h : layout.gapSeverity = layout'.gapSeverity) (file : Path) :
    layout.toDiagnostic file = layout'.toDiagnostic file := by
  funext p
  unfold toDiagnostic
  rw [h]

private theorem Alike.outline (h : layout.Alike layout') (t : Text) :
    outline layout.dbKeywords t = outline layout'.dbKeywords t := by
  unfold DocContract.outline
  exact congrArg Outline.mk
    (List.map_congr_left fun f hf => f.toStatement_eq _ _ (h.kinds t f hf))

private theorem flowGaps_congr (h : ∀ c : TestCase,
    c.isNegative layout.negativeKeywords = c.isNegative layout'.negativeKeywords) (o : Outline) :
    o.flowGaps layout.negativeKeywords = o.flowGaps layout'.negativeKeywords := by
  have hcase : ∀ (c : TestCase) (k : FlowCase),
      c.isFlowCase layout.negativeKeywords k = c.isFlowCase layout'.negativeKeywords k := by
    intro c k
    cases k <;> simp only [TestCase.isFlowCase, h]
  unfold Outline.flowGaps
  simp only [hcase]

private theorem flowGaps_suites {o o' : Outline} (h : o.suites = o'.suites) (keywords : List Text) :
    o.flowGaps keywords = o'.flowGaps keywords := by
  unfold Outline.flowGaps
  rw [h]

private theorem Alike.flowFindings (h : layout.Alike layout') (o : Outline) (file : Path) :
    o.flowFindings layout file = o.flowFindings layout' file := by
  unfold Outline.flowFindings
  rw [h.naming, flowGaps_congr h.negative]

private theorem Alike.findings (h : layout.Alike layout') (u : TestUnit)
    (source? : Option SourceUnit) : layout.findings u source? = layout'.findings u source? := by
  unfold TestLayout.findings
  simp only [h.outline, h.flowFindings]

/-! ### Files that show what conventions agree about -/

/-- A file in the layout of a flow. -/
def flowFile (path : Path) (text : Text) : TestUnit where
  path := path
  text := text
  language := .typescript
  kind? := some .integration

private theorem validate_flowFile (layout : TestLayout) (path : Path) (text : Text) :
    layout.validate (flowFile path text) none
      = ((outline layout.dbKeywords text).strayCases
        ++ (Outline.flowNaming layout.flowPattern path
          ++ (outline layout.dbKeywords text).flowOrder
          ++ (outline layout.dbKeywords text).flowGaps layout.negativeKeywords)).map
        (layout.toDiagnostic path) := rfl

/-- In an empty file only its name can be wrong. -/
theorem validate_empty (layout : TestLayout) (path : Path) :
    layout.validate (flowFile path []) none
      = (Outline.flowNaming layout.flowPattern path).map (layout.toDiagnostic path) := by
  have hfindings : layout.findings (flowFile path []) none
      = Outline.flowNaming layout.flowPattern path ++ [] ++ [] := rfl
  rw [validate, hfindings, List.append_nil, List.append_nil]
  rfl

/-- The case that a flow with one case lacks. -/
def lackingCase (layout : TestLayout) (c : TestCase) : FlowCase :=
  if c.isNegative layout.negativeKeywords then .happy else .negative

/-- A flow with one case lacks the other one. -/
theorem validate_oneCase (layout : TestLayout) (path : Path) (title : Text) :
    layout.validate (flowFile path (oneCase title)) none
      = (Outline.flowNaming layout.flowPattern path
          ++ [PlacedFinding.mk {} (.flowGap none [layout.lackingCase ⟨title, 1⟩]) none]).map
        (layout.toDiagnostic path) := by
  have hgaps : Outline.flowGaps ⟨[⟨.suite, {}, none, [⟨title, 1⟩]⟩]⟩ layout.negativeKeywords
      = [⟨{}, .flowGap none [layout.lackingCase ⟨title, 1⟩], none⟩] := by
    unfold Outline.flowGaps Outline.suites lackingCase
    cases hneg : TestCase.isNegative layout.negativeKeywords ⟨title, 1⟩ <;>
      simp [TestCase.isFlowCase, hneg]
  have hstray : Outline.strayCases ⟨[⟨.suite, {}, none, [⟨title, 1⟩]⟩]⟩ = [] := rfl
  have horder : Outline.flowOrder ⟨[⟨.suite, {}, none, [⟨title, 1⟩]⟩]⟩ = [] := rfl
  rw [validate_flowFile, outline_oneCase, hgaps, hstray, horder, List.nil_append, List.append_nil]

private theorem flowGap_inj {k k' : FlowCase}
    (h : (LayoutFinding.flowGap none [k]).message = (LayoutFinding.flowGap none [k']).message) :
    k = k' := by
  cases k with
  | happy =>
    cases k' with
    | happy => rfl
    | negative => exact absurd h (by decide)
  | negative =>
    cases k' with
    | happy => exact absurd h (by decide)
    | negative => rfl

private theorem lackingCase_inj {c : TestCase} (h : layout.lackingCase c = layout'.lackingCase c) :
    c.isNegative layout.negativeKeywords = c.isNegative layout'.negativeKeywords := by
  unfold lackingCase at h
  cases hn : c.isNegative layout.negativeKeywords <;>
    cases hn' : c.isNegative layout'.negativeKeywords <;> simp_all

section Shown

variable (hgap : layout.gapSeverity = layout'.gapSeverity)
  (h : ∀ u source?, layout.validate u source? = layout'.validate u source?)

include h

private theorem naming_of_validate (file : Path) : Outline.flowNaming layout.flowPattern file
    = Outline.flowNaming layout'.flowPattern file := by
  have hsame := h (flowFile file []) none
  rw [validate_empty, validate_empty] at hsame
  unfold Outline.flowNaming at hsame ⊢
  dsimp only at hsame ⊢
  split at hsame
  · next haccepts =>
    split at hsame
    · next haccepts' => rw [if_pos haccepts, if_pos haccepts']
    · cases hsame
  · next hrejects =>
    split at hsame
    · cases hsame
    · next hrejects' =>
      have hmessage := congrArg Diagnostic.message (List.cons.inj hsame).1
      have hpattern : layout.flowPattern.text = layout'.flowPattern.text :=
        List.append_cancel_left (List.append_cancel_right (List.append_cancel_left hmessage))
      rw [if_neg hrejects, if_neg hrejects', hpattern]

include hgap

private theorem negative_of_validate (c : TestCase) :
    c.isNegative layout.negativeKeywords = c.isNegative layout'.negativeKeywords := by
  have hsame := h (flowFile [] (oneCase c.title)) none
  rw [validate_oneCase, validate_oneCase, naming_of_validate h, toDiagnostic_congr hgap,
    List.map_append, List.map_append] at hsame
  exact lackingCase_inj (flowGap_inj
    (congrArg Diagnostic.message (List.cons.inj (List.append_cancel_left hsame)).1))

private theorem kinds_of_validate (t : Text) : ∀ f ∈ fragments (maskComments t),
    classify layout.dbKeywords f.text = classify layout'.dbKeywords f.text := by
  obtain ⟨fs, hfragments, htexts⟩ := fragments_emptySuite (maskComments t)
  have houtline : ∀ words, outline words (emptySuite ++ t)
      = ⟨Fragment.toStatement words ⟨{}, emptySuite⟩ :: fs.map (Fragment.toStatement words)⟩ := by
    intro words
    rw [outline, maskComments_emptySuite, hfragments, List.map_cons]
  have hsame := h (flowFile [] (emptySuite ++ t)) none
  rw [validate_flowFile, validate_flowFile, naming_of_validate h, toDiagnostic_congr hgap,
    strayCases_outline _ layout'.dbKeywords, flowGaps_congr (negative_of_validate hgap h),
    flowGaps_suites (suites_outline layout.dbKeywords layout'.dbKeywords (emptySuite ++ t))]
    at hsame
  simp only [List.map_append, List.append_assoc] at hsame
  have horder := List.append_cancel_right (List.append_cancel_left (List.append_cancel_left hsame))
  rw [houtline, houtline] at horder
  have hkinds := kinds_of_flowOrder horder
  intro f hf
  have hmem : f.text ∈ fs.map Fragment.text := htexts ▸ List.mem_map_of_mem hf
  obtain ⟨g, hg, htext⟩ := List.mem_map.mp hmem
  rw [← htext]
  exact hkinds g hg

end Shown

/-- Conventions find the same in every test file exactly when they agree about the kinds of
statements, the titles of negative paths and the names of flow files. -/
theorem validate_eq_iff (hgap : layout.gapSeverity = layout'.gapSeverity) :
    (∀ u source?, layout.validate u source? = layout'.validate u source?)
      ↔ layout.Alike layout' := by
  refine ⟨fun h => ⟨kinds_of_validate hgap h, negative_of_validate hgap h,
    naming_of_validate h⟩, fun h u source? => ?_⟩
  rw [validate, validate, h.findings, toDiagnostic_congr hgap]

end TestLayout

end DocContract
