import DocContract.Proofs.Schema.Ignored
import DocContract.Proofs.Settings.Fingerprint
import DocContract.Proofs.TestFile.Alike
import DocContract.Settings.Validity

/-!
# What a fingerprint covers

Two valid settings with one fingerprint agree in every option but the three lists and the pattern,
which may be cut apart in another way. So they find the same in all files exactly when they pass
over the same tags and their conventions for test files agree. For lists of plain words that is
always so. It is not so for `a` and `b` against the one word `a,b`.
-/

namespace DocContract

open Text

namespace Settings

variable {s s' : Settings}

private theorem exists_pattern (hs : s.validated = .ok s) :
    ∃ pattern, Pattern.ofText? s.tests.flowFilePattern = some pattern := by
  unfold validated at hs
  split at hs
  · cases hs
  · next hdefect =>
    cases hpattern : Pattern.ofText? s.tests.flowFilePattern with
    | some pattern => exact ⟨pattern, rfl⟩
    | none =>
      rw [defect?, hpattern, Option.isNone_none, if_pos rfl] at hdefect
      split at hdefect
      · cases hdefect
      · split at hdefect <;> cases hdefect

/-- Valid settings give conventions for test files. -/
theorem layout_of_validated (hs : s.validated = .ok s) : ∃ layout,
    TestLayout.ofSettings s = .ok layout
      ∧ layout.gapSeverity = if s.coverageGapIsError then .error else .warning := by
  obtain ⟨pattern, hpattern⟩ := exists_pattern hs
  unfold TestLayout.ofSettings
  rw [hpattern]
  exact ⟨_, rfl, rfl⟩

/-- Two valid settings with one fingerprint find the same in every source file and every test file
exactly when they pass over the same tags and their conventions for test files agree. -/
theorem covered_iff (hs : s.validated = .ok s) (hs' : s'.validated = .ok s')
    (h : s.fingerprint = s'.fingerprint) :
    ∃ layout layout', TestLayout.ofSettings s = .ok layout ∧ TestLayout.ofSettings s' = .ok layout'
      ∧ ((∀ u, validateUnit s u = validateUnit s' u)
            ∧ (∀ u source?, layout.validate u source? = layout'.validate u source?)
          ↔ (∀ tag, IsTagName tag → s.ignores tag = s'.ignores tag) ∧ layout.Alike layout') := by
  obtain ⟨layout, hlayout, hgap⟩ := layout_of_validated hs
  obtain ⟨layout', hlayout', hgap'⟩ := layout_of_validated hs'
  have hsame := sameSwitches_of_fingerprint h
  rw [← hsame.coverageGapIsError, ← hgap] at hgap'
  refine ⟨layout, layout', hlayout, hlayout', and_congr ?_ ?_⟩
  · rw [validateUnit_eq_iff hsame.requireInternalDocs hsame.markerConvention hsame.maxTagDepth]
    exact ⟨fun h => h.ignores, fun h => ⟨hsame.requireInternalDocs, hsame.markerConvention,
      hsame.maxTagDepth, h⟩⟩
  · exact TestLayout.validate_eq_iff hgap'.symm

/-- The empty word stands behind no sigil, so it makes no difference among the extra tags. -/
theorem covered_emptyTag :
    let s : Settings := { extraTags := [] }
    let s' : Settings := { extraTags := [[]] }
    s.validated = .ok s ∧ s'.validated = .ok s' ∧ s.fingerprint = s'.fingerprint
      ∧ ∃ layout layout', TestLayout.ofSettings s = .ok layout
        ∧ TestLayout.ofSettings s' = .ok layout' ∧ (∀ u, validateUnit s u = validateUnit s' u)
        ∧ ∀ u source?, layout.validate u source? = layout'.validate u source? := by
  intro s s'
  have hs : s.validated = .ok s := by rfl
  have hs' : s'.validated = .ok s' := by rfl
  refine ⟨hs, hs', rfl, ?_⟩
  obtain ⟨layout, layout', hlayout, hlayout', hiff⟩ := covered_iff hs hs' rfl
  have hsame : TestLayout.ofSettings s = TestLayout.ofSettings s' := rfl
  rw [hlayout, hlayout'] at hsame
  have halike : layout.Alike layout' := by
    rw [Except.ok.inj hsame]
    exact ⟨fun _ _ _ => rfl, fun _ => rfl, fun _ => rfl⟩
  have htags : ∀ tag, IsTagName tag → s.ignores tag = s'.ignores tag := by
    rintro _ ⟨c, word, rfl, -, -⟩
    have hextra : s'.isExtraTag (c :: word) = false := by simp [s', isExtraTag]
    rw [ignores, ignores, hextra]
    rfl
  exact ⟨layout, layout', hlayout, hlayout', hiff.mpr ⟨htags, halike⟩⟩

/-- Valid settings whose lists hold plain words find the same when they have one fingerprint. -/
theorem covered_of_isPlain (hs : s.validated = .ok s) (hplain : s.IsPlain) (hplain' : s'.IsPlain)
    (h : s.fingerprint = s'.fingerprint) :
    (∀ u, validateUnit s u = validateUnit s' u)
      ∧ ∃ layout, TestLayout.ofSettings s = .ok layout ∧ TestLayout.ofSettings s' = .ok layout := by
  have hsame := sameSwitches_of_fingerprint h
  obtain ⟨hextra, htests⟩ := hplain.lists_eq hplain' hsame.lists
  have hread : s.ReadsAlike s' := by
    refine ⟨hsame.requireInternalDocs, hsame.markerConvention, hsame.maxTagDepth, fun tag _ => ?_⟩
    unfold ignores isExtraTag
    rw [hextra]
  obtain ⟨layout, hlayout, -⟩ := layout_of_validated hs
  refine ⟨validateUnit_congr hread, layout, hlayout, ?_⟩
  rw [← hlayout]
  unfold TestLayout.ofSettings
  rw [htests, hsame.coverageGapIsError]

/-- A function whose comment has a tag `a`. -/
def taggedFile : SourceUnit where
  path := "a.ts"
  text := "/**\n * Adds.\n * @a note\n */\nfunction f() \x7b\x7d"
  language := .typescript
  symbols := [{ kind := .function, name := "f", declarationLine := 5 }]

/-- The extra tags `a` and `b` have the fingerprint of the one extra tag `a,b`, but other
findings. -/
theorem fingerprint_misses_tags :
    let s : Settings := { extraTags := ["a", "b"] }
    let s' : Settings := { extraTags := ["a,b"] }
    s.validated = .ok s ∧ s'.validated = .ok s' ∧ s.fingerprint = s'.fingerprint
      ∧ validateUnit s taggedFile = .ok [] ∧ validateUnit s' taggedFile ≠ .ok [] := by
  exact ⟨rfl, rfl, rfl, by decide +kernel, by decide +kernel⟩

end Settings

end DocContract
