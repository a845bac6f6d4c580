import DocContract.TestFile.Layout

/-!
# Statements that set a file up

The words for a database decide between two kinds of one statement: the setup of a database and that
of the file. Both prepare the file, and no other kind depends on the words. So of two lists of words
a finding can only differ in how it calls the setup. Behind a suite each statement that prepares an
integration test file is reported with its kind, so there the findings tell the kinds.
-/

namespace DocContract

open Text

/-! ### Kinds under two lists of words -/

section Kinds

variable (words words' : List Text)

private theorem classify_or (t : Text) : classify words t = classify words' t
    ∨ classify words t = .databaseSetup ∧ classify words' t = .fileSetup
    ∨ classify words t = .fileSetup ∧ classify words' t = .databaseSetup := by
  unfold classify
  split
  · exact .inl rfl
  · split
    · exact .inl rfl
    · split
      · exact .inl rfl
      · split
        · split <;> split <;> simp
        · exact .inl rfl

/-- Whether a kind is another one than the two setups does not depend on the words. -/
theorem classify_beq (t : Text) {kind : StatementKind} (hdatabase : kind ≠ .databaseSetup)
    (hfile : kind ≠ .fileSetup) : (classify words t == kind) = (classify words' t == kind) := by
  rcases classify_or words words' t with h | ⟨h, h'⟩ | ⟨h, h'⟩
  · rw [h]
  · rw [h, h', beq_eq_false_iff_ne.mpr hdatabase.symm, beq_eq_false_iff_ne.mpr hfile.symm]
  · rw [h, h', beq_eq_false_iff_ne.mpr hdatabase.symm, beq_eq_false_iff_ne.mpr hfile.symm]

private theorem prepares_classify (t : Text) :
    Outline.prepares (classify words t) = Outline.prepares (classify words' t) := by
  rcases classify_or words words' t with h | ⟨h, h'⟩ | ⟨h, h'⟩
  · rw [h]
  · rw [h, h']
    rfl
  · rw [h, h']
    rfl

/-- The two setups are called by different names. -/
theorem classify_eq_of_label {t : Text}
    (h : (classify words t).label = (classify words' t).label) :
    classify words t = classify words' t := by
  rcases classify_or words words' t with heq | ⟨heq, heq'⟩ | ⟨heq, heq'⟩
  · exact heq
  · rw [heq, heq'] at h
    cases h
  · rw [heq, heq'] at h
    cases h

private theorem classify_eq_of_not_prepares {t : Text}
    (h : ¬ Outline.prepares (classify words' t) = true) : classify words t = classify words' t := by
  rcases classify_or words words' t with heq | ⟨-, heq'⟩ | ⟨-, heq'⟩
  · exact heq
  · rw [heq'] at h
    exact absurd rfl h
  · rw [heq'] at h
    exact absurd rfl h

/-- A statement has the kind of its text. -/
theorem Fragment.toStatement_kind (f : Fragment) :
    (f.toStatement words).kind = classify words f.text := by
  unfold Fragment.toStatement
  dsimp only
  split <;> rfl

/-- A statement has the place where its text starts. -/
theorem Fragment.toStatement_place (f : Fragment) : (f.toStatement words).place = f.start := by
  unfold Fragment.toStatement
  dsimp only
  split <;> rfl

/-- A statement that is no setup does not depend on the words. -/
theorem Fragment.toStatement_eq (f : Fragment)
    (h : classify words f.text = classify words' f.text) :
    f.toStatement words = f.toStatement words' := by
  unfold Fragment.toStatement
  rw [h]

/-- The statements of a kind other than the two setups do not depend on the words. -/
theorem filter_statements (fs : List Fragment) {kind : StatementKind}
    (hdatabase : kind ≠ .databaseSetup) (hfile : kind ≠ .fileSetup) :
    (fs.map (Fragment.toStatement words)).filter (·.kind == kind)
      = (fs.map (Fragment.toStatement words')).filter (·.kind == kind) := by
  induction fs with
  | nil => rfl
  | cons f fs ih =>
    have hkind := classify_beq words words' f.text hdatabase hfile
    rw [List.map_cons, List.map_cons, List.filter_cons, List.filter_cons, ih,
      Fragment.toStatement_kind, Fragment.toStatement_kind, hkind]
    split
    · next h =>
      have hsame := (beq_iff_eq.mp (hkind.trans h)).trans (beq_iff_eq.mp h).symm
      rw [f.toStatement_eq words words' hsame]
    · rfl

/-- The suites of a file do not depend on the words for its setup. -/
theorem suites_outline (t : Text) : (outline words t).suites = (outline words' t).suites :=
  filter_statements words words' _ nofun nofun

/-- The stray cases of a file do not depend on the words for its setup. -/
theorem strayCases_outline (t : Text) :
    (outline words t).strayCases = (outline words' t).strayCases := by
  unfold Outline.strayCases
  exact congrArg _ (filter_statements words words' _ nofun nofun)

end Kinds

/-! ### Statements behind a suite -/

/-- Behind a suite the findings about the order tell the kind of every statement. -/
theorem kinds_of_flowOrder {words words' : List Text} {layout layout' : TestLayout} {file : Path}
    {fs : List Fragment}
    (h : (Outline.flowOrderFrom true (fs.map (Fragment.toStatement words))).map
        (layout.toDiagnostic file)
      = (Outline.flowOrderFrom true (fs.map (Fragment.toStatement words'))).map
        (layout'.toDiagnostic file)) :
    ∀ f ∈ fs, classify words f.text = classify words' f.text := by
  induction fs with
  | nil => exact fun _ hf => absurd hf List.not_mem_nil
  | cons f fs ih =>
    simp only [List.map_cons, Outline.flowOrderFrom, Bool.true_and, Bool.true_or,
      Fragment.toStatement_kind, Fragment.toStatement_place, prepares_classify words words'] at h
    split at h
    · simp only [List.singleton_append, List.map_cons, List.cons.injEq] at h
      obtain ⟨hfirst, hrest⟩ := h
      have hlabel : (classify words f.text).label = (classify words' f.text).label :=
        List.append_cancel_right (congrArg Diagnostic.message hfirst)
      exact List.forall_mem_cons.mpr ⟨classify_eq_of_label words words' hlabel, ih hrest⟩
    · next hother =>
      exact List.forall_mem_cons.mpr ⟨classify_eq_of_not_prepares words words' hother, ih h⟩

end DocContract
