import DocContract.Proofs.DocBlock.Association
import DocContract.Proofs.Engine.Independent

/-!
# Contract violations

A file is at odds with what the indexer says about it when a symbol is declared on none of its
lines. That is the only thing that makes a run fail, and the failure is about the first such symbol
of the first such file among those with the smallest path. It does not matter for this what is found
in the other files, only that each of them is checked.
-/

namespace DocContract

namespace SourceUnit

variable {u : SourceUnit} {s : Symbol}

/-- The symbol is declared on none of the lines of the file. -/
def IsOutside (u : SourceUnit) (s : Symbol) : Prop :=
  s.declarationLine = 0 ∨ u.lineCount < s.declarationLine

/-- The lines of a file are those that its newlines end, and what stands behind the last newline. -/
theorem lineCount_eq (u : SourceUnit) : u.lineCount
    = u.text.count '\n' + if u.text = [] ∨ u.text.getLast? = some '\n' then 0 else 1 :=
  Text.length_lines u.text

/-- Some symbol of the file is declared outside it. -/
def IsMisplaced (u : SourceUnit) : Prop := ∃ s ∈ u.symbols, u.IsOutside s

private theorem isOutside_iff :
    (s.declarationLine == 0 || decide (s.declarationLine > u.lineCount)) = true
      ↔ u.IsOutside s := by
  simp [IsOutside]

/-- The symbol that a failure is about is the first that is declared outside the file. -/
theorem misplaced?_eq_some_iff : u.misplaced? = some s ↔ u.IsOutside s
    ∧ ∃ front back, u.symbols = front ++ s :: back ∧ ∀ t ∈ front, ¬ u.IsOutside t := by
  rw [misplaced?, List.find?_eq_some_iff_append]
  simp only [Bool.not_eq_eq_eq_not, Bool.not_true, Bool.eq_false_iff, ne_eq, isOutside_iff]

/-- A file breaks the contract of the indexer when one of its symbols is misplaced. -/
theorem isMisplaced_iff : u.IsMisplaced ↔ u.misplaced? ≠ none := by
  rw [misplaced?, ne_eq, List.find?_eq_none]
  simp only [isOutside_iff]
  simp [IsMisplaced]

end SourceUnit

/-! ### What a run has to answer -/

namespace Manifest

/-- The file is the first of those with the smallest path among the files that a symbol is declared
outside of, and the symbol is the first such symbol of the file. -/
structure IsFirstViolation (m : Manifest) (u : SourceUnit) (s : Symbol) : Prop where
  file : ∃ front back, m.sources = front ++ u :: back
    ∧ (∀ v ∈ front, v.IsMisplaced → Path.order u.path v.path = .lt)
    ∧ ∀ v ∈ back, v.IsMisplaced → (Path.order u.path v.path).isLE = true
  isOutside : u.IsOutside s
  symbol : ∃ front back, u.symbols = front ++ s :: back ∧ ∀ t ∈ front, ¬ u.IsOutside t

/-- What the result of a run has to be: a failure that names the first violation, or, if there is
none, a report about all files. -/
def IsVerdict (m : Manifest) : Except Failure Report → Prop
  | .error cause => ∃ u s, m.IsFirstViolation u s
    ∧ cause = .symbolOutsideFile u.path s.name s.declarationLine u.lineCount
  | .ok r => (∀ u ∈ m.sources, ¬ u.IsMisplaced)
    ∧ r.unitsChecked = m.sources.length + m.tests.length ∧ r.complete = true

variable {m : Manifest} {u : SourceUnit} {s : Symbol} {result : Except Failure Report}

/-- The file of the first violation is one of the sources. -/
theorem IsFirstViolation.mem_sources (h : m.IsFirstViolation u s) : u ∈ m.sources := by
  obtain ⟨front, back, hsources, -⟩ := h.file
  simp [hsources]

/-- The symbol of the first violation is one of its file. -/
theorem IsFirstViolation.mem_symbols (h : m.IsFirstViolation u s) : s ∈ u.symbols := by
  obtain ⟨front, back, hsymbols, -⟩ := h.symbol
  simp [hsymbols]

/-- The file of the first violation is misplaced. -/
theorem IsFirstViolation.isMisplaced (h : m.IsFirstViolation u s) : u.IsMisplaced :=
  ⟨s, h.mem_symbols, h.isOutside⟩

/-- A run fails exactly when a symbol is declared outside its file. -/
theorem IsVerdict.fails_iff (h : m.IsVerdict result) :
    (∃ cause, result = .error cause) ↔ ∃ u ∈ m.sources, u.IsMisplaced := by
  cases result with
  | error cause =>
    obtain ⟨u, s, hfirst, -⟩ := h
    exact iff_of_true ⟨cause, rfl⟩ ⟨u, hfirst.mem_sources, hfirst.isMisplaced⟩
  | ok r => exact iff_of_false nofun fun ⟨u, hu, hs⟩ => h.1 u hu hs

end Manifest

/-! ### Outcomes without findings -/

/-- The failure of a file, with its path. -/
def Work.violation? : Work → Option (Path × Failure)
  | .source u => u.misplaced?.map fun s =>
    (u.path, .symbolOutsideFile u.path s.name s.declarationLine u.lineCount)
  | .test _ _ => none

/-- The file was not skipped, and it failed as it has to. -/
structure Outcome.Accords (w : Work) (o : Outcome) : Prop where
  failure? : o.failure? = w.violation?
  isSkipped : o.isSkipped = false

private theorem Outcome.isChecked_iff {o : Outcome} (h : o.isSkipped = false) :
    o.isChecked = true ↔ o.failure? = none := by
  cases o with
  | checked ds => simp [isChecked, Outcome.failure?]
  | skipped => cases h
  | failed file cause => simp [isChecked, Outcome.failure?]

/-- A file that does not fail accords with any findings. -/
theorem Outcome.accords_checked {w : Work} (h : w.violation? = none) (ds : List Diagnostic) :
    Accords w (.checked ds) := ⟨h.symm, rfl⟩

/-- The check itself gives an outcome that accords with the file. -/
theorem Engine.accords_outcome (e : Engine) (w : Work) : Outcome.Accords w (e.outcome w) := by
  cases w with
  | source u =>
    rw [outcome, Work.check, validateUnit]
    cases h : u.misplaced? with
    | some s =>
      rw [u.extract_of_misplaced h]
      exact ⟨by rw [Work.violation?, h]; rfl, rfl⟩
    | none =>
      rw [u.extract_of_placed h]
      exact ⟨by rw [Work.violation?, h]; rfl, rfl⟩
  | test t source? => exact ⟨rfl, rfl⟩

/-! ### The result of a run -/

variable {m : Manifest}

private theorem failures_ofUnits (m : Manifest) :
    (Work.ofUnits m.sources m.tests).filterMap Work.violation?
      = m.sources.filterMap fun u => Work.violation? (.source u) := by
  rw [Work.ofUnits, List.filterMap_append, List.filterMap_map, List.filterMap_map]
  have htests : (m.tests.filterMap (Work.violation?
      ∘ fun t => .test t (t.pairedSource?.bind (Work.sourceAt? m.sources)))) = [] :=
    List.filterMap_eq_nil_iff.mpr fun _ _ => rfl
  rw [htests, List.append_nil]
  rfl

/-- A file has no violation when it is not misplaced. -/
theorem SourceUnit.violation?_eq_none {u : SourceUnit} :
    Work.violation? (.source u) = none ↔ ¬ u.IsMisplaced := by
  rw [Work.violation?, Option.map_eq_none_iff, isMisplaced_iff, not_not]

private theorem SourceUnit.exists_violation {u : SourceUnit} (h : u.IsMisplaced) : ∃ f,
    Work.violation? (.source u) = some f ∧ f.1 = u.path := by
  obtain ⟨s, hs⟩ := Option.ne_none_iff_exists'.mp (isMisplaced_iff.mp h)
  exact ⟨_, by rw [Work.violation?, hs]; rfl, rfl⟩

/-- The failure that is reported names the first violation. -/
theorem Manifest.exists_isFirstViolation {cause : Failure}
    (h : firstFailure? (m.sources.filterMap fun u => Work.violation? (.source u)) = some cause) :
    ∃ u s, m.IsFirstViolation u s
      ∧ cause = .symbolOutsideFile u.path s.name s.declarationLine u.lineCount := by
  have hne : (m.sources.filterMap fun u => Work.violation? (.source u)) ≠ [] := by
    intro hnil
    rw [hnil] at h
    cases h
  obtain ⟨front, f, back, hsplit, hfirst, hfront, hback⟩ := exists_firstFailure? hne
  -- The list of failures is cut at the first one; so is the list of files.
  obtain ⟨before, rest, hsources, hbefore, hrest⟩ := List.filterMap_eq_append_iff.mp hsplit
  obtain ⟨skipped, u, after, rfl, hskipped, hu, hafter⟩ := List.filterMap_eq_cons_iff.mp hrest
  obtain ⟨s, hs, rfl⟩ := Option.map_eq_some_iff.mp hu
  obtain ⟨hout, hsymbol⟩ := SourceUnit.misplaced?_eq_some_iff.mp hs
  have hfails : ∀ {us : List SourceUnit} {fs : List (Path × Failure)},
      us.filterMap (fun u => Work.violation? (.source u)) = fs →
      ∀ v ∈ us, v.IsMisplaced → ∃ g ∈ fs, g.1 = v.path := by
    rintro us _ rfl v hv hmisplaced
    obtain ⟨g, hg, hpath⟩ := SourceUnit.exists_violation hmisplaced
    exact ⟨g, List.mem_filterMap.mpr ⟨v, hv, hg⟩, hpath⟩
  refine ⟨u, s, ⟨⟨before ++ skipped, after, by simp [hsources], ?_, ?_⟩, hout, hsymbol⟩, ?_⟩
  · refine List.forall_mem_append.mpr ⟨fun v hv hmisplaced => ?_, fun v hv hmisplaced => ?_⟩
    · obtain ⟨g, hg, hpath⟩ := hfails hbefore v hv hmisplaced
      rw [← hpath]
      exact hfront g hg
    · exact absurd hmisplaced (SourceUnit.violation?_eq_none.mp (hskipped v hv))
  · intro v hv hmisplaced
    obtain ⟨g, hg, hpath⟩ := hfails hafter v hv hmisplaced
    rw [← hpath]
    exact hback g hg
  · rw [h] at hfirst
    exact Option.some.inj hfirst

/-- When the outcomes accord with the files, they fail as the files have to and none was skipped. -/
theorem failures_of_forall₂ {ws : List Work} {outs : List Outcome}
    (h : List.Forall₂ Outcome.Accords ws outs) :
    outs.filterMap Outcome.failure? = ws.filterMap Work.violation?
      ∧ ∀ o ∈ outs, o.isSkipped = false := by
  induction h with
  | nil => exact ⟨rfl, List.forall_mem_nil _⟩
  | cons ho _ ih =>
    rw [List.filterMap_cons, List.filterMap_cons, ho.failure?, ih.1]
    exact ⟨rfl, List.forall_mem_cons.mpr ⟨ho.isSkipped, ih.2⟩⟩

/-- When the outcome of each file accords with it, the run answers as it has to. -/
theorem isVerdict_reportOf (strict : Bool) {outs : List Outcome}
    (h : List.Forall₂ Outcome.Accords (Work.ofUnits m.sources m.tests) outs) :
    m.IsVerdict (reportOf strict outs) := by
  obtain ⟨hfailures, hskipped⟩ := failures_of_forall₂ h
  have hsources := failures_ofUnits m
  rw [← hfailures] at hsources
  unfold reportOf
  cases hfirst : firstFailure? (outs.filterMap Outcome.failure?) with
  | some cause =>
    rw [hsources] at hfirst
    exact Manifest.exists_isFirstViolation hfirst
  | none =>
    have hnil : outs.filterMap Outcome.failure? = [] := by
      by_contra hne
      obtain ⟨_, f, _, -, hf, -⟩ := exists_firstFailure? hne
      rw [hf] at hfirst
      cases hfirst
    have hchecked : ∀ o ∈ outs, o.isChecked = true := fun o ho =>
      (Outcome.isChecked_iff (hskipped o ho)).mpr (List.filterMap_eq_nil_iff.mp hnil o ho)
    have hcount : outs.countP Outcome.isChecked = m.sources.length + m.tests.length := by
      rw [List.countP_eq_length.mpr hchecked, ← h.length_eq]
      simp [Work.ofUnits]
    have hcomplete : (!outs.any Outcome.isSkipped) = true := by simpa using hskipped
    rw [hnil] at hsources
    refine ⟨fun u hu => ?_, hcount, hcomplete⟩
    exact SourceUnit.violation?_eq_none.mp (List.filterMap_eq_nil_iff.mp hsources.symm u hu)

end DocContract
