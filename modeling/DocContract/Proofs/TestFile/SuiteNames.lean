import DocContract.Proofs.Lists
import DocContract.TestFile.Layout

/-!
# Names of suites

In a unit test file each suite with a title has to be named for an exported function of the source
file, and each exported function has to have a suite. A suite that is named for none is reported.
The functions without a suite are looked up by name, so every symbol with such a name is reported:
the functions alone exactly when no other symbol shares a name with them.
-/

namespace DocContract

open Text

/-- Is the text the name of an exported function of the file? -/
def SourceUnit.exportsFunction (u : SourceUnit) (name : Text) : Bool :=
  u.symbols.any fun s => isCovered s && s.name == name

private theorem SourceUnit.contains_exportedFunctions (u : SourceUnit) (name : Text) :
    u.exportedFunctions.contains name = u.exportsFunction name := by
  rw [Bool.eq_iff_iff, List.contains_iff_mem, exportedFunctions, exportsFunction, List.any_eq_true]
  simp only [List.mem_map, List.mem_filter, Bool.and_eq_true, beq_iff_eq, and_assoc]

/-- A text names no exported function when each of them has another name. -/
theorem SourceUnit.exportsFunction_eq_false_iff {u : SourceUnit} {name : Text} :
    u.exportsFunction name = false
      ↔ ∀ s ∈ u.symbols, isCovered s = true → s.name ≠ name := by
  rw [exportsFunction, List.any_eq_false]
  simp only [Bool.and_eq_true, beq_iff_eq, not_and, ne_eq]

/-! ### Findings of one kind -/

section Kinds

variable {ps : List PlacedFinding} {code code' : DiagnosticCode}

/-- The findings of a kind. -/
def ofKind (code : DiagnosticCode) (ps : List PlacedFinding) : List PlacedFinding :=
  ps.filter (·.finding.code == code)

/-- The findings of a kind among joined findings are those of either part. -/
theorem ofKind_append (ps qs : List PlacedFinding) :
    ofKind code (ps ++ qs) = ofKind code ps ++ ofKind code qs := List.filter_append ps qs

/-- Findings that are all of one kind are kept for that kind and for no other. -/
theorem ofKind_of_code (h : ∀ p ∈ ps, p.finding.code = code') (code : DiagnosticCode) :
    ofKind code ps = if code' = code then ps else [] := by
  split
  · next hcode => exact List.filter_eq_self.mpr fun p hp => beq_iff_eq.mpr ((h p hp).trans hcode)
  · next hcode =>
    refine List.filter_eq_nil_iff.mpr fun p hp => ?_
    rw [h p hp, beq_eq_false_iff_ne.mpr hcode]
    exact Bool.false_ne_true

end Kinds

namespace Outline

variable (o : Outline) (source : SourceUnit)

/-- A stray case is a case outside of a suite. -/
theorem code_strayCases : ∀ p ∈ o.strayCases, p.finding.code = .caseOutsideSuite :=
  List.forall_mem_map.mpr fun _ _ => rfl

/-- The order check of unit files finds violations of the order only. -/
theorem code_unitOrderFrom (furthest? : Option StatementKind) (ss : List Statement) :
    ∀ p ∈ unitOrderFrom furthest? ss, p.finding.code = .orderViolation := by
  fun_induction unitOrderFrom furthest? ss with
  | case1 => exact List.forall_mem_nil _
  | case2 _ _ _ _ ih => exact ih
  | case3 _ _ _ _ _ _ ih => exact ih
  | case4 _ _ _ _ _ _ _ _ _ ih => exact List.forall_mem_cons.mpr ⟨rfl, ih⟩
  | case5 _ _ _ _ _ _ _ _ _ ih => exact ih

/-- A suite that is named for no exported function is a mismatch of its name. -/
theorem code_unknownSuites : ∀ p ∈ o.unknownSuites source, p.finding.code = .suiteNameMismatch := by
  intro p hp
  obtain ⟨s, -, hs⟩ := List.mem_filterMap.mp hp
  obtain ⟨title, -, htitle⟩ := Option.bind_eq_some_iff.mp hs
  split at htitle
  · cases htitle
  · cases htitle
    rfl

/-- A symbol that no suite is named for is a missing suite. -/
theorem code_missingSuites : ∀ p ∈ o.missingSuites source, p.finding.code = .suiteMissing :=
  List.forall_mem_map.mpr fun _ _ => rfl

/-- A suite that lacks a case is a gap in the coverage. -/
theorem code_unitGaps : ∀ p ∈ o.unitGaps, p.finding.code = .coverageGap := by
  intro p hp
  obtain ⟨s, -, hs⟩ := List.mem_filterMap.mp hp
  dsimp only at hs
  split at hs
  · cases hs
  · cases hs
    rfl

/-- The order check of flow files finds violations of the order only. -/
theorem code_flowOrderFrom (seenSuite : Bool) (ss : List Statement) :
    ∀ p ∈ flowOrderFrom seenSuite ss, p.finding.code = .orderViolation := by
  induction ss generalizing seenSuite with
  | nil => exact List.forall_mem_nil _
  | cons s ss ih =>
    rw [flowOrderFrom, List.forall_mem_append]
    refine ⟨?_, ih _⟩
    split
    · exact List.forall_mem_singleton.mpr rfl
    · exact List.forall_mem_nil _

/-- The name check of flow files finds mismatches of the name only. -/
theorem code_flowNaming (pattern : Pattern) (file : Path) :
    ∀ p ∈ flowNaming pattern file, p.finding.code = .flowNameMismatch := by
  unfold flowNaming
  dsimp only
  split
  · exact List.forall_mem_nil _
  · exact List.forall_mem_singleton.mpr rfl

/-- A flow that lacks a case is a gap in the coverage. -/
theorem code_flowGaps (keywords : List Text) :
    ∀ p ∈ o.flowGaps keywords, p.finding.code = .coverageGap := by
  intro p hp
  obtain ⟨s, -, hs⟩ := List.mem_filterMap.mp hp
  dsimp only at hs
  split at hs
  · cases hs
  · cases hs
    rfl

end Outline

namespace TestLayout

variable (layout : TestLayout) {u : TestUnit} {source : SourceUnit}

private theorem code_toDiagnostic (file : Path) (p : PlacedFinding) :
    (layout.toDiagnostic file p).code = p.finding.code := by
  unfold toDiagnostic
  dsimp only
  split <;> rfl

/-- The diagnostics of a kind are those of the findings of the kind. -/
theorem filter_toDiagnostic (file : Path) (ps : List PlacedFinding) (code : DiagnosticCode) :
    (ps.map (layout.toDiagnostic file)).filter (·.code == code)
      = (ofKind code ps).map (layout.toDiagnostic file) := by
  have hcode : (fun d : Diagnostic => d.code == code) ∘ layout.toDiagnostic file
      = fun p => p.finding.code == code := by
    funext p
    exact congrArg (· == code) (layout.code_toDiagnostic file p)
  rw [List.filter_map, hcode]
  rfl

private theorem filter_validate (u : TestUnit) (source? : Option SourceUnit)
    (code : DiagnosticCode) :
    (layout.validate u source?).filter (·.code == code)
      = (ofKind code (layout.findings u source?)).map (layout.toDiagnostic u.path) :=
  layout.filter_toDiagnostic u.path _ code

/-- Each kind of finding in a unit test file comes from one rule. -/
theorem ofKind_findings (hkind : u.inferKind true = .unit) (source : SourceUnit)
    (code : DiagnosticCode) : ofKind code (layout.findings u (some source)) =
      let o := outline layout.dbKeywords u.text
      match code with
      | .caseOutsideSuite => o.strayCases
      | .orderViolation => o.unitOrder
      | .suiteNameMismatch => o.unknownSuites source
      | .suiteMissing => o.missingSuites source
      | .coverageGap => o.unitGaps
      | _ => [] := by
  have hfindings : ∀ o : Outline, o = outline layout.dbKeywords u.text →
      layout.findings u (some source) = o.strayCases
        ++ (o.unitOrder ++ (o.unknownSuites source ++ o.missingSuites source) ++ o.unitGaps) := by
    rintro o rfl
    rw [findings, Option.isSome_some, hkind]
    rfl
  rw [hfindings _ rfl]
  generalize outline layout.dbKeywords u.text = o
  simp only [ofKind_append]
  rw [ofKind_of_code o.code_strayCases, ofKind_of_code (o.code_unknownSuites source),
    ofKind_of_code (o.code_missingSuites source), ofKind_of_code o.code_unitGaps,
    Outline.unitOrder, ofKind_of_code (Outline.code_unitOrderFrom none o.statements)]
  cases code <;> simp

end TestLayout

/-! ### Diagnostics -/

/-- The diagnostic of a suite that is named for no exported function. -/
def SourceUnit.nameMismatch (source : SourceUnit) (file : Path) (place : Position) (title : Text) :
    Diagnostic :=
  ⟨file, place.line, place.column, .suiteNameMismatch, .error,
    "suite " ++ quoted title ++ " does not name an exported function of " ++ source.path, none⟩

/-- The diagnostic of a suite, if it has a title but is named for no exported function. -/
def SourceUnit.nameMismatch? (source : SourceUnit) (file : Path) (suite : Statement) :
    Option Diagnostic :=
  match suite.title? with
  | none => none
  | some title =>
    if source.exportsFunction title then none
    else some (source.nameMismatch file suite.place title)

/-- The diagnostic of a function that has no suite. -/
def Symbol.suiteMissing (file : Path) (s : Symbol) : Diagnostic :=
  ⟨file, 1, 1, .suiteMissing, .warning, "exported function " ++ quoted s.name ++ " has no suite",
    some s.id⟩

namespace TestLayout

variable (layout : TestLayout) {u : TestUnit}

private theorem diagnostics_unknownSuites (file : Path) (source : SourceUnit) (o : Outline) :
    (o.unknownSuites source).map (layout.toDiagnostic file)
      = o.suites.filterMap (source.nameMismatch? file) := by
  unfold Outline.unknownSuites
  rw [List.map_filterMap]
  refine congrArg (List.filterMap · o.suites) (funext fun s => ?_)
  unfold SourceUnit.nameMismatch?
  cases s.title? with
  | none => rfl
  | some title =>
    rw [Option.bind_some, source.contains_exportedFunctions]
    dsimp only
    split <;> rfl

private theorem diagnostics_missingSuites (file : Path) (source : SourceUnit) (o : Outline) :
    (o.missingSuites source).map (layout.toDiagnostic file)
      = (source.symbols.filter fun s =>
          source.exportsFunction s.name && !o.titles.contains s.name).map
        (Symbol.suiteMissing file) := by
  unfold Outline.missingSuites
  rw [List.map_map]
  simp only [source.contains_exportedFunctions]
  rfl

/-- The suites that are named for no exported function are reported in their order. -/
theorem filter_nameMismatch (hkind : u.inferKind true = .unit) (source : SourceUnit) :
    (layout.validate u (some source)).filter (·.code == .suiteNameMismatch)
      = (outline layout.dbKeywords u.text).suites.filterMap (source.nameMismatch? u.path) := by
  rw [layout.filter_validate, layout.ofKind_findings hkind]
  exact layout.diagnostics_unknownSuites u.path source _

/-- A suite with a title is reported exactly when the title names no exported function. -/
theorem nameMismatch_mem_validate_iff (hkind : u.inferKind true = .unit) {source : SourceUnit}
    {suite : Statement} (hsuite : suite ∈ (outline layout.dbKeywords u.text).suites) {title : Text}
    (htitle : suite.title? = some title) :
    source.nameMismatch u.path suite.place title ∈ layout.validate u (some source)
      ↔ source.exportsFunction title = false := by
  have hmem : source.nameMismatch u.path suite.place title ∈ layout.validate u (some source)
      ↔ ∃ s ∈ (outline layout.dbKeywords u.text).suites,
        source.nameMismatch? u.path s = some (source.nameMismatch u.path suite.place title) := by
    rw [← List.mem_filterMap, ← layout.filter_nameMismatch hkind, List.mem_filter]
    exact (and_iff_left rfl).symm
  rw [hmem]
  constructor
  · rintro ⟨s, -, hs⟩
    unfold SourceUnit.nameMismatch? at hs
    split at hs
    · cases hs
    · next other hother =>
      split at hs
      · cases hs
      · next hnone =>
        -- The message tells the title.
        have hmessage := congrArg Diagnostic.message (Option.some.inj hs)
        have hquoted := List.append_cancel_right (List.append_cancel_right hmessage)
        have hbody := List.append_cancel_right (List.append_cancel_left hquoted)
        rw [← List.append_cancel_left hbody]
        exact Bool.eq_false_iff.mpr hnone
  · intro hnone
    refine ⟨suite, hsuite, ?_⟩
    rw [SourceUnit.nameMismatch?, htitle]
    dsimp only
    rw [hnone, if_neg Bool.false_ne_true]

/-- The symbols that are called as an exported function without a suite are reported in their
order. -/
theorem filter_suiteMissing (hkind : u.inferKind true = .unit) (source : SourceUnit) :
    (layout.validate u (some source)).filter (·.code == .suiteMissing)
      = (source.symbols.filter fun s => source.exportsFunction s.name
          && !(outline layout.dbKeywords u.text).titles.contains s.name).map
        (Symbol.suiteMissing u.path) := by
  rw [layout.filter_validate, layout.ofKind_findings hkind]
  exact layout.diagnostics_missingSuites u.path source _

/-- In a unit test file the suites with a title that names no exported function are reported, and no
others. The functions reported as lacking a suite are the exported functions whose name is the
title of none exactly when no other symbol has the name of one of them. -/
theorem suiteNames_iff (hkind : u.inferKind true = .unit) (source : SourceUnit) :
    let o := outline layout.dbKeywords u.text
    (layout.validate u (some source)).filter (·.code == .suiteNameMismatch)
        = o.suites.filterMap (source.nameMismatch? u.path)
      ∧ ((layout.validate u (some source)).filter (·.code == .suiteMissing)
          = (source.symbols.filter fun s =>
              SourceUnit.isCovered s && !o.titles.contains s.name).map (Symbol.suiteMissing u.path)
        ↔ ∀ s ∈ source.symbols, source.exportsFunction s.name = true → s.name ∉ o.titles →
            SourceUnit.isCovered s = true) := by
  intro o
  refine ⟨layout.filter_nameMismatch hkind source, ?_⟩
  rw [layout.filter_suiteMissing hkind, map_filter_eq_iff]
  · simp only [Bool.and_eq_true, Bool.not_eq_true', List.contains_eq_mem, decide_eq_false_iff_not]
    constructor
    · exact fun h s hs hname htitle => (h s hs ⟨hname, htitle⟩).1
    · exact fun h s hs hlacks => ⟨h s hs hlacks.1 hlacks.2, hlacks.2⟩
  · intro s hs hq
    obtain ⟨hcovered, htitle⟩ := Bool.and_eq_true_iff.mp hq
    have hname : source.exportsFunction s.name = true :=
      List.any_eq_true.mpr ⟨s, hs, Bool.and_eq_true_iff.mpr ⟨hcovered, beq_self_eq_true _⟩⟩
    exact Bool.and_eq_true_iff.mpr ⟨hname, htitle⟩

/-- A layout without words of its own. -/
def bare : TestLayout := ⟨[], [], ⟨[], .empty⟩, .warning⟩

/-- A unit test file with one suite. -/
def oneSuite (title : String) : TestUnit where
  path := "store.test.ts"
  text := "describe('" ++ title.toList ++ "');"
  language := .typescript
  kind? := some .unit

/-- A source file with some symbols. -/
def storeSource (symbols : List Symbol) : SourceUnit := ⟨"store.ts", [], .typescript, symbols, none⟩

/-- Both declarations of an exported function lack a suite; the suite of the other one is found. -/
theorem suiteNames_overloadsExample :
    let load (line : Nat) : Symbol :=
      { kind := .function, name := "load", isExported := true, declarationLine := line }
    let save : Symbol :=
      { kind := .function, name := "save", isExported := true, declarationLine := 3 }
    (oneSuite "save").inferKind true = .unit
      ∧ (bare.validate (oneSuite "save") (some (storeSource [load 1, load 2, save]))).filter
          (·.code == .suiteMissing)
        = [Symbol.suiteMissing "store.test.ts" (load 1),
          Symbol.suiteMissing "store.test.ts" (load 2)] := by
  intro load save
  have hkind : (oneSuite "save").inferKind true = .unit := rfl
  refine ⟨hkind, ?_⟩
  rw [(suiteNames_iff bare hkind (storeSource [load 1, load 2, save])).2.mpr (by decide)]
  decide

/-- A method that shares the name of an exported function is reported as lacking a suite too. -/
theorem suiteNames_methodExample :
    let function : Symbol :=
      { kind := .function, name := "save", isExported := true, declarationLine := 1 }
    let method : Symbol := { kind := .method, name := "save", declarationLine := 5 }
    let u := oneSuite "load"
    let source := storeSource [function, method]
    u.inferKind true = .unit
      ∧ (bare.validate u (some source)).filter (·.code == .suiteMissing)
        ≠ (source.symbols.filter fun s => SourceUnit.isCovered s
            && !(outline bare.dbKeywords u.text).titles.contains s.name).map
          (Symbol.suiteMissing u.path) := by
  decide

end TestLayout

end DocContract
