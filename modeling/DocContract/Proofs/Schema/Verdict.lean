import DocContract.Proofs.DocBlock.Association
import DocContract.Proofs.DocBlock.Unclosed
import DocContract.Proofs.Json.Literal
import DocContract.Proofs.Schema.Languages
import Mathlib.Data.List.Nodup

/-!
# The verdict on a symbol

The identifier of a symbol ends with its line behind the last `@`, so symbols that differ in name or
line have different identifiers, and the findings about a symbol are those of its own check. That
check reports a missing block, or a block that is never closed, or what is wrong with the block that
was found. An opening is reported once, for the symbol whose declaration it ran into or for the
file.
-/

namespace DocContract

open Text

/-! ### Findings of one element -/

/-- The identifier determines the name and the line, whatever the name holds. -/
theorem Symbol.id_inj {s t : Symbol} (h : s.id = t.id) :
    s.name = t.name ∧ s.declarationLine = t.declarationLine := by
  have hdigits : ∀ n, '@' ∉ ofNat n := fun n hn => absurd (isDigit_of_mem_ofNat hn) (by decide)
  unfold id at h
  rw [List.append_assoc, List.append_assoc] at h
  obtain ⟨hname, hline⟩ := append_cons_inj_last (hdigits _) (hdigits _) h
  exact ⟨hname, ofNat_inj hline⟩

/-- What is selected of the results for all elements of a list comes from the one element that has
such results. -/
theorem filter_flatMap_eq {α β : Type} {xs : List α} {f : α → List β} {p : β → Bool} {a : α}
    (hxs : xs.Nodup) (ha : a ∈ xs) (hothers : ∀ b ∈ xs, b ≠ a → (f b).filter p = []) :
    (xs.flatMap f).filter p = (f a).filter p := by
  obtain ⟨front, back, rfl⟩ := List.append_of_mem ha
  have hsides : ∀ b ∈ front ++ back, (f b).filter p = [] := by
    intro b hb
    refine hothers b (List.perm_middle.mem_iff.mpr (List.mem_cons_of_mem a hb)) ?_
    rintro rfl
    exact (List.nodup_middle.mp hxs).notMem hb
  have hfront : (front.flatMap f).filter p = [] := by
    rw [List.filter_flatMap, List.flatMap_eq_nil_iff]
    exact fun b hb => hsides b (List.mem_append_left _ hb)
  have hback : (back.flatMap f).filter p = [] := by
    rw [List.filter_flatMap, List.flatMap_eq_nil_iff]
    exact fun b hb => hsides b (List.mem_append_right _ hb)
  rw [List.flatMap_append, List.flatMap_cons, List.filter_append, List.filter_append, hfront,
    hback, List.append_nil, List.nil_append]

/-! ### The findings of a symbol -/

section Codes

variable {settings : Settings} {language : Language} {u : SourceUnit} {s : Symbol}

/-- Neither of the two codes that say that a symbol has no readable block. -/
def DiagnosticCode.IsOfBlock (c : DiagnosticCode) : Prop :=
  c ≠ .missingDoc ∧ c ≠ .malformedDelimiter

private theorem isOfBlock_parseError (e : ParseError) : e.code.IsOfBlock := by
  cases e <;> exact ⟨nofun, nofun⟩

private theorem isOfBlock_parseWarning (w : ParseWarning) : w.code.IsOfBlock := by
  cases w <;> exact ⟨nofun, nofun⟩

private theorem isOfBlock_missingCode (family : PathFamily) : family.missingCode.IsOfBlock := by
  cases family <;> exact ⟨nofun, nofun⟩

private theorem isOfBlock_unknownCode (family : PathFamily) : family.unknownCode.IsOfBlock := by
  cases family <;> exact ⟨nofun, nofun⟩

private theorem isOfBlock_schemaFinding (f : SchemaFinding) : f.code.IsOfBlock := by
  cases f
  case pathMissing family key => exact isOfBlock_missingCode family
  case pathUnknown family key => exact isOfBlock_unknownCode family
  all_goals exact ⟨nofun, nofun⟩

/-- The findings about a block that was read have codes of their own. -/
theorem isOfBlock_checkParsed {file : Path} {parsed : ParsedComment} :
    ∀ d ∈ checkParsed language file s parsed, d.code.IsOfBlock ∧ d.symbol? = some s.id := by
  intro d hd
  rcases List.mem_append.mp hd with hd | hd
  · rcases List.mem_append.mp hd with hd | hd
    · obtain ⟨e, -, rfl⟩ := List.mem_map.mp hd
      exact ⟨isOfBlock_parseError e.value, rfl⟩
    · obtain ⟨w, -, rfl⟩ := List.mem_map.mp hd
      exact ⟨isOfBlock_parseWarning w.value, rfl⟩
  · obtain ⟨f, -, rfl⟩ := List.mem_map.mp hd
    exact ⟨isOfBlock_schemaFinding f.value, rfl⟩

/-- The findings of a symbol are about the symbol. -/
theorem symbol?_of_mem_validateSymbol {a : Association} {d : Diagnostic}
    (h : d ∈ validateSymbol settings u s a) : d.symbol? = some s.id := by
  cases a with
  | missing =>
    obtain ⟨_, rfl⟩ := eq_of_mem_missingDoc h
    rfl
  | malformed x =>
    rw [List.mem_singleton.mp h]
    rfl
  | found b => exact (isOfBlock_checkParsed d h).2

end Codes

/-- The one kind of finding that a symbol has. Without a block it is that the block is missing, an
error for an exported symbol and otherwise a warning if internal symbols have to be documented; with
a block that is never closed it is that; with a block it is neither. -/
def Association.Verdict (settings : Settings) (s : Symbol) (a : Association)
    (ds : List Diagnostic) : Prop :=
  match a with
  | .missing =>
    if s.isExported then ∃ d, ds = [d] ∧ d.code = .missingDoc ∧ d.severity = .error
      ∧ d.line = s.declarationLine
    else if s.requiresDocs ∧ settings.requireInternalDocs then ∃ d, ds = [d]
      ∧ d.code = .missingDoc ∧ d.severity = .warning ∧ d.line = s.declarationLine
    else ds = []
  | .malformed x => ∃ d, ds = [d] ∧ d.code = .malformedDelimiter ∧ d.line = x.line
  | .found _ => ∀ d ∈ ds, d.code ≠ .missingDoc ∧ d.code ≠ .malformedDelimiter

private theorem verdict_validateSymbol (settings : Settings) (u : SourceUnit) (s : Symbol)
    (a : Association) : a.Verdict settings s (validateSymbol settings u s a) := by
  cases a with
  | missing =>
    unfold Association.Verdict validateSymbol missingDoc
    dsimp only
    split
    · exact ⟨_, rfl, rfl, rfl, rfl⟩
    · by_cases h : s.requiresDocs ∧ settings.requireInternalDocs
      · rw [if_pos h, if_pos (by simpa using h)]
        exact ⟨_, rfl, rfl, rfl, rfl⟩
      · rw [if_neg h, if_neg (by simpa using h)]
  | malformed x => exact ⟨_, rfl, rfl, rfl⟩
  | found b => exact fun d hd => (isOfBlock_checkParsed d hd).1

/-! ### Reports of openings -/

namespace SourceUnit

variable {settings : Settings} {u : SourceUnit} {s : Symbol} {x y : Unclosed} {line : Nat}

/-- The findings that report an opening on a line. -/
def reportsOn (line : Nat) (ds : List Diagnostic) : List Diagnostic :=
  ds.filter fun d => d.code = .malformedDelimiter ∧ d.line = line

/-- A symbol reports an opening that is given up on its line, and no other one. -/
theorem reportsOn_validateSymbol (hx : x ∈ u.scan.unclosed) :
    reportsOn x.line (validateSymbol settings u s (u.documentation line))
      = if x.stoppedAt? = some line then [(x.toDiagnostic u.path).about s.id] else [] := by
  split
  · next h =>
    rw [documentation_of_stoppedAt? hx h]
    simp [reportsOn, validateSymbol, Unclosed.toDiagnostic, Diagnostic.ofCode, Diagnostic.about]
  · next h =>
    refine List.filter_eq_nil_iff.mpr fun d hd hreport => ?_
    obtain ⟨hcode, hline⟩ := of_decide_eq_true hreport
    cases hdoc : u.documentation line with
    | missing =>
      rw [hdoc] at hd
      obtain ⟨_, rfl⟩ := eq_of_mem_missingDoc hd
      cases hcode
    | found b =>
      rw [hdoc] at hd
      exact (isOfBlock_checkParsed d hd).1.2 hcode
    | malformed y =>
      rw [hdoc] at hd
      obtain ⟨hy, hstop⟩ := stoppedAt?_of_documentation hdoc
      rw [List.mem_singleton.mp hd] at hline
      exact h (Unclosed.eq_of_line hx hy hline.symm ▸ hstop)

/-- The openings that are open when the file ends. -/
def openAtEnd (u : SourceUnit) : List Unclosed := u.scan.unclosed.filter (·.stoppedAt?.isNone)

/-- At most one opening is open when the file ends. -/
theorem length_openAtEnd_le (u : SourceUnit) : u.openAtEnd.length ≤ 1 :=
  (scanBlocks_unclosed u.declarationLines u.text).1.length_open_le

/-- The file reports an opening that is open when it ends, and no other one. -/
theorem reportsOn_openAtEnd (hx : x ∈ u.scan.unclosed) :
    reportsOn x.line (u.openAtEnd.map (·.toDiagnostic u.path))
      = if x.stoppedAt? = none then [x.toDiagnostic u.path] else [] := by
  split
  · next h =>
    have hmem : x ∈ u.openAtEnd := List.mem_filter.mpr ⟨hx, Option.isNone_iff_eq_none.mpr h⟩
    obtain ⟨y, hy⟩ := List.length_eq_one_iff.mp
      ((length_openAtEnd_le u).antisymm (List.length_pos_of_mem hmem))
    rw [hy, List.mem_singleton] at hmem
    rw [hy, ← hmem]
    simp [reportsOn, Unclosed.toDiagnostic, Diagnostic.ofCode]
  · next h =>
    refine List.filter_eq_nil_iff.mpr fun d hd hreport => ?_
    obtain ⟨-, hline⟩ := of_decide_eq_true hreport
    obtain ⟨y, hy, rfl⟩ := List.mem_map.mp hd
    obtain ⟨hy, hopen⟩ := List.mem_filter.mp hy
    rw [Unclosed.eq_of_line hx hy hline.symm] at h
    exact h (Option.isNone_iff_eq_none.mp hopen)

/-- What the findings of a file say of its symbols and openings. The findings about a symbol are
its one verdict. Each opening is reported once, for the one symbol whose declaration it ran into or
for the file when it is open at the end, which at most one is. -/
structure HasVerdicts (settings : Settings) (u : SourceUnit) (e : Extraction)
    (ds : List Diagnostic) : Prop where
  symbols : e.symbols.map Prod.fst = u.symbols
  verdict : ∀ p ∈ e.symbols,
    p.2.Verdict settings p.1 (ds.filter fun d => d.symbol? = some p.1.id)
  reported : u.declarationLines.Nodup → ∀ x ∈ u.scan.unclosed, ∃ d, reportsOn x.line ds = [d]
    ∧ (x.stoppedAt? = none → d = x.toDiagnostic u.path)
    ∧ ∀ n, x.stoppedAt? = some n → ∃ s ∈ u.symbols, s.declarationLine = n
      ∧ (∀ t ∈ u.symbols, t.declarationLine = n → t = s)
      ∧ d = (x.toDiagnostic u.path).about s.id
  unowned : (ds.filter fun d => d.symbol? = none) = u.openAtEnd.map (·.toDiagnostic u.path)
  openOnce : u.openAtEnd.length ≤ 1

/-- The findings of the symbols of a file. -/
def symbolFindings (settings : Settings) (u : SourceUnit) : List Diagnostic :=
  u.symbols.flatMap fun s => validateSymbol settings u s (u.documentation s.declarationLine)

private theorem validateUnit_of_placed (settings : Settings) (h : u.misplaced? = none) :
    validateUnit settings u
      = .ok (u.openAtEnd.map (·.toDiagnostic u.path) ++ u.symbolFindings settings) := by
  rw [validateUnit, extract_of_placed h, symbolFindings]
  simp only [Except.map, List.flatMap_map]
  rfl

/-- The findings about a symbol are those of its own check. -/
theorem filter_symbol?_symbolFindings
    (hd : (u.symbols.map fun s => (s.name, s.declarationLine)).Nodup) (hs : s ∈ u.symbols) :
    (u.symbolFindings settings).filter (fun d => d.symbol? = some s.id)
      = validateSymbol settings u s (u.documentation s.declarationLine) := by
  have hothers : ∀ t ∈ u.symbols, t ≠ s →
      (validateSymbol settings u t (u.documentation t.declarationLine)).filter
        (fun d => d.symbol? = some s.id) = [] := by
    intro t ht hne
    refine List.filter_eq_nil_iff.mpr fun d hmem hsymbol => hne ?_
    have hid := Option.some.inj
      ((symbol?_of_mem_validateSymbol hmem).symm.trans (of_decide_eq_true hsymbol))
    obtain ⟨hname, hline⟩ := Symbol.id_inj hid
    exact List.inj_on_of_nodup_map hd ht hs (Prod.ext hname hline)
  rw [symbolFindings, filter_flatMap_eq hd.of_map hs hothers]
  exact List.filter_eq_self.mpr fun d hmem => by simpa using symbol?_of_mem_validateSymbol hmem

/-- The symbol that is declared where an opening is given up reports the opening. -/
theorem reportsOn_symbolFindings (hd : u.declarationLines.Nodup) (hs : s ∈ u.symbols)
    (hx : x ∈ u.scan.unclosed) (hstop : x.stoppedAt? = some s.declarationLine) :
    reportsOn x.line (u.symbolFindings settings) = [(x.toDiagnostic u.path).about s.id] := by
  have hothers : ∀ t ∈ u.symbols, t ≠ s →
      reportsOn x.line (validateSymbol settings u t (u.documentation t.declarationLine)) = [] := by
    intro t ht hne
    rw [reportsOn_validateSymbol hx, if_neg]
    intro htstop
    have hline := Option.some.inj (htstop.symm.trans hstop)
    exact hne (List.inj_on_of_nodup_map hd ht hs hline)
  rw [reportsOn, symbolFindings, filter_flatMap_eq hd.of_map hs hothers]
  exact (reportsOn_validateSymbol hx).trans (if_pos hstop)

/-- No symbol reports an opening that is open when the file ends. -/
theorem reportsOn_symbolFindings_of_none (hx : x ∈ u.scan.unclosed) (h : x.stoppedAt? = none) :
    reportsOn x.line (u.symbolFindings settings) = [] := by
  rw [reportsOn, symbolFindings, List.filter_flatMap, List.flatMap_eq_nil_iff]
  intro s _
  refine (reportsOn_validateSymbol hx).trans (if_neg ?_)
  rw [h]
  exact nofun

private theorem reportsOn_append (line : Nat) (ds es : List Diagnostic) :
    reportsOn line (ds ++ es) = reportsOn line ds ++ reportsOn line es :=
  List.filter_append _ _

end SourceUnit

/-- Every symbol gets one kind of verdict, and every opening one report. -/
theorem SourceUnit.validateUnit_hasVerdicts (settings : Settings) (u : SourceUnit)
    (hdistinct : (u.symbols.map fun s => (s.name, s.declarationLine)).Nodup)
    (hplaced : ∀ s ∈ u.symbols, 1 ≤ s.declarationLine ∧ s.declarationLine ≤ u.lineCount) :
    ∃ e ds, u.extract = .ok e ∧ validateUnit settings u = .ok ds
      ∧ u.HasVerdicts settings e ds := by
  have hnone := misplaced?_eq_none_iff.mpr hplaced
  refine ⟨_, _, extract_of_placed hnone, validateUnit_of_placed settings hnone, ?_⟩
  refine ⟨by simp [Function.comp_def], ?_, ?_, ?_, length_openAtEnd_le u⟩
  · rw [List.forall_mem_map]
    intro s hs
    have hunowned : (u.openAtEnd.map (·.toDiagnostic u.path)).filter
        (fun d => d.symbol? = some s.id) = [] := by
      refine List.filter_eq_nil_iff.mpr (List.forall_mem_map.mpr fun x _ h => ?_)
      cases of_decide_eq_true h
    rw [List.filter_append, hunowned, List.nil_append, filter_symbol?_symbolFindings hdistinct hs]
    exact verdict_validateSymbol settings u s _
  · intro hlines x hx
    cases hstop : x.stoppedAt? with
    | none =>
      refine ⟨_, ?_, fun _ => rfl, nofun⟩
      rw [reportsOn_append, reportsOn_openAtEnd hx, if_pos hstop,
        reportsOn_symbolFindings_of_none hx hstop, List.append_nil]
    | some n =>
      obtain ⟨hn, -⟩ := ((scanBlocks_unclosed u.declarationLines u.text).2 x hx).stopped n hstop
      obtain ⟨s, hs, rfl⟩ := List.mem_map.mp hn
      refine ⟨(x.toDiagnostic u.path).about s.id, ?_, nofun, ?_⟩
      · rw [reportsOn_append, reportsOn_openAtEnd hx, if_neg (by rw [hstop]; exact nofun),
          reportsOn_symbolFindings hlines hs hx hstop, List.nil_append]
      · intro n hn
        obtain rfl := Option.some.inj hn
        exact ⟨s, hs, rfl, fun t ht h => List.inj_on_of_nodup_map hlines ht hs h, rfl⟩
  · have howned : (u.symbolFindings settings).filter (fun d => d.symbol? = none) = [] := by
      refine List.filter_eq_nil_iff.mpr fun d hd h => ?_
      obtain ⟨s, -, hs⟩ := List.mem_flatMap.mp hd
      have := (symbol?_of_mem_validateSymbol hs).symm.trans (of_decide_eq_true h)
      cases this
    rw [List.filter_append, howned, List.append_nil]
    refine List.filter_eq_self.mpr (List.forall_mem_map.mpr fun x _ => ?_)
    rfl

/-- A file with an opening that runs into a declaration, a symbol without a block and an opening
that runs into the end of the file. -/
def brokenExample : SourceUnit where
  path := "sum.ts"
  text := "/**\n * Adds.\nfunction add() {}\nfunction sub() {}\n/** Halves.\n"
  language := .typescript
  symbols := [{ kind := .function, name := "add", declarationLine := 3 },
    { kind := .function, name := "sub", isExported := true, declarationLine := 4 }]

/-- The example declares two symbols of different names. -/
theorem hasVerdicts_brokenExample :
    (brokenExample.symbols.map fun s => (s.name, s.declarationLine)).Nodup
      ∧ (∀ s ∈ brokenExample.symbols, 1 ≤ s.declarationLine
        ∧ s.declarationLine ≤ brokenExample.lineCount)
      ∧ ∃ e ds, brokenExample.extract = .ok e ∧ validateUnit {} brokenExample = .ok ds
        ∧ brokenExample.HasVerdicts {} e ds := by
  have hdistinct : (brokenExample.symbols.map fun s => (s.name, s.declarationLine)).Nodup := by
    decide
  have hplaced : ∀ s ∈ brokenExample.symbols, 1 ≤ s.declarationLine
      ∧ s.declarationLine ≤ brokenExample.lineCount := by
    decide
  exact ⟨hdistinct, hplaced, brokenExample.validateUnit_hasVerdicts {} hdistinct hplaced⟩

end DocContract
