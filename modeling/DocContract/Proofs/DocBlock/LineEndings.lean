import DocContract.Proofs.DocBlock.Association
import DocContract.Proofs.Text.LineEndings
import DocContract.Schema.Validate

/-!
# Line endings do not matter

The scan looks at the number and the text of a line; where the line starts shows in the spans of
blocks only, and no check looks at a span. Carriage returns in front of the newlines move the starts
of lines and nothing else. So they change no finding of a file.
-/

namespace DocContract

open Text

/-! ### Forms without byte offsets -/

/-- The line without its offset. -/
def SourceLine.unplaced (l : SourceLine) : SourceLine := { l with offset := 0 }

/-- The block without its span. -/
def DocBlock.unspanned (b : DocBlock) : DocBlock := { b with spanStart := 0, spanEnd := 0 }

/-- The block that is being read, without the start of its span. -/
def OpenBlock.unspanned (b : OpenBlock) : OpenBlock := { b with spanStart := 0 }

/-- The state without the span of the block that is being read. -/
def ScanState.unspanned : ScanState → ScanState
  | .code => .code
  | .comment => .comment
  | .doc block => .doc block.unspanned

/-- What a scan finds, without the spans of the blocks. -/
def ScanResult.unspanned (r : ScanResult) : ScanResult :=
  { r with blocks := r.blocks.map DocBlock.unspanned }

/-- What is found of a symbol's documentation, without the span of the block. -/
def Association.unspanned : Association → Association
  | .found block => .found block.unspanned
  | .missing => .missing
  | .malformed unclosed => .malformed unclosed

private theorem ScanResult.unspanned_append (r s : ScanResult) :
    (r ++ s).unspanned = r.unspanned ++ s.unspanned := by
  change ScanResult.mk ((r.blocks ++ s.blocks).map _) (r.unclosed ++ s.unclosed) = _
  rw [List.map_append]
  rfl

/-! ### The scan -/

namespace ScanState

section Line

variable {l m : SourceLine} (hl : l.unplaced = m.unplaced)

include hl

private theorem unspanned_openDoc (after : Text) :
    (openDoc l after).1.unspanned = (openDoc m after).1.unspanned
      ∧ (openDoc l after).2.unspanned = (openDoc m after).2.unspanned := by
  obtain ⟨number, offset, text⟩ := l
  obtain ⟨number', offset', text'⟩ := m
  cases hl
  unfold openDoc
  cases cut? closeMark after <;> exact ⟨rfl, rfl⟩

private theorem unspanned_codeLine :
    (codeLine l).1.unspanned = (codeLine m).1.unspanned
      ∧ (codeLine l).2.unspanned = (codeLine m).2.unspanned := by
  have htext : l.text = m.text := (SourceLine.mk.inj hl).2.2
  unfold codeLine
  rw [htext]
  dsimp only
  split
  · split
    · exact ⟨rfl, rfl⟩
    · exact unspanned_openDoc hl _
  · split <;> exact ⟨rfl, rfl⟩

/-- A line has the same effect, spans apart, on a block that is being read. -/
theorem unspanned_step_doc (stops : List Nat) {block other : OpenBlock}
    (h : block.unspanned = other.unspanned) :
    (step stops (.doc block) l).1.unspanned = (step stops (.doc other) m).1.unspanned
      ∧ (step stops (.doc block) l).2.unspanned = (step stops (.doc other) m).2.unspanned := by
  obtain ⟨hstate, hfound⟩ := unspanned_codeLine hl
  obtain ⟨hnumber, -, htext⟩ := SourceLine.mk.inj hl
  obtain ⟨line, indent, spanStart, interior⟩ := block
  obtain ⟨line', indent', spanStart', interior'⟩ := other
  cases h
  unfold step
  simp only [hnumber, htext]
  split
  · refine ⟨hstate, ?_⟩
    rw [ScanResult.unspanned_append, hfound, ScanResult.unspanned_append]
    rfl
  · cases cut? closeMark m.text with
    | none => exact ⟨rfl, rfl⟩
    | some parts =>
      refine ⟨rfl, ?_⟩
      simp only [ScanResult.unspanned, List.map_cons, List.map_nil, DocBlock.unspanned,
        OpenBlock.close, hnumber]

private theorem unspanned_step_comment (stops : List Nat) :
    (step stops .comment l).1.unspanned = (step stops .comment m).1.unspanned
      ∧ (step stops .comment l).2.unspanned = (step stops .comment m).2.unspanned := by
  have htext : l.text = m.text := (SourceLine.mk.inj hl).2.2
  unfold step
  dsimp only
  rw [htext]
  exact ⟨rfl, rfl⟩

end Line

/-- States that differ in spans only are the same outside doc blocks. -/
theorem unspanned_eq_cases {state other : ScanState} (h : state.unspanned = other.unspanned) :
    state = .code ∧ other = .code ∨ state = .comment ∧ other = .comment
      ∨ ∃ block block', state = .doc block ∧ other = .doc block'
        ∧ block.unspanned = block'.unspanned := by
  cases state <;> cases other <;> try cases h
  case code => exact .inl ⟨rfl, rfl⟩
  case comment => exact .inr (.inl ⟨rfl, rfl⟩)
  case doc block block' => exact .inr (.inr ⟨block, block', rfl, rfl, ScanState.doc.inj h⟩)

/-- Lines and states that differ in offsets and spans have effects that differ in spans. -/
theorem unspanned_step {l m : SourceLine} (hl : l.unplaced = m.unplaced) (stops : List Nat)
    {state other : ScanState} (h : state.unspanned = other.unspanned) :
    (step stops state l).1.unspanned = (step stops other m).1.unspanned
      ∧ (step stops state l).2.unspanned = (step stops other m).2.unspanned := by
  obtain ⟨rfl, rfl⟩ | ⟨rfl, rfl⟩ | ⟨block, block', rfl, rfl, hblock⟩ := unspanned_eq_cases h
  · exact unspanned_codeLine hl
  · exact unspanned_step_comment hl stops
  · exact unspanned_step_doc hl stops hblock

/-- What is found when the file ends has no span. -/
theorem finish_eq_of_unspanned {state other : ScanState} (h : state.unspanned = other.unspanned) :
    state.finish = other.finish := by
  obtain ⟨rfl, rfl⟩ | ⟨rfl, rfl⟩ | ⟨block, block', rfl, rfl, hblock⟩ := unspanned_eq_cases h
  · rfl
  · rfl
  · obtain ⟨hline, hindent, -, -⟩ := OpenBlock.mk.inj hblock
    rw [finish, finish, OpenBlock.giveUp, OpenBlock.giveUp, hline, hindent]

private theorem unspanned_run (stops : List Nat) {state other : ScanState} {ls ms : List SourceLine}
    (h : state.unspanned = other.unspanned)
    (hls : ls.map SourceLine.unplaced = ms.map SourceLine.unplaced) :
    (run stops state ls).unspanned = (run stops other ms).unspanned := by
  induction ls generalizing state other ms with
  | nil =>
    rw [List.map_eq_nil_iff.mp hls.symm, run, run, finish_eq_of_unspanned h]
  | cons l ls ih =>
    cases ms with
    | nil => cases hls
    | cons m ms =>
      obtain ⟨hl, hls⟩ := List.cons.inj hls
      obtain ⟨hstate, hfound⟩ := unspanned_step hl stops h
      rw [run, run, ScanResult.unspanned_append, ScanResult.unspanned_append, hfound,
        ih hstate hls]

end ScanState

/-! ### The search -/

private theorem SourceLine.map_unplaced_numbered (n offset offset' : Nat) {ps qs : List Text}
    (h : ps.map dropReturn = qs.map dropReturn) :
    (numbered n offset ps).map unplaced = (numbered n offset' qs).map unplaced := by
  induction ps generalizing n offset offset' qs with
  | nil => rw [List.map_eq_nil_iff.mp h.symm, numbered, numbered]
  | cons p ps ih =>
    cases qs with
    | nil => cases h
    | cons q qs =>
      obtain ⟨hp, hps⟩ := List.cons.inj h
      rw [numbered, numbered, List.map_cons, List.map_cons, ih _ _ _ hps, unplaced, unplaced, hp]

namespace SourceUnit

/-- The search for a written line does not look at offsets. -/
theorem lastWritten?_map_unplaced (ls : List SourceLine) (bound line : Nat) :
    lastWritten? (ls.map SourceLine.unplaced) bound line = lastWritten? ls bound line := by
  rw [lastWritten?, lastWritten?, List.filter_map, List.getLast?_map, Option.map_map]
  rfl

private theorem blockEndingOn?_map_unspanned (bs : List DocBlock) (bound line : Nat) :
    blockEndingOn? (bs.map DocBlock.unspanned) bound line
      = (blockEndingOn? bs bound line).map DocBlock.unspanned := by
  rw [blockEndingOn?, List.find?_map]
  rfl

/-- The search for a block does not look at offsets or spans. -/
theorem associate_unspanned (stops : List Nat) (ls : List SourceLine) (r : ScanResult)
    (line : Nat) : associate stops (ls.map SourceLine.unplaced) r.unspanned line
      = (associate stops ls r line).unspanned := by
  have hblocks : ∀ above, (lastWritten? ls above line).bind
        (blockEndingOn? (r.blocks.map DocBlock.unspanned) above)
      = ((lastWritten? ls above line).bind (blockEndingOn? r.blocks above)).map
        DocBlock.unspanned := by
    intro above
    rw [Option.map_bind]
    congr 1
    funext n
    exact blockEndingOn?_map_unspanned r.blocks above n
  unfold associate
  simp only [ScanResult.unspanned, lastWritten?_map_unplaced, blockEndingOn?_map_unspanned, hblocks]
  cases r.unclosed.find? fun u => u.stoppedAt? == some line with
  | some unclosed => rfl
  | none =>
    dsimp only
    cases blockEndingOn? r.blocks (boundary stops line) line with
    | some block => rfl
    | none =>
      dsimp only [Option.map_none]
      cases (lastWritten? ls (boundary stops line) line).bind
        (blockEndingOn? r.blocks (boundary stops line)) <;> rfl

end SourceUnit

/-! ### The checks -/

/-- No check looks at the span of a block. -/
theorem validateSymbol_unspanned (settings : Settings) (u : SourceUnit) (s : Symbol)
    (a : Association) :
    validateSymbol settings u s a.unspanned = validateSymbol settings u s a := by
  cases a <;> rfl

namespace SourceUnit

/-- The file with a carriage return in front of every newline. -/
def withReturns (u : SourceUnit) : SourceUnit := { u with text := Text.withReturns u.text }

variable {t : Text} (h : '\r' ∉ t)

include h

private theorem map_unplaced_withReturns :
    (SourceLine.ofText (Text.withReturns t)).map SourceLine.unplaced
      = (SourceLine.ofText t).map SourceLine.unplaced :=
  SourceLine.map_unplaced_numbered 1 0 0 (map_dropReturn_withReturns h)

/-- A scan finds the same blocks and openings, spans apart. -/
theorem unspanned_scanBlocks (stops : List Nat) :
    (scanBlocks stops (Text.withReturns t)).unspanned = (scanBlocks stops t).unspanned :=
  ScanState.unspanned_run stops rfl (map_unplaced_withReturns h)

end SourceUnit

private theorem SourceUnit.documentation_withReturns {u : SourceUnit} (h : '\r' ∉ u.text)
    (line : Nat) :
    (u.withReturns.documentation line).unspanned = (u.documentation line).unspanned := by
  have hscan : u.withReturns.scan.unspanned = u.scan.unspanned := unspanned_scanBlocks h _
  have hlines : (SourceLine.ofText u.withReturns.text).map SourceLine.unplaced
      = (SourceLine.ofText u.text).map SourceLine.unplaced := map_unplaced_withReturns h
  rw [documentation, documentation, ← associate_unspanned, ← associate_unspanned, hscan, hlines]
  rfl

/-- A symbol has the same findings. -/
theorem SourceUnit.validateSymbol_withReturns (settings : Settings) {u : SourceUnit}
    (h : '\r' ∉ u.text) (s : Symbol) (line : Nat) :
    validateSymbol settings u.withReturns s (u.withReturns.documentation line)
      = validateSymbol settings u s (u.documentation line) := by
  have hfile : ∀ a, validateSymbol settings u.withReturns s a = validateSymbol settings u s a := by
    intro a
    cases a <;> rfl
  rw [hfile, ← validateSymbol_unspanned, documentation_withReturns h, validateSymbol_unspanned]

/-- The same symbols are declared outside the file. -/
theorem SourceUnit.lineCount_withReturns {u : SourceUnit} (h : '\r' ∉ u.text) :
    u.withReturns.lineCount = u.lineCount :=
  congrArg List.length (lines_withReturns h)

/-- Carriage returns in front of the newlines of a file change neither its findings nor a failure,
and a scan finds the same, spans apart. -/
theorem validateUnit_withReturns (settings : Settings) (u : SourceUnit) (h : '\r' ∉ u.text) :
    validateUnit settings u.withReturns = validateUnit settings u
      ∧ ∀ stops, (scanBlocks stops u.withReturns.text).unspanned
          = (scanBlocks stops u.text).unspanned := by
  refine ⟨?_, SourceUnit.unspanned_scanBlocks h⟩
  have hcount := SourceUnit.lineCount_withReturns h
  have hmisplaced : u.withReturns.misplaced? = u.misplaced? :=
    SourceUnit.misplaced?_withText hcount
  cases hplaced : u.misplaced? with
  | some s =>
    rw [validateUnit, validateUnit, SourceUnit.extract_of_misplaced hplaced,
      SourceUnit.extract_of_misplaced (hmisplaced.trans hplaced), hcount]
    rfl
  | none =>
    have hunclosed : u.withReturns.scan.unclosed = u.scan.unclosed :=
      (ScanResult.mk.inj (SourceUnit.unspanned_scanBlocks h u.declarationLines)).2
    have hsymbols := List.flatMap_congr fun s (_ : s ∈ u.symbols) =>
      SourceUnit.validateSymbol_withReturns settings h s s.declarationLine
    rw [validateUnit, validateUnit, SourceUnit.extract_of_placed hplaced,
      SourceUnit.extract_of_placed (hmisplaced.trans hplaced)]
    simp only [Except.map, List.flatMap_map]
    rw [hunclosed]
    exact congrArg (fun ds => Except.ok (_ ++ ds)) hsymbols

/-- A file with an unknown tag in a block of four lines. -/
def describedExample : SourceUnit where
  path := "sum.ts"
  text := "/**\n * Adds.\n * @foo\n */\nfunction add() {}\n"
  language := .typescript
  symbols := [{ kind := .function, name := "add", isExported := true, declarationLine := 5 }]

/-- The example has six pieces between newlines, the last one empty. -/
theorem validateUnit_withReturns_describedExample :
    '\r' ∉ describedExample.text
      ∧ validateUnit {} describedExample.withReturns = validateUnit {} describedExample
      ∧ ∀ stops, (scanBlocks stops describedExample.withReturns.text).unspanned
          = (scanBlocks stops describedExample.text).unspanned := by
  have h : '\r' ∉ describedExample.text := by decide
  exact ⟨h, validateUnit_withReturns {} describedExample h⟩

end DocContract
