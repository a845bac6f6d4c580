import DocContract.Proofs.DocBlock.Association
import DocContract.Proofs.DocBlock.Unclosed
import DocContract.Proofs.Text.Blanked
import Mathlib.Data.List.Find

/-!
# A block that is not closed spoils nothing below

On the line on which the scan gives up a block it goes on as if the file began there. So a scan
finds the same on that line and below when the lines above it are blanked, and the declarations
below it find the same blocks.
-/

namespace DocContract

open Text

/-- What starts on a line or below it. -/
def ScanResult.fromLine (d : Nat) (r : ScanResult) : ScanResult :=
  ⟨r.blocks.filter (d ≤ ·.startLine), r.unclosed.filter (d ≤ ·.line)⟩

/-- The lines of a text from a number on. -/
def SourceLine.fromLine (d : Nat) (ls : List SourceLine) : List SourceLine :=
  ls.filter (d ≤ ·.number)

private theorem ScanResult.fromLine_append (d : Nat) (r s : ScanResult) :
    (r ++ s).fromLine d = r.fromLine d ++ s.fromLine d := by
  change ScanResult.mk ((r.blocks ++ s.blocks).filter _) ((r.unclosed ++ s.unclosed).filter _) = _
  rw [List.filter_append, List.filter_append]
  rfl

private theorem ScanResult.fromLine_eq_self {d : Nat} {r : ScanResult}
    (hblocks : ∀ b ∈ r.blocks, d ≤ b.startLine) (hunclosed : ∀ x ∈ r.unclosed, d ≤ x.line) :
    r.fromLine d = r := by
  rw [fromLine, List.filter_eq_self.mpr (by simpa using hblocks),
    List.filter_eq_self.mpr (by simpa using hunclosed)]

private theorem ScanResult.fromLine_eq_empty {d : Nat} {r : ScanResult}
    (hblocks : ∀ b ∈ r.blocks, b.startLine < d) (hunclosed : ∀ x ∈ r.unclosed, x.line < d) :
    r.fromLine d = {} := by
  rw [fromLine, List.filter_eq_nil_iff.mpr (by simpa using hblocks),
    List.filter_eq_nil_iff.mpr (by simpa using hunclosed)]

/-! ### The scan -/

namespace ScanState

variable {stops : List Nat} {d : Nat}

/-- A scan that starts outside comments finds nothing above its lines. -/
theorem fromLine_run_code {ls : List SourceLine} (hls : SourceLine.Ascending ls)
    (h : ∀ l ∈ ls, d ≤ l.number) : (run stops .code ls).fromLine d = run stops .code ls := by
  refine ScanResult.fromLine_eq_self (fun b hb => ?_) fun x hx => ?_
  · obtain ⟨l, hl, hline⟩ := exists_start_of_mem_run hls hb
    exact hline ▸ h l hl
  · obtain ⟨l, hl, hline⟩ := exists_line_of_mem_run hls hx
    exact hline ▸ h l hl

/-- A line above finds nothing that starts below. -/
theorem fromLine_step {state : ScanState} {l : SourceLine} (hl : l.number < d)
    (hopen : ∀ n ∈ state.openLine?, n < l.number) : (step stops state l).2.fromLine d = {} := by
  refine ScanResult.fromLine_eq_empty (fun b hb => ?_) fun x hx => ?_
  · have heffect := effect_step stops state l
    generalize (step stops state l).1 = next at heffect
    generalize (step stops state l).2.blocks = found at hb heffect
    cases heffect with
    | none opened => cases hb
    | one starts ends written =>
      rw [List.mem_singleton.mp hb]
      rcases starts with hline | hstate
      · omega
      · exact (hopen _ hstate).trans hl
  · rcases step_unclosed_cases stops state l with hnone | ⟨block, rfl, -, hone⟩
    · rw [hnone] at hx
      cases hx
    · rw [hone] at hx
      rw [List.mem_singleton.mp hx]
      exact (hopen block.line rfl).trans hl

/-- The line on which a block is given up is read as the first line of a file. -/
theorem fromLine_run_doc {block : OpenBlock} {l : SourceLine} {ls : List SourceLine}
    (hls : SourceLine.Ascending (l :: ls)) (hfrom : ∀ m ∈ l :: ls, l.number ≤ m.number)
    (hstop : l.number ∈ stops) (hblock : block.line < l.number) :
    (run stops (.doc block) (l :: ls)).fromLine l.number
      = run stops .code (SourceLine.fromLine l.number (l :: ls)) := by
  have hrun : run stops (.doc block) (l :: ls)
      = { unclosed := [block.giveUp (some l.number)] } ++ run stops .code (l :: ls) := by
    rw [run, step_doc_of_mem hstop]
    rfl
  have habove : ({ unclosed := [block.giveUp (some l.number)] } : ScanResult).fromLine l.number
      = {} := ScanResult.fromLine_eq_empty (List.forall_mem_nil _)
    (List.forall_mem_singleton.mpr hblock)
  rw [hrun, ScanResult.fromLine_append, habove, ScanResult.empty_append,
    fromLine_run_code hls hfrom, SourceLine.fromLine,
    List.filter_eq_self.mpr (by simpa using hfrom)]

/-- From the line on which an opening is given up the scan goes on as from the start of a file. -/
theorem fromLine_run {state : ScanState} {ls : List SourceLine} (hls : SourceLine.Ascending ls)
    (hopen : ∀ n ∈ state.openLine?, ∀ l ∈ ls, n < l.number) {x : Unclosed}
    (hx : x ∈ (run stops state ls).unclosed) (hd : x.stoppedAt? = some d) :
    (run stops state ls).fromLine d = run stops .code (SourceLine.fromLine d ls) := by
  induction ls generalizing state with
  | nil =>
    cases state with
    | code => cases hx
    | comment => cases hx
    | doc block =>
      rw [List.mem_singleton.mp hx] at hd
      cases hd
  | cons l ls ih =>
    obtain ⟨hbelow, hrest⟩ := List.pairwise_cons.mp hls
    have hhead : ∀ n ∈ state.openLine?, n < l.number := fun n hn => hopen n hn l List.mem_cons_self
    have hnext : ∀ n ∈ (step stops state l).1.openLine?, ∀ m ∈ ls, n < m.number :=
      lt_of_opened (openLine?_step stops state l) hls hopen
    have hrun : run stops state (l :: ls)
        = (step stops state l).2 ++ run stops (step stops state l).1 ls := rfl
    rw [hrun] at hx
    rcases List.mem_append.mp hx with hx | hx
    · rcases step_unclosed_cases stops state l with hnone | ⟨block, rfl, hstop, hone⟩
      · rw [hnone] at hx
        cases hx
      · rw [hone] at hx
        rw [List.mem_singleton.mp hx] at hd
        obtain rfl : l.number = d := Option.some.inj hd
        have hfrom : ∀ m ∈ l :: ls, l.number ≤ m.number :=
          List.forall_mem_cons.mpr ⟨le_rfl, fun m hm => (hbelow m hm).le⟩
        exact fromLine_run_doc hls hfrom hstop (hhead block.line rfl)
    · obtain ⟨-, m, hm, rfl⟩ := ((run_unclosed hrest hnext).2 x hx).stopped d hd
      have hl : l.number < m.number := hbelow m hm
      rw [hrun, ScanResult.fromLine_append, fromLine_step hl hhead, ScanResult.empty_append,
        ih hrest hnext hx, SourceLine.fromLine, SourceLine.fromLine,
        List.filter_cons_of_neg (by simpa using hl)]

/-- Blank lines outside comments are skipped. -/
theorem run_code_append_of_isBlank {blanks : List SourceLine} (h : ∀ l ∈ blanks, l.isBlank = true)
    (ls : List SourceLine) : run stops .code (blanks ++ ls) = run stops .code ls := by
  induction blanks with
  | nil => rfl
  | cons l blanks ih =>
    obtain ⟨hl, hblanks⟩ := List.forall_mem_cons.mp h
    have hstep : step stops .code l = (.code, {}) := by
      have hnil : trimStart l.text = [] := trimStart_eq_nil.mpr hl
      rw [step, codeLine, hnil]
      rfl
    rw [List.cons_append, run, hstep]
    exact (ScanResult.empty_append _).trans (ih hblanks)

end ScanState

/-! ### Blanked lines -/

namespace SourceLine

variable {k : Nat} {t : Text}

/-- The lines of a text, cut behind the first ones. -/
theorem ofText_split (h : k ≤ (rawLines t).length) : ofText t
    = numbered 1 0 ((rawLines t).take k)
      ++ numbered (k + 1) (widthOf ((rawLines t).take k)) ((rawLines t).drop k) := by
  conv => lhs; rw [ofText, ← List.take_append_drop k (rawLines t)]
  rw [numbered_append, List.length_take_of_le h, Nat.add_comm, Nat.zero_add]

private theorem fromLine_ofText (h : k ≤ (rawLines t).length) : fromLine (k + 1) (ofText t)
    = numbered (k + 1) (widthOf ((rawLines t).take k)) ((rawLines t).drop k) := by
  have habove : ∀ l ∈ numbered 1 0 ((rawLines t).take k), ¬ k + 1 ≤ l.number := by
    intro l hl
    have hnumber := (of_mem_numbered hl).2.1
    rw [List.length_take_of_le h] at hnumber
    omega
  rw [fromLine, ofText_split h, List.filter_append,
    List.filter_eq_nil_iff.mpr (by simpa using habove),
    List.filter_eq_self.mpr fun l hl => by simpa using (of_mem_numbered hl).1, List.nil_append]

private theorem widthOf_map_spaces (pieces : List Text) :
    widthOf (pieces.map spaces) = widthOf pieces := by
  induction pieces with
  | nil => rfl
  | cons p r ih => rw [List.map_cons, widthOf, widthOf, ih, width_spaces]

/-- Blanking the first lines leaves the others where they are. -/
theorem ofText_blankLines (h : k ≤ (rawLines t).length) : ofText (blankLines k t)
    = numbered 1 0 (((rawLines t).take k).map spaces) ++ fromLine (k + 1) (ofText t) := by
  rw [ofText, rawLines_blankLines, numbered_append, fromLine_ofText h, widthOf_map_spaces,
    List.length_map, List.length_take_of_le h, Nat.add_comm, Nat.zero_add]

private theorem isBlank_of_mem_numbered_spaces {n offset : Nat} {pieces : List Text}
    {l : SourceLine}
    (h : l ∈ numbered n offset (pieces.map spaces)) : l.isBlank = true := by
  obtain ⟨-, -, piece, hpiece, htext⟩ := of_mem_numbered h
  obtain ⟨p, -, rfl⟩ := List.mem_map.mp hpiece
  rw [isBlank, htext, isBlankText, List.all_eq_true]
  exact fun c hc => List.all_eq_true.mp (isBlankText_spaces p) c (mem_of_mem_dropReturn hc)

end SourceLine

/-- The text with the lines above a line blanked. -/
def blankAbove (d : Nat) (t : Text) : Text := blankLines (d - 1) t

/-- A line of a text has a piece of its own. -/
theorem SourceLine.length_of_mem_ofText {t : Text} {l : SourceLine} (h : l ∈ ofText t) :
    l.number - 1 < (rawLines t).length ∧ l.number - 1 + 1 = l.number := by
  obtain ⟨hfirst, hlast, -⟩ := of_mem_numbered h
  omega

/-- Behind blank lines above the line, the text has the same lines as before. -/
theorem SourceLine.ofText_blankAbove {t : Text} {l : SourceLine} (h : l ∈ ofText t) :
    ∃ blanks, (∀ m ∈ blanks, m.isBlank = true) ∧ fromLine l.number blanks = []
      ∧ ofText (blankAbove l.number t) = blanks ++ fromLine l.number (ofText t) := by
  obtain ⟨hlength, hnumber⟩ := length_of_mem_ofText h
  have hlines := ofText_blankLines hlength.le
  rw [hnumber] at hlines
  refine ⟨_, fun m hm => isBlank_of_mem_numbered_spaces hm, ?_, hlines⟩
  refine List.filter_eq_nil_iff.mpr fun m hm => ?_
  have habove := (of_mem_numbered hm).2.1
  rw [List.length_map, List.length_take_of_le hlength.le] at habove
  rw [decide_eq_true_eq]
  omega

private theorem SourceLine.fromLine_fromLine (d : Nat) (ls : List SourceLine) :
    fromLine d (fromLine d ls) = fromLine d ls := by
  rw [fromLine, fromLine, List.filter_filter]
  exact List.filter_congr fun l _ => Bool.and_self _

/-- A scan of the text with the lines above blanked finds what starts on the line or below it. -/
theorem fromLine_scanBlocks {stops : List Nat} {t : Text} {x : Unclosed} {d : Nat}
    (hx : x ∈ (scanBlocks stops t).unclosed) (hd : x.stoppedAt? = some d) :
    (scanBlocks stops t).fromLine d = scanBlocks stops (blankAbove d t) := by
  obtain ⟨-, l, hl, rfl⟩ := ((scanBlocks_unclosed stops t).2 x hx).stopped d hd
  obtain ⟨blanks, hblank, -, hlines⟩ := SourceLine.ofText_blankAbove hl
  have hbelow : scanBlocks stops (blankAbove l.number t)
      = ScanState.run stops .code (SourceLine.fromLine l.number (SourceLine.ofText t)) := by
    rw [scanBlocks, hlines, ScanState.run_code_append_of_isBlank hblank]
  rw [hbelow]
  exact ScanState.fromLine_run (SourceLine.ascending_ofText t) ScanState.forall_openLine?_code hx hd

/-! ### The declarations below -/

namespace SourceUnit

section Search

variable {stops : List Nat} {d bound line : Nat}

/-- A declaration above a line bounds the search from there. -/
theorem le_boundary (hd : d ∈ stops) (hline : d < line) : d ≤ boundary stops line := by
  by_contra hlt
  have := (boundary_lt_iff (by omega)).mp (not_le.mp hlt) d hd le_rfl
  omega

private theorem blockEndingOn?_filter_startLine (bs : List DocBlock) (h : d ≤ bound) :
    blockEndingOn? (bs.filter (d ≤ ·.startLine)) bound line = blockEndingOn? bs bound line := by
  rw [blockEndingOn?, List.find?_filter]
  refine List.find?_congr fun b _ => ?_
  rw [Bool.eq_iff_iff]
  simp only [Bool.and_eq_true, beq_iff_eq, decide_eq_true_eq]
  omega

private theorem lastWritten?_fromLine (ls : List SourceLine) (h : d ≤ bound) :
    lastWritten? (SourceLine.fromLine d ls) bound line = lastWritten? ls bound line := by
  rw [lastWritten?, SourceLine.fromLine, List.filter_filter]
  congr 2
  refine List.filter_congr fun l _ => ?_
  rw [Bool.eq_iff_iff]
  simp only [Bool.and_eq_true, decide_eq_true_eq]
  constructor
  · exact fun hl => hl.1
  · exact fun hl => ⟨hl, h.trans hl.1.1.le⟩

/-- What is found for a line depends on what starts from a declaration above it on. -/
theorem associate_congr_fromLine {ls ms : List SourceLine} {r : ScanResult} (hd : d ∈ stops)
    (hline : d < line) (hlines : SourceLine.fromLine d ms = SourceLine.fromLine d ls)
    (hunclosed : ∀ x ∈ r.unclosed, x.stoppedAt? = some line → d ≤ x.line) :
    associate stops ms (r.fromLine d) line = associate stops ls r line := by
  have hbound := le_boundary hd hline
  have hstopped : (r.unclosed.filter (d ≤ ·.line)).find? (fun x => x.stoppedAt? == some line)
      = r.unclosed.find? fun x => x.stoppedAt? == some line := by
    rw [List.find?_filter]
    refine List.find?_congr fun x hx => ?_
    rw [Bool.eq_iff_iff]
    simpa using hunclosed x hx
  have hwritten : lastWritten? ms (boundary stops line) line
      = lastWritten? ls (boundary stops line) line := by
    rw [← lastWritten?_fromLine ms hbound, hlines, lastWritten?_fromLine ls hbound]
  have hblocks : blockEndingOn? (r.blocks.filter (d ≤ ·.startLine)) (boundary stops line)
      = blockEndingOn? r.blocks (boundary stops line) :=
    funext fun n => blockEndingOn?_filter_startLine r.blocks hbound
  unfold associate ScanResult.fromLine
  dsimp only
  rw [hstopped, hblocks, hwritten]

end Search

/-- The file with the lines above a line blanked. -/
def blankAbove (d : Nat) (u : SourceUnit) : SourceUnit :=
  { u with text := DocContract.blankAbove d u.text }

variable {u : SourceUnit} {x : Unclosed} {d : Nat}

private theorem documentation_blankAbove (hx : x ∈ u.scan.unclosed) (hd : x.stoppedAt? = some d)
    {line : Nat} (hline : d < line) :
    (u.blankAbove d).documentation line = u.documentation line := by
  obtain ⟨hstop, l, hl, rfl⟩ :=
    ((scanBlocks_unclosed u.declarationLines u.text).2 x hx).stopped d hd
  obtain ⟨blanks, -, habove, hlines⟩ := SourceLine.ofText_blankAbove hl
  have hscan : (u.blankAbove l.number).scan = u.scan.fromLine l.number :=
    (fromLine_scanBlocks hx hd).symm
  have hbelow : SourceLine.fromLine l.number (SourceLine.ofText (u.blankAbove l.number).text)
      = SourceLine.fromLine l.number (SourceLine.ofText u.text) := by
    rw [blankAbove, hlines, SourceLine.fromLine, List.filter_append]
    exact (congrArg (· ++ _) habove).trans (SourceLine.fromLine_fromLine _ _)
  rw [documentation, hscan]
  exact associate_congr_fromLine hstop hline hbelow fun y hy hyd =>
    le_line_of_stoppedAt? hx hy hd hyd hline

/-- The same symbols are declared outside the file. -/
theorem lineCount_blankAbove {l : SourceLine} (hl : l ∈ SourceLine.ofText u.text) :
    (u.blankAbove l.number).lineCount = u.lineCount :=
  length_lines_blankLines (SourceLine.length_of_mem_ofText hl).1

end SourceUnit

/-- The declarations below a line, with what is found for them. -/
def Extraction.declaredBelow (d : Nat) (e : Extraction) : List (Symbol × Association) :=
  e.symbols.filter (d < ·.1.declarationLine)

private theorem SourceUnit.extract_blankAbove {u : SourceUnit} {x : Unclosed} {d : Nat}
    (hx : x ∈ u.scan.unclosed) (hd : x.stoppedAt? = some d) :
    (u.blankAbove d).extract.map (·.declaredBelow d) = u.extract.map (·.declaredBelow d) := by
  obtain ⟨-, l, hl, rfl⟩ := ((scanBlocks_unclosed u.declarationLines u.text).2 x hx).stopped d hd
  have hcount := lineCount_blankAbove hl
  have hmisplaced : (u.blankAbove l.number).misplaced? = u.misplaced? := misplaced?_withText hcount
  cases hplaced : u.misplaced? with
  | some s =>
    rw [extract_of_misplaced hplaced, extract_of_misplaced (hmisplaced.trans hplaced), hcount]
    rfl
  | none =>
    rw [extract_of_placed hplaced, extract_of_placed (hmisplaced.trans hplaced)]
    refine congrArg Except.ok ?_
    simp only [Extraction.declaredBelow, List.filter_map]
    refine List.map_congr_left fun s hs => ?_
    have hline : l.number < s.declarationLine := by simpa using (List.mem_filter.mp hs).2
    rw [documentation_blankAbove hx hd hline]

/-- An opening that is given up on a line takes nothing from that line on: a scan finds the same
there with all text above blanked, and so does the search for the declarations below. -/
theorem scanBlocks_blankAbove (stops : List Nat) (t : Text) (x : Unclosed) (d : Nat)
    (hx : x ∈ (scanBlocks stops t).unclosed) (hd : x.stoppedAt? = some d) :
    (scanBlocks stops t).fromLine d = scanBlocks stops (blankAbove d t)
      ∧ ∀ u : SourceUnit, u.text = t → u.declarationLines = stops →
        (u.blankAbove d).extract.map (·.declaredBelow d)
          = u.extract.map (·.declaredBelow d) := by
  refine ⟨fromLine_scanBlocks hx hd, ?_⟩
  rintro u rfl rfl
  exact SourceUnit.extract_blankAbove hx hd

/-- A block that is open on the line of a declaration, and a closed one below it. -/
def swallowingExample : Text :=
  "/**\n * Adds.\nfunction add() {}\n/** Doubles. */\nfunction double() {}"

/-- The example opens a block on the first line and declares a symbol on the third. -/
theorem scanBlocks_blankAbove_swallowingExample :
    ⟨1, 1, some 3⟩ ∈ (scanBlocks [3, 5] swallowingExample).unclosed
      ∧ (scanBlocks [3, 5] swallowingExample).fromLine 3
        = scanBlocks [3, 5] (blankAbove 3 swallowingExample)
      ∧ ∀ u : SourceUnit, u.text = swallowingExample → u.declarationLines = [3, 5] →
        (u.blankAbove 3).extract.map (·.declaredBelow 3)
          = u.extract.map (·.declaredBelow 3) := by
  have h : ⟨1, 1, some 3⟩ ∈ (scanBlocks [3, 5] swallowingExample).unclosed := by decide
  exact ⟨h, scanBlocks_blankAbove [3, 5] swallowingExample ⟨1, 1, some 3⟩ 3 h rfl⟩

end DocContract
