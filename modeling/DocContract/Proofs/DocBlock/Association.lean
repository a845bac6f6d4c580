import DocContract.DocBlock.Association
import DocContract.Proofs.DocBlock.Scan
import Mathlib.Data.List.Basic

/-!
# The block that is found for a symbol

A block documents a declaration when nothing but blank lines lies between them and nothing else is
declared from the first line of the block on. The search finds such a block whenever there is one.
There may be two, one of which ends on the line of the declaration, and that one is found. Blocks
that are found for different lines lie on different sides of a declaration, so they differ.
-/

namespace DocContract

/-! ### Bounds of the search -/

private theorem foldl_max_lt_iff {xs : List Nat} {a n : Nat} :
    xs.foldl max a < n ↔ a < n ∧ ∀ x ∈ xs, x < n := by
  induction xs generalizing a with
  | nil => simp
  | cons x xs ih => rw [List.foldl_cons, ih, Nat.max_lt, List.forall_mem_cons, and_assoc]

/-- The boundary lies above a line exactly when every declaration above does. -/
theorem SourceUnit.boundary_lt_iff {stops : List Nat} {line n : Nat} (hn : 0 < n) :
    boundary stops line < n ↔ ∀ d ∈ stops, n ≤ d → line ≤ d := by
  rw [boundary, foldl_max_lt_iff]
  constructor
  · rintro ⟨-, h⟩ d hd hle
    by_contra hlt
    have := h d (List.mem_filter.mpr ⟨hd, by simpa using hlt⟩)
    omega
  · intro h
    refine ⟨hn, fun d hd => ?_⟩
    obtain ⟨hd, hlt⟩ := List.mem_filter.mp hd
    have hlt : d < line := by simpa using hlt
    by_contra hle
    have := h d hd (by omega)
    omega

/-- The last one of ascending lines is the one with the greatest number. -/
theorem SourceLine.Ascending.getLast?_eq_some_iff {ls : List SourceLine} (h : Ascending ls)
    {l : SourceLine} : ls.getLast? = some l ↔ l ∈ ls ∧ ∀ m ∈ ls, m.number ≤ l.number := by
  rcases List.eq_nil_or_concat' ls with rfl | ⟨init, last, rfl⟩
  · simp
  · have hinit : ∀ m ∈ init, m.number < last.number := fun m hm =>
      (List.pairwise_append.mp h).2.2 m hm last List.mem_cons_self
    rw [List.getLast?_concat, Option.some.injEq]
    constructor
    · rintro rfl
      refine ⟨by simp, List.forall_mem_append.mpr ⟨fun m hm => (hinit m hm).le, by simp⟩⟩
    · rintro ⟨hl, hall⟩
      have hlast := hall last (by simp)
      rcases List.mem_append.mp hl with hl | hl
      · have := hinit l hl
        omega
      · exact (List.mem_singleton.mp hl).symm

/-- The search above a line comes to a written line behind which every line is blank. -/
theorem SourceUnit.lastWritten?_eq_some_iff {ls : List SourceLine} (h : SourceLine.Ascending ls)
    {bound line n : Nat} : lastWritten? ls bound line = some n ↔
      bound < n ∧ n < line ∧ (∃ l ∈ ls, l.number = n ∧ l.isBlank = false)
        ∧ ∀ l ∈ ls, n < l.number → l.number < line → l.isBlank = true := by
  have hfilter : SourceLine.Ascending (ls.filter fun l =>
    bound < l.number && l.number < line && !l.isBlank) := h.filter _
  have hmem : ∀ l : SourceLine, l ∈ ls.filter (fun l =>
      bound < l.number && l.number < line && !l.isBlank)
      ↔ l ∈ ls ∧ bound < l.number ∧ l.number < line ∧ l.isBlank = false := by
    simp [List.mem_filter, and_assoc]
  rw [lastWritten?, Option.map_eq_some_iff]
  simp only [hfilter.getLast?_eq_some_iff, hmem]
  constructor
  · rintro ⟨l, ⟨⟨hl, hbound, hline, hwritten⟩, hall⟩, rfl⟩
    refine ⟨hbound, hline, ⟨l, hl, rfl, hwritten⟩, fun m hm hlt hmline => ?_⟩
    by_contra hblank
    have := hall m ⟨hm, by omega, hmline, by simpa using hblank⟩
    omega
  · rintro ⟨hbound, hline, ⟨l, hl, rfl, hwritten⟩, hall⟩
    refine ⟨l, ⟨⟨hl, hbound, hline, hwritten⟩, fun m ⟨hm, _, hmline, hmwritten⟩ => ?_⟩, rfl⟩
    by_contra hlt
    have := hall m hm (by omega) hmline
    rw [this] at hmwritten
    cases hmwritten

private theorem SourceUnit.blockEndingOn?_eq_some {bs : List DocBlock} {bound line : Nat}
    {b : DocBlock}
    (h : blockEndingOn? bs bound line = some b) :
    b ∈ bs ∧ b.endLine = line ∧ bound < b.startLine := by
  have hp := List.find?_some h
  simp only [Bool.and_eq_true, beq_iff_eq, decide_eq_true_eq] at hp
  exact ⟨List.mem_of_find?_eq_some h, hp⟩

private theorem SourceUnit.exists_blockEndingOn? {bs : List DocBlock} {bound : Nat} {b : DocBlock}
    (hb : b ∈ bs) (h : bound < b.startLine) : ∃ c, blockEndingOn? bs bound b.endLine = some c := by
  rw [← Option.isSome_iff_exists, blockEndingOn?, List.find?_isSome]
  exact ⟨b, hb, by simpa using h⟩

/-! ### Blocks that document a declaration -/

namespace SourceUnit

variable {u : SourceUnit} {b c : DocBlock} {line : Nat}

/-- What the scan of the file finds. -/
def scan (u : SourceUnit) : ScanResult := scanBlocks u.declarationLines u.text

/-- What is found for a declaration on a line. -/
def documentation (u : SourceUnit) (line : Nat) : Association :=
  associate u.declarationLines (SourceLine.ofText u.text) u.scan line

/-- The block ends on the line or above it with nothing but blank lines between, and no symbol is
declared on a line from its first one up to that line. -/
structure Documents (u : SourceUnit) (b : DocBlock) (line : Nat) : Prop where
  ends : b.endLine ≤ line
  blank : ∀ l ∈ SourceLine.ofText u.text, b.endLine < l.number → l.number < line →
    l.isBlank = true
  undeclared : ∀ s ∈ u.symbols, b.startLine ≤ s.declarationLine → line ≤ s.declarationLine

private theorem stacked_scan (u : SourceUnit) : Stacked u.scan.blocks :=
  (scanBlocks_blocks u.declarationLines u.text).1

private theorem liesOn_scan (hb : b ∈ u.scan.blocks) : b.LiesOn none (SourceLine.ofText u.text) :=
  (scanBlocks_blocks u.declarationLines u.text).2 b hb

private theorem startLine_pos (hb : b ∈ u.scan.blocks) : 0 < b.startLine := by
  rcases (liesOn_scan hb).starts with h | ⟨l, hl, h⟩
  · cases h
  · rw [← h]
    exact SourceLine.pos_of_mem_ofText hl

/-- The boundary lies above a block exactly when nothing is declared from its first line on. -/
theorem boundary_lt_startLine_iff (hb : b ∈ u.scan.blocks) :
    boundary u.declarationLines line < b.startLine
      ↔ ∀ s ∈ u.symbols, b.startLine ≤ s.declarationLine → line ≤ s.declarationLine := by
  rw [boundary_lt_iff (startLine_pos hb), declarationLines, List.forall_mem_map]

/-- At most one of the blocks that document a declaration ends above it, and at most one on its
line. -/
theorem Documents.eq_of_ends (hb : b ∈ u.scan.blocks) (hc : c ∈ u.scan.blocks)
    (hdb : u.Documents b line) (hdc : u.Documents c line)
    (h : b.endLine < line ↔ c.endLine < line) : b = c := by
  obtain ⟨-, ⟨l, hl, hlend, hlwritten⟩, hbordered⟩ := liesOn_scan hb
  obtain ⟨-, ⟨m, hm, hmend, hmwritten⟩, hcordered⟩ := liesOn_scan hc
  have hbends := hdb.ends
  have hcends := hdc.ends
  -- The last line of the lower one would be a written line between the upper one and the
  -- declaration.
  rcases eq_or_of_pairwise (stacked_scan u) hb hc with rfl | hlt | hlt
  · rfl
  · by_cases hline : c.endLine < line
    · have := hdb.blank m hm (by omega) (by omega)
      rw [this] at hmwritten
      cases hmwritten
    · omega
  · by_cases hline : b.endLine < line
    · have := hdc.blank l hl (by omega) (by omega)
      rw [this] at hlwritten
      cases hlwritten
    · omega

/-! ### The search -/

/-- A block that is found documents the declaration, and ends on
its line if any block that documents it does. -/
theorem documents_of_found (h : u.documentation line = .found b) :
    b ∈ u.scan.blocks ∧ u.Documents b line
      ∧ ∀ c ∈ u.scan.blocks, u.Documents c line → c.endLine = line → b.endLine = line := by
  unfold documentation associate at h
  split at h
  · cases h
  · dsimp only at h
    split at h
    · next found hfound =>
      cases h
      obtain ⟨hb, hend, hbound⟩ := blockEndingOn?_eq_some hfound
      refine ⟨hb, ⟨hend.le, fun l _ hlt hgt => by omega, ?_⟩, fun _ _ _ _ => hend⟩
      exact (boundary_lt_startLine_iff hb).mp hbound
    · next hnone =>
      split at h
      · next found hfound =>
        cases h
        obtain ⟨n, hwritten, hfound⟩ := Option.bind_eq_some_iff.mp hfound
        obtain ⟨hb, rfl, hbound⟩ := blockEndingOn?_eq_some hfound
        obtain ⟨-, hline, -, hblank⟩ :=
          (lastWritten?_eq_some_iff (SourceLine.ascending_ofText u.text)).mp hwritten
        refine ⟨hb, ⟨hline.le, hblank, (boundary_lt_startLine_iff hb).mp hbound⟩, ?_⟩
        rintro c hc hdc rfl
        have hbelow := (boundary_lt_startLine_iff hc).mpr hdc.undeclared
        obtain ⟨d, hd⟩ := exists_blockEndingOn? hc hbelow
        rw [hd] at hnone
        cases hnone
      · cases h

/-- Where no unclosed block stopped, a declaration that a block documents is found one. -/
theorem exists_found_of_documents (hstop : ∀ x ∈ u.scan.unclosed, x.stoppedAt? ≠ some line)
    (hc : c ∈ u.scan.blocks) (hdc : u.Documents c line) :
    ∃ b, u.documentation line = .found b := by
  have hbound := (boundary_lt_startLine_iff hc).mpr hdc.undeclared
  obtain ⟨-, hend, hordered⟩ := liesOn_scan hc
  unfold documentation associate
  split
  · next x hx =>
    have hp := List.find?_some hx
    exact absurd (by simpa using hp) (hstop x (List.mem_of_find?_eq_some hx))
  · dsimp only
    split
    · next b hb => exact ⟨b, rfl⟩
    · next hnone =>
      have hlt : c.endLine < line := by
        refine Nat.lt_of_le_of_ne hdc.ends ?_
        rintro rfl
        obtain ⟨d, hd⟩ := exists_blockEndingOn? hc hbound
        rw [hd] at hnone
        cases hnone
      have hwritten : lastWritten? (SourceLine.ofText u.text) (boundary u.declarationLines line)
          line = some c.endLine :=
        (lastWritten?_eq_some_iff (SourceLine.ascending_ofText u.text)).mpr
          ⟨by omega, hlt, hend, hdc.blank⟩
      obtain ⟨b, hb⟩ := exists_blockEndingOn? hc hbound
      rw [hwritten, Option.bind_some, hb]
      exact ⟨b, rfl⟩

/-- A block that is found for a line lies above the line, and below every declaration above it. -/
theorem ne_of_found_of_lt {line' : Nat} (hlt : line < line')
    (hdeclared : ∃ s ∈ u.symbols, s.declarationLine = line)
    (hb : u.documentation line = .found b) (hc : u.documentation line' = .found c) : b ≠ c := by
  obtain ⟨hbmem, hdb, -⟩ := documents_of_found hb
  obtain ⟨-, hdc, -⟩ := documents_of_found hc
  obtain ⟨s, hs, rfl⟩ := hdeclared
  rintro rfl
  have hends := hdb.ends
  have hordered := (liesOn_scan hbmem).ordered
  have := hdc.undeclared s hs (by omega)
  omega

/-- A block that is found is the only one that documents the declaration, but for one that ends
above it when the one that is found ends on its line. -/
theorem ends_of_found_of_ne (hb : u.documentation line = .found b) (hc : c ∈ u.scan.blocks)
    (hdc : u.Documents c line) (hne : c ≠ b) : b.endLine = line ∧ c.endLine < line := by
  obtain ⟨hmem, hdb, hlowest⟩ := documents_of_found hb
  have hbends := hdb.ends
  have hcends := hdc.ends
  have hline : b.endLine = line := by
    by_contra hb'
    have hc' := mt (hlowest c hc hdc) hb'
    exact hne (hdc.eq_of_ends hc hmem hdb (iff_of_true (by omega) (by omega)))
  refine ⟨hline, ?_⟩
  by_contra hc'
  exact hne (hdc.eq_of_ends hc hmem hdb (iff_of_false hc' (by omega)))

/-- No symbol is declared outside the file when each is declared on one of its lines. -/
theorem misplaced?_eq_none_iff : u.misplaced? = none ↔
    ∀ s ∈ u.symbols, 1 ≤ s.declarationLine ∧ s.declarationLine ≤ u.lineCount := by
  rw [misplaced?, List.find?_eq_none]
  refine forall₂_congr fun s _ => ?_
  simp only [gt_iff_lt, Bool.or_eq_true, beq_iff_eq, decide_eq_true_eq]
  omega

/-- Another text with as many lines has the same symbol declared outside it. -/
theorem misplaced?_withText {t : Text}
    (h : ({ u with text := t } : SourceUnit).lineCount = u.lineCount) :
    ({ u with text := t } : SourceUnit).misplaced? = u.misplaced? := by
  unfold misplaced?
  rw [h]

/-- A symbol that is declared outside its file makes the extraction fail. -/
theorem extract_of_misplaced {s : Symbol} (h : u.misplaced? = some s) :
    u.extract = .error (.symbolOutsideFile u.path s.name s.declarationLine u.lineCount) := by
  unfold extract
  rw [h]

/-- Symbols within their file are given one association each. -/
theorem extract_of_placed (h : u.misplaced? = none) : u.extract = .ok {
    symbols := u.symbols.map fun s => (s, u.documentation s.declarationLine)
    orphans := u.scan.unclosed.filter fun x => x.stoppedAt?.isNone } := by
  unfold extract
  rw [h]
  rfl

/-- Symbols whose lines are lines of the file are given one association each. -/
theorem extract_eq (h : ∀ s ∈ u.symbols, 1 ≤ s.declarationLine ∧ s.declarationLine ≤ u.lineCount) :
    u.extract = .ok {
      symbols := u.symbols.map fun s => (s, u.documentation s.declarationLine)
      orphans := u.scan.unclosed.filter fun x => x.stoppedAt?.isNone } :=
  extract_of_placed (misplaced?_eq_none_iff.mpr h)

end SourceUnit

/-! ### The whole file -/

/-- What is found of the documentation of a file is exact: one entry for each symbol, in order, and
where no unclosed block stopped, a block exactly when one documents the declaration. Of two such
blocks it is the one that ends on the line of the declaration. No block is found for symbols that
are declared on different lines. -/
structure Extraction.IsExact (e : Extraction) (u : SourceUnit) : Prop where
  symbols : e.symbols.map Prod.fst = u.symbols
  found_iff : ∀ p ∈ e.symbols, (∀ x ∈ u.scan.unclosed, x.stoppedAt? ≠ some p.1.declarationLine) →
    ((∃ b, p.2 = .found b) ↔ ∃ b ∈ u.scan.blocks, u.Documents b p.1.declarationLine)
  documents : ∀ p ∈ e.symbols, ∀ b, p.2 = .found b →
    b ∈ u.scan.blocks ∧ u.Documents b p.1.declarationLine
  lowest : ∀ p ∈ e.symbols, ∀ b, p.2 = .found b →
    ∀ c ∈ u.scan.blocks, u.Documents c p.1.declarationLine → c ≠ b →
      b.endLine = p.1.declarationLine ∧ c.endLine < p.1.declarationLine
  unshared : ∀ p ∈ e.symbols, ∀ q ∈ e.symbols, p.1.declarationLine ≠ q.1.declarationLine →
    ∀ b c, p.2 = .found b → q.2 = .found c → b ≠ c

/-- The documentation of a file whose symbols are declared on its lines is found exactly. -/
theorem SourceUnit.extract_exact (u : SourceUnit)
    (h : ∀ s ∈ u.symbols, 1 ≤ s.declarationLine ∧ s.declarationLine ≤ u.lineCount) :
    ∃ e, u.extract = .ok e ∧ e.IsExact u := by
  refine ⟨_, extract_eq h, ⟨by simp [Function.comp_def], ?_, ?_, ?_, ?_⟩⟩
  all_goals rw [List.forall_mem_map]; intro s hs; dsimp only
  · intro hstop
    constructor
    · rintro ⟨b, hb⟩
      obtain ⟨hmem, hdb, -⟩ := documents_of_found hb
      exact ⟨b, hmem, hdb⟩
    · rintro ⟨c, hc, hdc⟩
      exact exists_found_of_documents hstop hc hdc
  · intro b hb
    obtain ⟨hmem, hdb, -⟩ := documents_of_found hb
    exact ⟨hmem, hdb⟩
  · intro b hb c hc hdc hne
    exact ends_of_found_of_ne hb hc hdc hne
  · rw [List.forall_mem_map]
    intro t ht hne b c hb hc
    rcases Nat.lt_or_gt_of_ne hne with hlt | hlt
    · exact ne_of_found_of_lt hlt ⟨s, hs, rfl⟩ hb hc
    · exact (ne_of_found_of_lt hlt ⟨t, ht, rfl⟩ hc hb).symm

/-- A file with two blocks for one symbol, and symbols that are not in the order of their lines. -/
def stackedExample : SourceUnit where
  path := "ids.ts"
  text := "/** One. */\n/** Two. */ f()\n\ng()"
  language := .typescript
  symbols := [{ kind := .function, name := "g", declarationLine := 4 },
    { kind := .function, name := "f", declarationLine := 2 }]

/-- The example has two blocks that document one declaration. -/
theorem extract_stackedExample :
    (∀ s ∈ stackedExample.symbols, 1 ≤ s.declarationLine
        ∧ s.declarationLine ≤ stackedExample.lineCount)
      ∧ ∃ e, stackedExample.extract = .ok e ∧ e.IsExact stackedExample := by
  have h : ∀ s ∈ stackedExample.symbols, 1 ≤ s.declarationLine
      ∧ s.declarationLine ≤ stackedExample.lineCount := by decide
  exact ⟨h, stackedExample.extract_exact h⟩

end DocContract
