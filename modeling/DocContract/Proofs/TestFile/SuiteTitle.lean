import DocContract.Proofs.TestFile.Appended
import DocContract.Proofs.TestFile.Quoted
import DocContract.Proofs.TestFile.SuiteNames

/-!
# Titles of suites

A suite that is titled with a literal is one statement, whatever the title says, and its title is
read byte for byte: comment marks, brackets, other quotes and escapes in it are inert. So the suite
is reported exactly when no exported function of the source file has this very name, wherever it
stands in a unit test file.
-/

namespace DocContract

open Text

/-- A suite with a title and nothing in it. -/
def titledSuite (quote : Char) (title : Text) : Text :=
  "describe(" ++ quote :: (escaped quote title ++ quote :: ", () => \x7b\x7d);".toList)

section TitledSuite

variable {quote : Char} (hquote : isQuote quote = true) {title : Text}
  (hfits : FitsLiteral quote title)

include hquote

private theorem ne_backslash_of_isQuote : quote ≠ '\\' := by
  rintro rfl
  exact absurd hquote (by decide)

private theorem mask_quote (r : Text) :
    Lexeme.mask .code (quote :: r) = quote :: Lexeme.mask (.literal quote) r := by
  rcases eq_of_isQuote hquote with rfl | rfl | rfl <;> rfl

/-- The quote behind the word opens a literal in the call. -/
theorem fragments_describe (t : Text) : ∃ s : Splitter,
    fragments ("describe(" ++ quote :: t) = s.run t ∧ s.nesting = .literal quote false
      ∧ s.depth = 1 ∧ s.atEnd = false
      ∧ s.open? = some ⟨{}, quote :: "describe(".toList.reverse⟩ := by
  refine ⟨⟨⟨1, 11⟩, 1, .literal quote false, some ⟨{}, quote :: "describe(".toList.reverse⟩,
    some quote, false⟩, ?_, rfl, rfl, rfl, rfl⟩
  rcases eq_of_isQuote hquote with rfl | rfl | rfl <;> rfl

omit hquote in
/-- The rest of the call ends the statement. -/
theorem run_closeSuite {s : Splitter} {o : OpenFragment} (h : s.Reads o) (hdepth : s.depth = 1)
    (below : Text) : ∃ s' : Splitter, s'.IsFresh
      ∧ s.run (", () => \x7b\x7d);".toList ++ below)
        = ⟨o.start, o.read.reverse ++ ", () => \x7b\x7d);".toList⟩ :: s'.run below := by
  obtain ⟨hended, hreads, hdepth'⟩ :=
    h.after_plain (t := ", () => \x7b\x7d)") (forall_mem_of_all (by decide))
  rw [hdepth] at hdepth'
  have hzero : (s.after ", () => \x7b\x7d)").depth = 0 := hdepth'.trans (by decide)
  have hsplit : ", () => \x7b\x7d);".toList ++ below
      = ", () => \x7b\x7d)".toList ++ ';' :: below := rfl
  refine ⟨_, Splitter.isFresh_semicolon hreads.nesting hzero, ?_⟩
  rw [hsplit, s.run_append, hended, Splitter.run]
  dsimp only
  rw [hreads.step_semicolon hzero]
  simp [OpenFragment.close, OpenFragment.push]

include hfits

/-- Nothing of the suite is masked. -/
theorem maskComments_titledSuite (below : Text) :
    maskComments (titledSuite quote title ++ below)
      = titledSuite quote title ++ maskComments below := by
  have hassoc : ∀ word inner close below : Text, word ++ quote :: (inner ++ quote :: close) ++ below
      = word ++ quote :: (inner ++ quote :: (close ++ below)) := by simp
  have hword := Lexeme.mask_plain (t := "describe(") (forall_mem_of_all (by decide))
  have hclose := Lexeme.mask_plain (t := ", () => \x7b\x7d);") (forall_mem_of_all (by decide))
  have hliteral := mask_escaped (ne_backslash_of_isQuote hquote) hfits
  unfold titledSuite
  simp only [hassoc, maskComments, hword, mask_quote hquote, hliteral, hclose]

/-- The suite is one statement, whatever follows. -/
theorem fragments_titledSuite (below : Text) : ∃ s : Splitter, s.IsFresh
    ∧ fragments (titledSuite quote title ++ below)
      = ⟨{}, titledSuite quote title⟩ :: s.run below := by
  have hassoc : ∀ word inner close : Text, word ++ quote :: (inner ++ quote :: close) ++ below
      = word ++ quote :: (inner ++ quote :: (close ++ below)) := by simp
  have hread : ∀ word inner close : Text,
      (quote :: (inner.reverse ++ quote :: word.reverse)).reverse ++ close
        = word ++ quote :: (inner ++ quote :: close) := by simp
  obtain ⟨s, hbefore, hliteral, hdepth, hend, ho⟩ := fragments_describe hquote
    (escaped quote title ++ quote :: (", () => \x7b\x7d);".toList ++ below))
  obtain ⟨s', hrun, hcode, hdepth', hend', ho'⟩ :=
    run_escaped (ne_backslash_of_isQuote hquote) hfits (", () => \x7b\x7d);".toList ++ below)
      hliteral ho
  obtain ⟨s'', hfresh, hclose⟩ :=
    run_closeSuite ⟨hcode, ho', hend'.trans hend⟩ (hdepth'.trans hdepth) below
  refine ⟨s'', hfresh, ?_⟩
  unfold titledSuite
  rw [hassoc, hbefore, hrun, hclose, hread]

omit hfits in
/-- The suite is read with its title. -/
theorem toStatement_titledSuite (words : List Text) (start : Position) (title : Text) : ∃ cases,
    Fragment.toStatement words ⟨start, titledSuite quote title⟩
      = ⟨.suite, start, some title, cases⟩ := by
  have hline : quote ≠ '\n' := by
    rintro rfl
    exact absurd hquote (by decide)
  have hliteral := literalTitle?_escaped (ne_backslash_of_isQuote hquote)
    ", () => \x7b\x7d);" hline title
  have hkind : classify words (titledSuite quote title) = .suite := rfl
  have htitle : suiteTitle? (titledSuite quote title) = some title := by
    have hread : suiteTitle? (titledSuite quote title)
        = (literalTitle? quote (escaped quote title ++ quote :: ", () => \x7b\x7d);".toList)).map
          (·.1) := by
      rcases eq_of_isQuote hquote with rfl | rfl | rfl <;> rfl
    rw [hread, hliteral]
    rfl
  refine ⟨casesFrom start.line true 0 (titledSuite quote title), ?_⟩
  unfold Fragment.toStatement
  rw [hkind, htitle]
  rfl

/-- Wherever the suite stands between two statements, the outline has it with its title. -/
theorem exists_mem_suites (words : List Text) {above : Text} (habove : EndsStatement above)
    (below : Text) : ∃ suite ∈ (outline words (above ++ (titledSuite quote title ++ below))).suites,
      suite.place = ⟨1 + above.count '\n', 1⟩ ∧ suite.title? = some title := by
  obtain ⟨s, -, hfragments⟩ := fragments_titledSuite hquote hfits (maskComments below)
  obtain ⟨cases, hstatement⟩ :=
    toStatement_titledSuite hquote words (Position.down (above.count '\n') {}) title
  have hfragment : ⟨Position.down (above.count '\n') {}, titledSuite quote title⟩
      ∈ fragments (maskComments (above ++ (titledSuite quote title ++ below))) := by
    rw [fragments_append habove, maskComments_titledSuite hquote hfits, hfragments]
    exact List.mem_append_right _ List.mem_cons_self
  have hmem : ⟨.suite, Position.down (above.count '\n') {}, some title, cases⟩
      ∈ (outline words (above ++ (titledSuite quote title ++ below))).statements := by
    rw [← hstatement]
    exact List.mem_map_of_mem hfragment
  exact ⟨_, List.mem_filter.mpr ⟨hmem, rfl⟩, rfl, rfl⟩

end TitledSuite

/-- A suite whose title is written as a literal, with a backslash in front of each quote of its kind
and each backslash, is one statement with exactly this title. Wherever it stands in a unit test file
it is reported exactly when no exported function of the source file has the title as its name. -/
theorem outline_titledSuite (words : List Text) {quote : Char} (hquote : isQuote quote = true)
    {title : Text} (hline : '\n' ∉ title) :
    (∃ cases, outline words (titledSuite quote title) = ⟨[⟨.suite, {}, some title, cases⟩]⟩)
      ∧ ∀ (layout : TestLayout) (u : TestUnit) (source : SourceUnit) (above below : Text),
        EndsStatement above → u.text = above ++ (titledSuite quote title ++ below) →
        u.inferKind true = .unit →
        (source.nameMismatch u.path ⟨1 + above.count '\n', 1⟩ title
            ∈ layout.validate u (some source)
          ↔ ∀ s ∈ source.symbols, SourceUnit.isCovered s = true → s.name ≠ title) := by
  have hfits := fitsLiteral_of_line quote hline
  constructor
  · obtain ⟨s, hfresh, hfragments⟩ := fragments_titledSuite hquote hfits []
    obtain ⟨cases, hstatement⟩ := toStatement_titledSuite hquote words {} title
    have hmask := maskComments_titledSuite hquote hfits []
    have hrest : s.run [] = [] := by
      rw [Splitter.run, hfresh.opened]
      rfl
    rw [List.append_nil] at hmask hfragments
    rw [hrest] at hfragments
    refine ⟨cases, ?_⟩
    rw [outline, hmask, maskComments, Lexeme.mask, List.append_nil, hfragments, List.map_singleton,
      hstatement]
  · intro layout u source above below habove htext hkind
    obtain ⟨suite, hsuite, hplace, htitle⟩ :=
      exists_mem_suites hquote hfits layout.dbKeywords habove below
    rw [← htext] at hsuite
    rw [← SourceUnit.exportsFunction_eq_false_iff, ← hplace]
    exact layout.nameMismatch_mem_validate_iff hkind hsuite htitle

/-- Comment marks, brackets, quotes and backslashes in a title change nothing, and behind another
statement the suite is reported with just this title. -/
theorem outline_titledSuite_inertExample :
    let title : Text := "it's */ a \"//[(\" \\é"
    let suite : Text := "describe('it\\'s */ a \"//[(\" \\\\é', () => \x7b\x7d);"
    let u : TestUnit :=
      ⟨"store.test.ts", "f();\n" ++ (suite ++ "\ng()"), .typescript, some .unit, none⟩
    let source := TestLayout.storeSource
      [{ kind := .function, name := "it", isExported := true, declarationLine := 1 }]
    isQuote '\'' = true ∧ '\n' ∉ title
      ∧ (∃ cases, outline [] suite = ⟨[⟨.suite, {}, some title, cases⟩]⟩)
      ∧ source.nameMismatch u.path ⟨2, 1⟩ title ∈ TestLayout.bare.validate u (some source) := by
  intro title suite u source
  have hquote : isQuote '\'' = true := by decide
  have hline : '\n' ∉ title := by decide
  have hwritten : suite = titledSuite '\'' title := by decide +kernel
  have hends : EndsStatement "f();\n" :=
    .inr ⟨(pieces "f();\n").dropLast.dropLast, by decide +kernel, by decide +kernel⟩
  have hread := outline_titledSuite [] hquote hline
  rw [← hwritten] at hread
  refine ⟨hquote, hline, hread.1, ?_⟩
  exact (hread.2 TestLayout.bare u source "f();\n" "\ng()" hends rfl rfl).mpr (by decide)

end DocContract
