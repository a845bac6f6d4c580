import DocContract.Comment.Canonical
import DocContract.Proofs.Comment.RoundTrip
import DocContract.Proofs.DocBlock.Association
import DocContract.Schema.Validate

/-!
# Blocks that are written into a file

A canonical block is written with its delimiters and leaders above a declaration. The scan takes the
leaders off again, which keeps the indentation of every line, and moves the text of all lines but
the empty ones to one column. So the block is found for the declaration and read as it was written.
-/

namespace DocContract

open Text

namespace Text

private theorem trimStart_isPrefixOf {t u : Text} (h : t <+: u) : trimStart t <+: trimStart u := by
  obtain ⟨rest, rfl⟩ := h
  induction t with
  | nil => exact List.nil_prefix
  | cons c r ih =>
    cases hc : isBlank c with
    | true => rwa [List.cons_append, trimStart_cons_blank hc, trimStart_cons_blank hc]
    | false =>
      rw [List.cons_append, trimStart_cons_solid hc, trimStart_cons_solid hc]
      exact ⟨rest, rfl⟩

end Text

namespace CommentBlock

/-! ### Leaders -/

/-- A line of the interior behind its leader, without the line break. -/
def led (l : Text) : Text := if l.isEmpty then " *" else " * " ++ l

private theorem leaderLine_eq (l : Text) : leaderLine l = led l ++ ['\n'] := by
  unfold leaderLine led
  split <;> rfl

private theorem oneLine_led {l : Text} (h : '\n' ∉ l) : '\n' ∉ led l := by
  unfold led
  split
  · decide
  · simpa using h

private theorem endsSolid_led {l : Text} (h : EndsSolid l) : EndsSolid (led l) := by
  unfold led
  split
  · decide
  · next hl => exact (endsSolid_append (by simpa using hl)).mpr h

/-- Taking the leader off a line leaves the line, in the column behind the leader. -/
theorem interiorOf_led (n : Nat) {l : Text} (h : EndsSolid l) :
    interiorOf n (led l) = ⟨n, if l = [] then 3 else 4, l⟩ := by
  cases l with
  | nil => rfl
  | cons c r =>
    have hstrip : stripLeader '*' (led (c :: r)) = (3, c :: r) := rfl
    rw [interiorOf, hstrip]
    dsimp only
    rw [trimEnd_solid h]
    simp

/-- A leader does not close the block. -/
theorem cut?_led {l : Text} (h : contains l closeMark = false) : cut? closeMark (led l) = none := by
  unfold led
  split
  · rfl
  · change cut? closeMark (' ' :: '*' :: ' ' :: l) = none
    rw [cut?_cons_of_not_startsWith rfl, cut?_cons_of_not_startsWith rfl,
      cut?_cons_of_not_startsWith rfl, cut?_eq_none_iff.mpr h]
    rfl

/-! ### The lines of the file -/

private theorem rawLines_led {ls : List Text} (h : ∀ l ∈ ls, '\n' ∉ l) (t : Text) :
    rawLines (ls.flatMap leaderLine ++ t) = ls.map led ++ rawLines t := by
  induction ls with
  | nil => rfl
  | cons l ls ih =>
    obtain ⟨hl, hls⟩ := List.forall_mem_cons.mp h
    have hled : rawLines (led l) = [led l] := splitOn_of_not_mem (oneLine_led hl)
    rw [List.flatMap_cons, leaderLine_eq, List.append_assoc, List.append_assoc,
      List.singleton_append, rawLines_append, hled, ih hls]
    rfl

/-- A written block above a declaration, line by line. -/
theorem rawLines_render (c : Convention) (b : CommentBlock) {declaration : Text}
    (h : '\n' ∉ declaration) : rawLines (b.render c ++ '\n' :: declaration)
      = "/**".toList :: ((lines (b.renderInterior c)).map led
        ++ [" */".toList, declaration]) := by
  have hinterior : ∀ l ∈ lines (b.renderInterior c), '\n' ∉ l := fun l hl => not_mem_of_mem_lines hl
  have hopen : rawLines "/**" = ["/**".toList] := by decide
  have hclose : rawLines " */" = [" */".toList] := by decide
  have hlast : rawLines declaration = [declaration] := splitOn_of_not_mem h
  have htext : b.render c ++ '\n' :: declaration
      = "/**".toList ++ '\n' :: ((lines (b.renderInterior c)).flatMap leaderLine
        ++ (" */".toList ++ '\n' :: declaration)) := by
    simp [render]
  rw [htext, rawLines_append, rawLines_led hinterior, rawLines_append, hopen, hclose, hlast]
  rfl

/-- The last line of the file is that of the declaration. -/
theorem length_lines_render (c : Convention) (b : CommentBlock) {declaration : Text}
    (h : '\n' ∉ declaration) (hne : declaration ≠ []) :
    (lines (b.render c ++ '\n' :: declaration)).length
      = (lines (b.renderInterior c)).length + 3 := by
  have hraw := congrArg List.length (rawLines_render c b h)
  have hlast : rawLines declaration = [declaration] := splitOn_of_not_mem h
  rw [rawLines_append, hlast] at hraw
  rw [lines_newline _ _ h, if_neg (by simpa using hne)]
  simp at hraw ⊢
  omega

end CommentBlock

/-! ### The scan -/

namespace ScanState

/-- A line that does not begin with a comment holds no block. -/
theorem codeLine_of_not_startsWith {l : SourceLine}
    (h : startsWith (trimStart l.text) "/*" = false) : codeLine l = (.code, {}) := by
  generalize he : codeLine l = effect
  cases Outside.of_eq he with
  | doc htext =>
    rw [htext] at h
    cases h
  | comment _ htext =>
    rw [htext] at h
    cases h
  | _ => rfl

/-- A declaration that does not begin with a comment ends the scan of code. -/
theorem run_declaration (stops : List Nat) (n offset : Nat) {declaration : Text}
    (h : startsWith (trimStart declaration) "/*" = false) :
    run stops .code [⟨n, offset, dropReturn declaration⟩] = {} := by
  have hcode : startsWith (trimStart (dropReturn declaration)) "/*" = false := by
    rw [Bool.eq_false_iff, ne_eq, startsWith_iff] at h ⊢
    exact fun hstart => h (hstart.trans (trimStart_isPrefixOf (dropReturn_isPrefixOf declaration)))
  rw [run, step, codeLine_of_not_startsWith hcode]
  rfl

/-- A line that opens a block and holds nothing else. -/
theorem step_open (stops : List Nat) (n offset : Nat) :
    step stops .code ⟨n, offset, "/**"⟩ = (.doc ⟨n, 0, offset, []⟩, {}) := rfl

/-- A line that closes a block and holds nothing else. -/
theorem step_close {stops : List Nat} (block : OpenBlock) {n : Nat} (offset : Nat)
    (h : n ∉ stops) : step stops (.doc block) ⟨n, offset, " */"⟩
      = (.code, { blocks := [block.close ⟨n, offset, " */"⟩ " " []] }) := by
  have hcut : cut? closeMark " */" = some (" ".toList, []) := by decide
  rw [step_doc_of_not_mem h, hcut]
  rfl

end ScanState

/-- The only block of a file is found for the declaration that it documents. -/
theorem SourceUnit.documentation_eq_found {u : SourceUnit} {d : DocBlock} {line : Nat}
    (hscan : u.scan = ⟨[d], []⟩) (h : u.Documents d line) : u.documentation line = .found d := by
  have hstop : ∀ x ∈ u.scan.unclosed, x.stoppedAt? ≠ some line := by
    rw [hscan]
    exact fun _ hx => absurd hx List.not_mem_nil
  have hmem : d ∈ u.scan.blocks := by
    rw [hscan]
    exact List.mem_singleton.mpr rfl
  obtain ⟨found, hfound⟩ := exists_found_of_documents hstop hmem h
  have hsame := (documents_of_found hfound).1
  rw [hscan, List.mem_singleton] at hsame
  rw [hfound, hsame]

namespace CommentBlock

variable {c : Convention} {b : CommentBlock} {declaration : Text}

/-- The scan takes the leaders off the lines of the interior. -/
theorem interior_numbered_led {ls : List Text} (h : ∀ l ∈ ls, EndsSolid l) (n offset : Nat) :
    ((SourceLine.numbered n offset (ls.map led)).map fun l => (interiorOf l.number l.text)).map
        InteriorLine.text = ls
      ∧ AtColumn 4
        ((SourceLine.numbered n offset (ls.map led)).map fun l => interiorOf l.number l.text) := by
  induction ls generalizing n offset with
  | nil => exact ⟨rfl, fun l hl => absurd hl List.not_mem_nil⟩
  | cons l ls ih =>
    obtain ⟨hl, hls⟩ := List.forall_mem_cons.mp h
    obtain ⟨htexts, hcolumn⟩ := ih hls (n + 1) (offset + width (led l) + 1)
    rw [List.map_cons, SourceLine.numbered, List.map_cons, dropReturn_solid (endsSolid_led hl),
      interiorOf_led n hl]
    refine ⟨by rw [List.map_cons, htexts], List.forall_mem_cons.mpr ⟨fun hne => ?_, hcolumn⟩⟩
    exact if_neg hne

/-- No line of the interior closes the block. -/
theorem cut?_numbered_led {ls : List Text} (hsolid : ∀ l ∈ ls, EndsSolid l)
    (hopen : ∀ l ∈ ls, contains l closeMark = false) (n offset : Nat) :
    ∀ l ∈ SourceLine.numbered n offset (ls.map led), cut? closeMark l.text = none := by
  intro l hl
  obtain ⟨-, -, piece, hpiece, htext⟩ := SourceLine.of_mem_numbered hl
  obtain ⟨line, hmem, rfl⟩ := List.mem_map.mp hpiece
  rw [htext, dropReturn_solid (endsSolid_led (hsolid line hmem))]
  exact cut?_led (hopen line hmem)

/-- A written block above a declaration is the one block of the file. Its lines are those of the
interior, and all but the empty ones start in one column. -/
theorem scanBlocks_render (hsolid : ∀ l ∈ lines (b.renderInterior c), EndsSolid l)
    (hopen : ∀ l ∈ lines (b.renderInterior c), contains l closeMark = false)
    (hline : '\n' ∉ declaration) (hcode : startsWith (trimStart declaration) "/*" = false) :
    ∃ d : DocBlock, scanBlocks [(lines (b.renderInterior c)).length + 3]
        (b.render c ++ '\n' :: declaration) = ⟨[d], []⟩
      ∧ d.startLine = 1 ∧ d.endLine = (lines (b.renderInterior c)).length + 2
      ∧ d.lines.map InteriorLine.text = lines (b.renderInterior c) ∧ AtColumn 4 d.lines := by
  rw [scanBlocks, SourceLine.ofText, rawLines_render c b hline, SourceLine.numbered]
  generalize lines (b.renderInterior c) = ls at hsolid hopen
  have hnumbered := SourceLine.numbered_append (1 + 1) (0 + width "/**" + 1) (ls.map led)
    [" */".toList, declaration]
  obtain ⟨htexts, hcolumn⟩ := interior_numbered_led hsolid (1 + 1) (0 + width "/**" + 1)
  have hgathered : ∀ l ∈ SourceLine.numbered (1 + 1) (0 + width "/**" + 1) (ls.map led),
      l.number ∉ [ls.length + 3] := by
    intro l hl
    have hnumber := (SourceLine.of_mem_numbered hl).2.1
    rw [List.length_map] at hnumber
    rw [List.mem_singleton]
    omega
  have hclosed := cut?_numbered_led hsolid hopen (1 + 1) (0 + width "/**" + 1)
  generalize SourceLine.numbered (1 + 1) (0 + width "/**" + 1) (ls.map led) = interior
    at hnumbered htexts hcolumn hgathered hclosed
  have hend : 1 + 1 + ls.length ∉ [ls.length + 3] := by
    rw [List.mem_singleton]
    omega
  have hfirst : dropReturn "/**" = "/**".toList := by decide
  have hlast : dropReturn " */" = " */".toList := by decide
  rw [hnumbered, List.length_map, SourceLine.numbered, SourceLine.numbered, SourceLine.numbered,
    hfirst, hlast, ScanState.run, ScanState.step_open]
  dsimp only
  rw [ScanResult.empty_append, ScanState.run_interior hgathered hclosed, ScanState.run,
    ScanState.step_close _ _ hend]
  dsimp only
  rw [ScanState.run_declaration _ _ _ hcode, ScanResult.append_empty]
  refine ⟨_, rfl, rfl, ?_, ?_, ?_⟩
  · change 1 + 1 + ls.length = ls.length + 2
    omega
  · simpa [OpenBlock.close] using htexts
  · simpa [OpenBlock.close] using hcolumn

/-- What is read from lines in one column, with the texts that a canonical block has in its
interior, has the content of that block. -/
theorem parseBlock_of_isCanonical (s : Settings) {d : DocBlock} {column : Nat}
    (h : b.IsCanonical c) (hlines : d.lines.map InteriorLine.text = b.interiorLines c)
    (hcolumn : AtColumn column d.lines) :
    (parseBlock s d).errors = [] ∧ b.SameContent (parseBlock s d).block :=
  (h.expressible.reads_iff (p := parseBlock s d)
    (parseLines_interior h.expressible hlines hcolumn)).mpr h.settled

/-- A block that is written above a declaration is found for the declaration, as the only block of
the file, with the lines of its interior in one column. -/
theorem exists_extract (hinterior : AreLines (b.interiorLines c))
    (hopen : ∀ l ∈ b.interiorLines c, contains l closeMark = false) (hline : '\n' ∉ declaration)
    (hwritten : isBlankText declaration = false)
    (hcode : startsWith (trimStart declaration) "/*" = false) {u : SourceUnit}
    (htext : u.text = b.render c ++ '\n' :: declaration) {f : Symbol} (hsymbols : u.symbols = [f])
    (hdeclared : f.declarationLine = u.lineCount) :
    ∃ d, u.extract = .ok ⟨[(f, .found d)], []⟩ ∧ u.scan = ⟨[d], []⟩
      ∧ d.lines.map InteriorLine.text = b.interiorLines c ∧ AtColumn 4 d.lines := by
  have hne : declaration ≠ [] := by
    rintro rfl
    cases hwritten
  have hlength := length_lines_render c b hline hne
  have hlines := lines_renderInterior hinterior
  obtain ⟨d, hblocks, hstart, hend, htexts, hcolumn⟩ :=
    scanBlocks_render (b := b) (c := c) (fun l hl => (hinterior.line l (hlines ▸ hl)).2)
      (fun l hl => hopen l (hlines ▸ hl)) hline hcode
  rw [hlines] at hlength hblocks hend htexts
  have hcount : u.lineCount = (b.interiorLines c).length + 3 := by
    rw [SourceUnit.lineCount, htext, hlength]
  have hscan : u.scan = ⟨[d], []⟩ := by
    rw [SourceUnit.scan, SourceUnit.declarationLines, hsymbols, List.map_singleton, hdeclared,
      hcount, htext, hblocks]
  have honly : ∀ g ∈ u.symbols, g.declarationLine = u.lineCount := by
    rwa [hsymbols, List.forall_mem_singleton]
  have hdocuments : u.Documents d u.lineCount :=
    ⟨by omega, fun l _ hlt hgt => by omega, fun g hg _ => by rw [honly g hg]⟩
  have hplaced : ∀ g ∈ u.symbols, 1 ≤ g.declarationLine ∧ g.declarationLine ≤ u.lineCount :=
    fun g hg => by
      rw [honly g hg]
      omega
  refine ⟨d, ?_, hscan, htexts, hcolumn⟩
  rw [SourceUnit.extract_eq hplaced, hsymbols, List.map_singleton, hdeclared,
    SourceUnit.documentation_eq_found hscan hdocuments, hscan]
  rfl

/-- A canonical block that is written above a declaration is found for the declaration, as the only
block of the file, and is read without an error and with the same content. -/
theorem extract_render (s : Settings) (h : b.IsCanonical c)
    (hopen : ∀ l ∈ lines (b.renderInterior c), contains l closeMark = false)
    (hline : '\n' ∉ declaration) (hwritten : isBlankText declaration = false)
    (hcode : startsWith (trimStart declaration) "/*" = false) (u : SourceUnit)
    (htext : u.text = b.render c ++ '\n' :: declaration) {f : Symbol} (hsymbols : u.symbols = [f])
    (hdeclared : f.declarationLine = u.lineCount) :
    ∃ d, u.extract = .ok ⟨[(f, .found d)], []⟩ ∧ u.scan.blocks = [d]
      ∧ (parseBlock s d).errors = [] ∧ b.SameContent (parseBlock s d).block := by
  have hinterior := areLines_interior h.expressible
  rw [lines_renderInterior hinterior] at hopen
  obtain ⟨d, hextract, hscan, htexts, hcolumn⟩ :=
    exists_extract hinterior hopen hline hwritten hcode htext hsymbols hdeclared
  exact ⟨d, hextract, by rw [hscan], parseBlock_of_isCanonical s h htexts hcolumn⟩

/-- The block with every kind of tag, written above a method. -/
def nestedExampleFile : SourceUnit where
  path := "src/add.ts"
  text := nestedExample.render .braceTyped ++ '\n' :: "  add(a: A): R \x7b // of two"
  language := .typescript
  symbols := [{ kind := .method, name := "add", declarationLine := 20 }]

/-- The block is found above the method and read back. -/
theorem extract_nestedExampleFile :
    nestedExample.IsCanonical .braceTyped
      ∧ (∀ l ∈ lines (nestedExample.renderInterior .braceTyped), contains l closeMark = false)
      ∧ ∃ d, nestedExampleFile.extract
          = .ok ⟨nestedExampleFile.symbols.map fun f => (f, .found d), []⟩
        ∧ nestedExampleFile.scan.blocks = [d] ∧ (parseBlock {} d).errors = []
        ∧ nestedExample.SameContent (parseBlock {} d).block := by
  have hopen : ∀ l ∈ lines (nestedExample.renderInterior .braceTyped),
      contains l closeMark = false := by decide
  exact ⟨nestedExample_isCanonical, hopen, extract_render {} nestedExample_isCanonical hopen
    (by decide) (by decide) (by decide) nestedExampleFile rfl rfl (by decide)⟩

end CommentBlock

end DocContract
