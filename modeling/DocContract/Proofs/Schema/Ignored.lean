import DocContract.Proofs.Comment.Indented
import DocContract.Proofs.DocBlock.Rendered
import DocContract.Proofs.Schema.Documentation

/-!
# Settings in a source file

The findings of a source file depend on four options: whether internal symbols have to be
documented, the convention for nested fields, the limit on their depth, and the extra tags. Of the
extra tags only those count that can stand behind a sigil and are not known already. A comment that
consists of one sigil line tells whether the tag on it is one of them.
-/

namespace DocContract

open Text

/-- The name can stand behind a sigil. -/
def IsTagName (tag : Text) : Prop :=
  ∃ c word, tag = c :: word ∧ c.isAlpha = true ∧ ∀ x ∈ word, SigilLine.isTagChar x = true

private theorem SigilLine.isTagName {t : Text} {l : SigilLine} (h : parse? t = some l) :
    IsTagName l.tag := by
  obtain ⟨c, r, -, hc, -, -, rfl⟩ := parse?_eq_some_iff.mp h
  exact ⟨c, _, rfl, hc, fun x hx => List.mem_takeWhile_imp hx⟩

namespace Settings

private theorem ignores_of_unknown {tag : Text} (marker : tag ≠ "async")
    (unknown : TagKind.ofSigil? tag = none) (s : Settings) : s.ignores tag = s.isExtraTag tag := by
  rw [ignores, unknown, bne_iff_ne.mpr marker, Option.isNone_none, Bool.true_and, Bool.true_and]

private theorem ignores_eq_true {s : Settings} {tag : Text} (h : s.ignores tag = true) :
    tag ≠ "async" ∧ TagKind.ofSigil? tag = none := by
  simp only [ignores, Bool.and_eq_true, bne_iff_ne, ne_eq, Option.isNone_iff_eq_none] at h
  exact h.1

/-- Two settings do not differ in what bears on a source file. -/
structure ReadsAlike (s s' : Settings) : Prop where
  requireInternalDocs : s.requireInternalDocs = s'.requireInternalDocs
  markerConvention : s.markerConvention = s'.markerConvention
  maxTagDepth : s.maxTagDepth? = s'.maxTagDepth?
  ignores : ∀ tag, IsTagName tag → s.ignores tag = s'.ignores tag

end Settings

/-! ### Settings that read alike -/

section Alike

variable {s s' : Settings}

namespace Group

private theorem opened_congr {sigil : SigilLine} (h : s.ignores sigil.tag = s'.ignores sigil.tag)
    (line column : Nat) : opened s sigil line column = opened s' sigil line column := by
  unfold opened
  split
  · rfl
  · next marker =>
    split
    · next unknown =>
      rw [Settings.ignores_of_unknown marker unknown, Settings.ignores_of_unknown marker unknown]
        at h
      rw [h]
    · rfl
    · rfl

variable (h : s.ReadsAlike s')

include h

private theorem fieldWarnings_congr (field : FieldLine) (depth : Nat) :
    fieldWarnings s field depth = fieldWarnings s' field depth := by
  unfold fieldWarnings
  rw [h.markerConvention, h.maxTagDepth]

private theorem continued_congr (l : InteriorLine) (g : Group) :
    continued s l g = continued s' l g := by
  cases g with
  | entry branch swallow =>
    unfold continued addField
    simp only [fieldWarnings_congr h]
  | skip => rfl
  | awaitFence tag => rfl
  | fence tag language body => rfl

private theorem step_congr (g : Group) (l : InteriorLine) : step s g l = step s' g l := by
  unfold step
  split
  · next sigil hopen =>
    have hname := SigilLine.isTagName (opening?_eq_some hopen)
    rw [opened_congr (h.ignores sigil.tag hname)]
  · exact continued_congr h l g

/-- Settings that read alike read the lines of a group alike. -/
theorem run_congr (g : Group) (ls : List InteriorLine) : run s g ls = run s' g ls := by
  induction ls generalizing g with
  | nil => rfl
  | cons l ls ih => rw [run_cons, run_cons, step_congr h, ih]

end Group

private theorem parseLines_congr (h : s.ReadsAlike s') (ls : List InteriorLine) :
    parseLines s ls = parseLines s' ls := by
  unfold parseLines
  rw [Group.run_congr h]

private theorem parseBlock_congr (h : s.ReadsAlike s') (b : DocBlock) :
    parseBlock s b = parseBlock s' b := by
  unfold parseBlock
  rw [parseLines_congr h]

private theorem validateSymbol_congr (h : s.ReadsAlike s') (u : SourceUnit) (f : Symbol)
    (a : Association) : validateSymbol s u f a = validateSymbol s' u f a := by
  cases a with
  | missing =>
    unfold validateSymbol missingDoc
    rw [h.requireInternalDocs]
  | malformed unclosed => rfl
  | found block => exact congrArg (checkParsed u.language u.path f) (parseBlock_congr h block)

/-- Settings that read alike find the same in every source file. -/
theorem validateUnit_congr (h : s.ReadsAlike s') (u : SourceUnit) :
    validateUnit s u = validateUnit s' u := by
  unfold validateUnit
  simp only [validateSymbol_congr h]

end Alike

/-! ### A comment of one sigil line -/

section OneLine

variable {l : InteriorLine} {sigil : SigilLine} {s : Settings}

/-- A sigil line that opens no tag is all output of a comment that has no other line. -/
theorem parseLines_sigil (h : l.sigil? = some sigil) {errors : List (Located ParseError)}
    (hopen : Group.opened s sigil l.line l.contentColumn = (.skip, { errors := errors })) :
    parseLines s [l] = ⟨{}, errors, []⟩ := by
  have hrun : Group.run s .skip [l] = { errors := errors } := by
    rw [Group.run_cons, Group.step_sigil (g := .skip) trivial h, hopen]
    exact (Output.append_empty _).trans (Output.empty_append _)
  have htake : [l].takeWhile (fun l => l.sigil?.isNone) = [] := by simp [h]
  have hdrop : [l].dropWhile (fun l => l.sigil?.isNone) = [l] := by simp [h]
  unfold parseLines
  rw [htake, hdrop, hrun]
  rfl

private theorem parseLines_ignored (h : l.sigil? = some sigil) (hi : s.ignores sigil.tag = true) :
    parseLines s [l] = ⟨{}, [], []⟩ :=
  parseLines_sigil h (Group.opened_of_ignores hi l.line l.contentColumn)

private theorem parseLines_unknown (h : l.sigil? = some sigil) (marker : sigil.tag ≠ "async")
    (unknown : TagKind.ofSigil? sigil.tag = none) (extra : s.isExtraTag sigil.tag = false) :
    parseLines s [l] = ⟨{}, [⟨l.line, l.contentColumn, .unknownTag sigil.tag⟩], []⟩ :=
  parseLines_sigil h (Group.Opens.unknown marker unknown extra).eq

end OneLine

/-! ### A file for one tag -/

private theorem validateUnit_single (s : Settings) {u : SourceUnit} {f : Symbol} {d : DocBlock}
    (h : u.extract = .ok ⟨[(f, .found d)], []⟩) :
    validateUnit s u = .ok (checkParsed u.language u.path f (parseBlock s d)) := by
  rw [validateUnit, h]
  exact congrArg Except.ok (List.append_nil _)

/-- The comment whose only line is a sigil with a name. -/
def CommentBlock.ofSigil (tag : Text) : CommentBlock := { details := ['@' :: tag] }

/-- A function below a comment whose only line is a sigil with a name. -/
def SourceUnit.ofSigil (tag : Text) : SourceUnit where
  path := "tag.ts"
  text := (CommentBlock.ofSigil tag).render .dashPlus ++ '\n' :: "function f() \x7b\x7d"
  language := .typescript
  symbols := [{ kind := .function, name := "f", declarationLine := 4 }]

namespace IsTagName

variable {tag : Text} (h : IsTagName tag)

include h

private theorem isTagChar {x : Char} (hx : x ∈ tag) : SigilLine.isTagChar x = true := by
  obtain ⟨c, word, rfl, hc, hword⟩ := h
  rcases List.mem_cons.mp hx with rfl | hx
  · rw [SigilLine.isTagChar, isWord_of_isAlpha hc, Bool.true_or]
  · exact hword x hx

private theorem not_mem_sigil {x : Char} (hat : x ≠ '@') (hx : SigilLine.isTagChar x = false) :
    x ∉ '@' :: tag := by
  refine fun hm => (List.mem_cons.mp hm).elim hat fun hm => ?_
  rw [h.isTagChar hm] at hx
  cases hx

private theorem areLines : AreLines ((CommentBlock.ofSigil tag).interiorLines .dashPlus) := by
  have hsolid : EndsSolid ('@' :: tag) := by
    intro x hx
    rw [Bool.eq_false_iff]
    intro hblank
    refine h.not_mem_sigil ?_ (SigilLine.not_isTagChar_of_isBlank hblank) (List.mem_of_getLast? hx)
    rintro rfl
    cases hblank
  exact .singleton (List.cons_ne_nil _ _) (h.not_mem_sigil (by decide) (by decide)) hsolid

/-- The block of the file is found, and the sigil is its only line. -/
theorem exists_extract : ∃ f d l, (SourceUnit.ofSigil tag).extract = .ok ⟨[(f, .found d)], []⟩
    ∧ d.lines = [l] ∧ l.sigil? = some ⟨tag, []⟩ := by
  have hinterior := h.areLines
  have hopen : ∀ l ∈ (CommentBlock.ofSigil tag).interiorLines .dashPlus,
      contains l closeMark = false :=
    List.forall_mem_singleton.mpr
      (contains_closeMark_of_not_mem (h.not_mem_sigil (by decide) (by decide)))
  have hcount : (SourceUnit.ofSigil tag).lineCount = 4 := by
    refine (CommentBlock.length_lines_render .dashPlus (.ofSigil tag) (by decide) (by decide)).trans
      ?_
    rw [CommentBlock.lines_renderInterior hinterior]
    rfl
  obtain ⟨d, hextract, -, htexts, -⟩ := CommentBlock.exists_extract (u := .ofSigil tag) hinterior
    hopen (by decide) (by decide) (by decide) rfl rfl hcount.symm
  obtain ⟨l, hd, hl⟩ := List.map_eq_singleton_iff.mp htexts
  refine ⟨_, d, l, hextract, hd, ?_⟩
  have htrim : trimStart ('@' :: tag) = '@' :: tag := trimStart_cons_solid (by decide)
  obtain ⟨c, word, rfl, hc, hword⟩ := h
  rw [InteriorLine.sigil?, hl, htrim]
  exact SigilLine.parse?_written hc hword startsSolid_nil List.not_mem_nil

end IsTagName

/-- Settings that find the same in every source file pass over the same tags. -/
theorem ignores_of_validateUnit {s s' : Settings}
    (h : ∀ u, validateUnit s u = validateUnit s' u) {tag : Text} (hname : IsTagName tag)
    (hi : s.ignores tag = true) : s'.ignores tag = true := by
  obtain ⟨f, d, l, hextract, hd, hsigil⟩ := hname.exists_extract
  obtain ⟨marker, unknown⟩ := Settings.ignores_eq_true hi
  rw [Settings.ignores_of_unknown marker unknown]
  cases hextra : s'.isExtraTag tag with
  | true => rfl
  | false =>
    have hsame := h (.ofSigil tag)
    rw [validateUnit_single s hextract, validateUnit_single s' hextract] at hsame
    have hlength := congrArg List.length (Except.ok.inj hsame)
    unfold checkParsed parseBlock at hlength
    rw [hd, parseLines_ignored hsigil hi, parseLines_unknown hsigil marker unknown hextra]
      at hlength
    simp at hlength

/-- The findings of source files show which tags are passed over. -/
theorem validateUnit_eq_iff {s s' : Settings}
    (hinternal : s.requireInternalDocs = s'.requireInternalDocs)
    (hmarkers : s.markerConvention = s'.markerConvention)
    (hdepth : s.maxTagDepth? = s'.maxTagDepth?) :
    (∀ u, validateUnit s u = validateUnit s' u) ↔ s.ReadsAlike s' := by
  refine ⟨fun h => ⟨hinternal, hmarkers, hdepth, fun tag hname => ?_⟩,
    fun h u => validateUnit_congr h u⟩
  rw [Bool.eq_iff_iff]
  exact ⟨ignores_of_validateUnit h hname, ignores_of_validateUnit (fun u => (h u).symm) hname⟩

end DocContract
