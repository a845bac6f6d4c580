import DocContract.Proofs.DocBlock.Association
import DocContract.Proofs.DocBlock.Delimiter
import DocContract.Proofs.DocBlock.Unclosed

/-!
# Blocks that close on the line of a declaration

The scan gives up a block on the line of the next declaration before it looks for a closing
delimiter there. So of the blocks that close in front of a declaration on its own line, it finds
those that open on the line too; the others are reported as not closed before that line.
-/

namespace DocContract

open Text

/-- The lines of a text, cut in two. -/
theorem SourceLine.ascending_parts {t : Text} {above ls : List SourceLine}
    (h : ofText t = above ++ ls) : Ascending above ∧ Ascending ls
      ∧ ∀ m ∈ above, ∀ n ∈ ls, m.number < n.number :=
  List.pairwise_append.mp (h ▸ ascending_ofText t)

private theorem ScanResult.append_assoc (a b c : ScanResult) : a ++ b ++ c = a ++ (b ++ c) := by
  change ScanResult.mk ((a.blocks ++ b.blocks) ++ c.blocks) _ = ScanResult.mk _ _
  rw [List.append_assoc]
  congr 1
  exact List.append_assoc _ _ _

/-! ### The scan behind some lines -/

namespace ScanState

variable {stops : List Nat}

/-- Where the scan is behind some lines. -/
def advance (stops : List Nat) (state : ScanState) : List SourceLine → ScanState
  | [] => state
  | l :: ls => advance stops (step stops state l).1 ls

/-- What is found on lines that lead out of comments does not bear on the lines below. -/
theorem run_append_of_advance {state : ScanState} {ls : List SourceLine}
    (h : advance stops state ls = .code) (ms : List SourceLine) :
    run stops state (ls ++ ms) = run stops state ls ++ run stops .code ms := by
  induction ls generalizing state with
  | nil =>
    obtain rfl : state = .code := h
    exact (ScanResult.empty_append _).symm
  | cons l ls ih =>
    have hrest : run stops (step stops state l).1 (ls ++ ms)
        = run stops (step stops state l).1 ls ++ run stops .code ms := ih h
    rw [List.cons_append, run, run]
    dsimp only
    rw [hrest, ScanResult.append_assoc]

section Opening

variable {l : SourceLine} {after : Text} (hopens : trimStart l.text = openMark ++ after)
  (hdoc : startsWith after ['/'] = false)

include hopens hdoc

private theorem codeLine_of_openMark : codeLine l = openDoc l after := by
  have hafter : after? openMark (trimStart l.text) = some after := after?_eq_some_iff.mpr hopens
  simp only [codeLine, hafter, hdoc, Bool.false_eq_true, if_false]

/-- A block that its first line does not close is being read then. -/
theorem exists_codeLine_doc (h : contains after closeMark = false) : ∃ block,
    codeLine l = (.doc block, {}) ∧ block.line = l.number ∧ block.indent = Text.indent l.text := by
  rw [codeLine_of_openMark hopens hdoc, openDoc, cut?_eq_none_iff.mpr h]
  exact ⟨_, rfl, rfl, rfl⟩

/-- A block that its first line closes is found on the line. -/
theorem exists_codeLine_block (h : contains after closeMark = true) : ∃ b : DocBlock,
    codeLine l = (.code, { blocks := [b] }) ∧ b.startLine = l.number ∧ b.endLine = l.number := by
  rw [← isSome_cut?, Option.isSome_iff_exists] at h
  obtain ⟨⟨inner, rest⟩, hcut⟩ := h
  rw [codeLine_of_openMark hopens hdoc, openDoc, hcut]
  exact ⟨_, rfl, rfl, rfl⟩

end Opening

/-- A block that is still open on the line of the next declaration is given up there. -/
theorem giveUp_mem_run {d : Nat} (hd : d ∈ stops) (block : OpenBlock) {ls : List SourceLine}
    (hls : SourceLine.Ascending ls) (hline : ∃ m ∈ ls, m.number = d)
    (habove : ∀ m ∈ ls, m.number < d → m.number ∉ stops ∧ contains m.text closeMark = false) :
    block.giveUp (some d) ∈ (run stops (.doc block) ls).unclosed := by
  obtain ⟨m, hm, rfl⟩ := hline
  obtain ⟨front, back, rfl⟩ := List.append_of_mem hm
  have hfront : ∀ n ∈ front, n.number ∉ stops ∧ contains n.text closeMark = false := fun n hn =>
    habove n (List.mem_append_left _ hn)
      ((List.pairwise_append.mp hls).2.2 n hn m List.mem_cons_self)
  rw [run_interior (fun n hn => (hfront n hn).1) fun n hn => cut?_eq_none_iff.mpr (hfront n hn).2,
    run, step_doc_of_mem hd]
  exact List.mem_append_left _ List.mem_cons_self

end ScanState

/-! ### Openings -/

namespace SourceUnit

variable {u : SourceUnit} {line column d : Nat} {ls : List SourceLine}

/-- The scan meets an opening delimiter outside comments. The lines from there on are `ls`, the
first of them without the delimiter and what stands in front of it. -/
def Opens (u : SourceUnit) (line column : Nat) (ls : List SourceLine) : Prop :=
  ∃ above l after below, SourceLine.ofText u.text = above ++ l :: below
    ∧ ScanState.advance u.declarationLines .code above = .code
    ∧ trimStart l.text = openMark ++ after ∧ startsWith after ['/'] = false
    ∧ line = l.number ∧ column = Text.indent l.text + 1 ∧ ls = { l with text := after } :: below

/-- The first closing delimiter behind the opening is on the line of a declaration, and nothing is
declared on the lines of the comment above it. -/
structure ClosesOn (u : SourceUnit) (line d : Nat) (ls : List SourceLine) : Prop where
  declared : ∃ s ∈ u.symbols, s.declarationLine = d
  undeclared : ∀ s ∈ u.symbols, line ≤ s.declarationLine → d ≤ s.declarationLine
  unclosed : ∀ m ∈ ls, m.number < d → contains m.text closeMark = false
  closes : ∃ m ∈ ls, m.number = d ∧ contains m.text closeMark = true

section Reached

variable {above below : List SourceLine} {l : SourceLine}
  (hlines : SourceLine.ofText u.text = above ++ l :: below)
  (hcode : ScanState.advance u.declarationLines .code above = .code)

include hlines hcode

/-- The scan of a file goes on at a line that it reaches outside comments. -/
theorem scan_eq_append : u.scan = ScanState.run u.declarationLines .code above
    ++ ScanState.run u.declarationLines .code (l :: below) := by
  rw [scan, scanBlocks, hlines, ScanState.run_append_of_advance hcode]

/-- Nothing is given up on a line that the scan reaches outside comments. -/
theorem stoppedAt?_ne_of_reached {x : Unclosed} (hx : x ∈ u.scan.unclosed) :
    x.stoppedAt? ≠ some l.number := by
  obtain ⟨habove, hhere, hbetween⟩ := SourceLine.ascending_parts hlines
  intro hd
  rw [scan_eq_append hlines hcode] at hx
  rcases List.mem_append.mp hx with hx | hx
  · obtain ⟨-, m, hm, hline⟩ :=
      ((ScanState.run_unclosed habove ScanState.forall_openLine?_code).2 x hx).stopped l.number hd
    have := hbetween m hm l List.mem_cons_self
    omega
  · have hlies := (ScanState.run_unclosed hhere ScanState.forall_openLine?_code).2 x hx
    obtain ⟨m, hm, hline⟩ := ScanState.exists_line_of_mem_run hhere hx
    have hlt := hlies.below l.number hd
    rcases List.mem_cons.mp hm with rfl | hm
    · omega
    · have := (List.pairwise_cons.mp hhere).1 m hm
      omega

end Reached

/-- A comment does not close above its opening. -/
theorem ClosesOn.line_le (hcloses : u.ClosesOn line d ls) (hopens : u.Opens line column ls) :
    line ≤ d := by
  obtain ⟨above, l, after, below, hlines, -, -, -, rfl, -, rfl⟩ := hopens
  obtain ⟨hbelow, -⟩ := List.pairwise_cons.mp (SourceLine.ascending_parts hlines).2.1
  obtain ⟨m, hm, rfl, -⟩ := hcloses.closes
  rcases List.mem_cons.mp hm with rfl | hm
  · exact le_rfl
  · exact (hbelow m hm).le

/-- A block that opens above the line of the declaration is given up there. -/
theorem documentation_of_opens_above (hopens : u.Opens line column ls)
    (hcloses : u.ClosesOn line d ls) (hlt : line < d) :
    u.documentation d = .malformed ⟨line, column, some d⟩ := by
  obtain ⟨above, l, after, below, hlines, hcode, hmark, hdoc, rfl, rfl, rfl⟩ := hopens
  obtain ⟨hbelow, hrest⟩ := List.pairwise_cons.mp (SourceLine.ascending_parts hlines).2.1
  have hstop : d ∈ u.declarationLines := List.mem_map.mpr hcloses.declared
  have hline : ∃ m ∈ below, m.number = d := by
    obtain ⟨m, hm, hd, -⟩ := hcloses.closes
    rcases List.mem_cons.mp hm with rfl | hm
    · exact absurd hd hlt.ne
    · exact ⟨m, hm, hd⟩
  have hbetween : ∀ m ∈ below, m.number < d →
      m.number ∉ u.declarationLines ∧ contains m.text closeMark = false := by
    intro m hm hmd
    refine ⟨fun hdeclared => ?_, hcloses.unclosed m (List.mem_cons_of_mem _ hm) hmd⟩
    obtain ⟨s, hs, hsm⟩ := List.mem_map.mp hdeclared
    have := hcloses.undeclared s hs (hsm ▸ (hbelow m hm).le)
    omega
  obtain ⟨block, hfirst, hnumber, hindent⟩ := ScanState.exists_codeLine_doc hmark hdoc
    (hcloses.unclosed _ List.mem_cons_self hlt)
  have hgiven := ScanState.giveUp_mem_run hstop block hrest hline hbetween
  rw [OpenBlock.giveUp, hnumber, hindent] at hgiven
  refine documentation_of_stoppedAt? ?_ rfl
  rw [scan_eq_append hlines hcode]
  refine List.mem_append_right _ ?_
  rw [ScanState.run, ScanState.step, hfirst]
  exact hgiven

/-- A block that opens on the line of the declaration is found there. -/
theorem documentation_of_opens_on (hopens : u.Opens d column ls) (hcloses : u.ClosesOn d d ls) :
    ∃ b, u.documentation d = .found b ∧ b.startLine = d := by
  obtain ⟨above, l, after, below, hlines, hcode, hmark, hdoc, rfl, rfl, rfl⟩ := hopens
  obtain ⟨hbelow, -⟩ := List.pairwise_cons.mp (SourceLine.ascending_parts hlines).2.1
  have hclosed : contains after closeMark = true := by
    obtain ⟨m, hm, hd, hm'⟩ := hcloses.closes
    rcases List.mem_cons.mp hm with rfl | hm
    · exact hm'
    · have := hbelow m hm
      omega
  obtain ⟨b, hfirst, hstart, hend⟩ := ScanState.exists_codeLine_block hmark hdoc hclosed
  have hb : b ∈ u.scan.blocks := by
    rw [scan_eq_append hlines hcode]
    refine List.mem_append_right _ ?_
    rw [ScanState.run, ScanState.step, hfirst]
    exact List.mem_append_left _ List.mem_cons_self
  have hdocuments : u.Documents b l.number :=
    ⟨hend.le, fun m _ hlt hgt => by omega, hstart ▸ hcloses.undeclared⟩
  obtain ⟨c, hfound⟩ := exists_found_of_documents
    (fun x hx => stoppedAt?_ne_of_reached hlines hcode hx) hb hdocuments
  obtain ⟨hc, hcdocuments, hlowest⟩ := documents_of_found hfound
  have hcend := hlowest b hb hdocuments hend
  have hsame : c = b :=
    hcdocuments.eq_of_ends hc hb hdocuments (iff_of_false hcend.not_lt hend.not_lt)
  exact ⟨c, hfound, hsame ▸ hstart⟩

/-- Of the blocks that first close on the line of a declaration, with nothing declared above it,
that declaration gets those that open on the line too. The others are reported as not closed. -/
theorem extract_found_iff (hplaced : u.misplaced? = none) (hopens : u.Opens line column ls)
    (hcloses : u.ClosesOn line d ls) :
    ∃ e, u.extract = .ok e ∧ ∀ p ∈ e.symbols, p.1.declarationLine = d →
      ((∃ b, p.2 = .found b ∧ b.startLine = line) ↔ line = d)
        ∧ (line < d → p.2 = .malformed ⟨line, column, some d⟩) := by
  refine ⟨_, extract_of_placed hplaced, List.forall_mem_map.mpr fun s hs hsd => ?_⟩
  dsimp only at hsd ⊢
  rw [hsd]
  have habove := documentation_of_opens_above hopens hcloses
  refine ⟨⟨?_, ?_⟩, habove⟩
  · rintro ⟨b, hfound, -⟩
    by_contra hne
    rw [habove (Nat.lt_of_le_of_ne (hcloses.line_le hopens) hne)] at hfound
    cases hfound
  · rintro rfl
    exact documentation_of_opens_on hopens hcloses

/-- A block on the line of its symbol. -/
def ownLineExample : SourceUnit where
  path := "a.ts"
  text := "/** A. */ function f() {}"
  language := .typescript
  symbols := [{ kind := .function, name := "f", declarationLine := 1 }]

/-- In the example a block that is closed in front of the declaration on its own line is found. -/
theorem extract_found_ownLineExample : ownLineExample.misplaced? = none
    ∧ ownLineExample.Opens 1 1 [⟨1, 0, " A. */ function f() {}"⟩]
    ∧ ownLineExample.ClosesOn 1 1 [⟨1, 0, " A. */ function f() {}"⟩]
    ∧ ∃ e, ownLineExample.extract = .ok e ∧ ∀ p ∈ e.symbols, p.1.declarationLine = 1 →
      ∃ b, p.2 = .found b ∧ b.startLine = 1 := by
  have hplaced : ownLineExample.misplaced? = none := rfl
  have hopens : ownLineExample.Opens 1 1 [⟨1, 0, " A. */ function f() {}"⟩] :=
    ⟨[], ⟨1, 0, ownLineExample.text⟩, " A. */ function f() {}", [], by decide, rfl, by decide,
      by decide, rfl, by decide, rfl⟩
  have hcloses : ownLineExample.ClosesOn 1 1 [⟨1, 0, " A. */ function f() {}"⟩] :=
    ⟨by decide, by decide, by decide, ⟨_, List.mem_cons_self, rfl, by decide⟩⟩
  obtain ⟨e, he, hsymbols⟩ := extract_found_iff hplaced hopens hcloses
  exact ⟨hplaced, hopens, hcloses, e, he, fun p hp hline => (hsymbols p hp hline).1.mpr rfl⟩

/-- A block that ends on the line of its symbol, and the lines from its opening on. -/
def lateExample : SourceUnit where
  path := "a.ts"
  text := "/**\n * A.\n */ function f() {}"
  language := .typescript
  symbols := [{ kind := .function, name := "f", declarationLine := 3 }]

/-- The block is reported as not closed before the line that closes it. -/
theorem extract_lateExample : lateExample.misplaced? = none
    ∧ lateExample.Opens 1 1 [⟨1, 0, ""⟩, ⟨2, 4, " * A."⟩, ⟨3, 10, " */ function f() {}"⟩]
    ∧ lateExample.ClosesOn 1 3 [⟨1, 0, ""⟩, ⟨2, 4, " * A."⟩, ⟨3, 10, " */ function f() {}"⟩]
    ∧ lateExample.extract = .ok {
        symbols := lateExample.symbols.map fun s => (s, .malformed ⟨1, 1, some 3⟩)
        orphans := [] } :=
  ⟨rfl, ⟨[], ⟨1, 0, "/**"⟩, "", _, by decide, rfl, by decide, by decide, rfl, by decide, rfl⟩,
    ⟨by decide, by decide, by decide, ⟨_, List.mem_cons_of_mem _ (List.mem_cons_of_mem _
      List.mem_cons_self), rfl, by decide⟩⟩, rfl⟩

end SourceUnit

end DocContract
