import DocContract.Proofs.DocBlock.Delimiter
import DocContract.Proofs.DocBlock.Location
import DocContract.Proofs.DocBlock.Unclosed
import DocContract.Proofs.Text.Column

/-!
# Blocks are found exactly

Each block is the text from an opening delimiter, the first thing on its line, to the next closing
one, with its lines and its bytes counted as they stand in the text, and no declaration below its
first line. What is given up stands open to the next declaration. Blocks and what is given up lie
one below the other.
-/

namespace DocContract

open Text

/-! ### What is found -/

/-- On the line, in the column and at the offset an opening delimiter stands behind blanks, and the
rest of the text stands behind it. -/
def OpensIn (t rest : Text) (line column offset : Nat) : Prop :=
  ∃ above lead, t = above ++ (lead ++ (openMark ++ rest)) ∧ IsLines above
    ∧ (∀ c ∈ lead, isBlank c = true ∧ c ≠ '\n') ∧ line = above.count '\n' + 1
    ∧ column = width lead + 1 ∧ offset = width above + width lead

/-- The lines of an interior: their numbers increase in the range, and none of them closes a
comment. -/
structure LiesWithin (first last : Nat) (ms : List InteriorLine) : Prop where
  ascending : ms.Pairwise fun m n => m.line < n.line
  within : ∀ m ∈ ms, first ≤ m.line ∧ m.line ≤ last
  unclosed : ∀ m ∈ ms, contains m.text closeMark = false

/-- The block runs from an opening delimiter to the first closing one behind it, and nothing is
declared on its lines but on the first one. -/
structure DocBlock.IsExactIn (b : DocBlock) (stops : List Nat) (t : Text) : Prop where
  span : ∃ column inner below,
    OpensIn t (inner ++ (closeMark ++ below)) b.startLine column b.spanStart ∧ ClosesOnce inner
      ∧ b.spanEnd = b.spanStart + width openMark + width inner + width closeMark
      ∧ b.endLine = b.startLine + inner.count '\n'
  unstopped : ∀ d ∈ stops, b.startLine < d → b.endLine < d
  interior : LiesWithin b.startLine b.endLine b.lines

/-- Where a declaration stopped the scan, it is the first one below the opening, and nothing closes
the comment on the lines above it. -/
structure Unclosed.IsExactIn (x : Unclosed) (stops : List Nat) (t : Text) : Prop where
  stopped : ∀ d ∈ x.stoppedAt?, d ∈ stops ∧ x.line < d ∧ ∀ e ∈ stops, x.line < e → d ≤ e
  opened : ∀ d ∈ x.stoppedAt?, ∃ offset inner below,
    OpensIn t (inner ++ below) x.line x.column offset ∧ inner.getLast? = some '\n'
      ∧ contains inner closeMark = false ∧ d = x.line + inner.count '\n'

/-- All that is found is exact. -/
structure ScanResult.Holds (r : ScanResult) (stops : List Nat) (t : Text) : Prop where
  blocks : ∀ b ∈ r.blocks, b.IsExactIn stops t
  unclosed : ∀ x ∈ r.unclosed, x.IsExactIn stops t

namespace OpensIn

variable {t rest : Text} {line column offset : Nat}

private theorem append (h : OpensIn t rest line column offset) (more : Text) :
    OpensIn (t ++ more) (rest ++ more) line column offset := by
  obtain ⟨above, lead, rfl, hplace⟩ := h
  exact ⟨above, lead, by simp only [List.append_assoc], hplace⟩

/-- The lines of the text are those down to the opening and those behind it. -/
theorem count_eq (h : OpensIn t rest line column offset) :
    t.count '\n' + 1 = line + rest.count '\n' := by
  obtain ⟨above, lead, rfl, -, hlead, rfl, -, -⟩ := h
  have hnone : lead.count '\n' = 0 := List.count_eq_zero.mpr fun hm => (hlead _ hm).2 rfl
  have hmark : openMark.count '\n' = 0 := by decide
  simp only [List.count_append, hnone, hmark]
  omega

private theorem width_eq (h : OpensIn t rest line column offset) :
    width t = offset + width openMark + width rest := by
  obtain ⟨above, lead, rfl, -, -, -, -, rfl⟩ := h
  simp only [width_append]
  omega

end OpensIn

/-- The span of a block lies in the text. -/
theorem DocBlock.IsExactIn.spanEnd_le {b : DocBlock} {stops : List Nat} {t : Text}
    (h : b.IsExactIn stops t) : b.spanEnd ≤ width t := by
  obtain ⟨column, inner, below, hopens, -, hend, -⟩ := h.span
  rw [hopens.width_eq, hend, width_append, width_append]
  omega

namespace LiesWithin

variable {first middle last : Nat} {ms ns : List InteriorLine}

private theorem nil (first last : Nat) : LiesWithin first last [] :=
  ⟨.nil, List.forall_mem_nil _, List.forall_mem_nil _⟩

private theorem singleton {m : InteriorLine} (h : contains m.text closeMark = false) :
    LiesWithin m.line m.line [m] :=
  ⟨List.pairwise_singleton _ m, List.forall_mem_singleton.mpr ⟨le_rfl, le_rfl⟩,
    List.forall_mem_singleton.mpr h⟩

/-- Lines that go on below others. -/
theorem append (hms : LiesWithin first middle ms) (hns : LiesWithin (middle + 1) last ns)
    (hfirst : first ≤ middle + 1) (hlast : middle ≤ last) :
    LiesWithin first last (ms ++ ns) where
  ascending := List.pairwise_append.mpr ⟨hms.ascending, hns.ascending, fun m hm n hn =>
    Nat.lt_of_lt_of_le (Nat.lt_succ_of_le (hms.within m hm).2) (hns.within n hn).1⟩
  within := List.forall_mem_append.mpr
    ⟨fun m hm => ⟨(hms.within m hm).1, (hms.within m hm).2.trans hlast⟩,
      fun n hn => ⟨hfirst.trans (hns.within n hn).1, (hns.within n hn).2⟩⟩
  unclosed := List.forall_mem_append.mpr ⟨hms.unclosed, hns.unclosed⟩

variable {n start : Nat} {t : Text} (h : contains t closeMark = false)

include h

private theorem firstInterior : LiesWithin n n (firstInterior n start t) := by
  unfold DocContract.firstInterior
  split
  · exact nil n n
  · obtain ⟨bs, es, -, -, ht⟩ := exists_trim_between t
    have htrim : trim t <:+: t := ⟨bs, es, by rw [List.append_assoc, ← ht]⟩
    exact singleton (m := ⟨n, _, trim t⟩) (contains_of_isInfix h htrim)

private theorem interiorOf : LiesWithin n n [interiorOf n t] := by
  obtain ⟨before, after, ht, -⟩ := standsAt_interiorOf n t
  exact singleton (contains_of_isInfix h ⟨before, after, by rw [List.append_assoc, ← ht]⟩)

private theorem lastInterior : LiesWithin n n (lastInterior n t) := by
  unfold DocContract.lastInterior
  split
  · exact nil n n
  · exact interiorOf h

end LiesWithin

namespace ScanResult

variable {stops : List Nat} {t : Text}

private theorem holds_empty : Holds {} stops t := ⟨List.forall_mem_nil _, List.forall_mem_nil _⟩

private theorem Holds.append {r s : ScanResult} (hr : r.Holds stops t) (hs : s.Holds stops t) :
    (r ++ s).Holds stops t :=
  ⟨List.forall_mem_append.mpr ⟨hr.blocks, hs.blocks⟩,
    List.forall_mem_append.mpr ⟨hr.unclosed, hs.unclosed⟩⟩

private theorem holds_block {b : DocBlock} (h : b.IsExactIn stops t) :
    Holds { blocks := [b] } stops t :=
  ⟨List.forall_mem_singleton.mpr h, List.forall_mem_nil _⟩

private theorem holds_unclosed {x : Unclosed} (h : x.IsExactIn stops t) :
    Holds { unclosed := [x] } stops t :=
  ⟨List.forall_mem_nil _, List.forall_mem_singleton.mpr h⟩

end ScanResult

/-! ### What is being read -/

/-- The block is open at the end of what has been seen: nothing behind its opening delimiter closes
it, and no declaration below that stands on a line that has been seen. -/
structure OpenBlock.IsRead (b : OpenBlock) (stops : List Nat) (seen : Text) : Prop where
  opened : ∃ inner, OpensIn seen inner b.line (b.indent + 1) b.spanStart
    ∧ inner.getLast? = some '\n' ∧ contains inner closeMark = false
  unstopped : ∀ d ∈ stops, b.line < d → seen.count '\n' < d
  interior : LiesWithin b.line (seen.count '\n') b.interior.reverse

/-- The block that is being read, if there is one, is open. -/
def ScanState.IsRead (stops : List Nat) (seen : Text) : ScanState → Prop
  | .doc block => block.IsRead stops seen
  | _ => True

/-- The line behind what has been seen, given the piece of text that it is. -/
def lineBehind (seen piece : Text) : SourceLine :=
  ⟨seen.count '\n' + 1, width seen, dropReturn piece⟩

section Line

variable {seen piece : Text} {stops : List Nat}

private theorem number_lineBehind_append (seen : Text) (hpiece : '\n' ∉ piece) :
    (seen ++ (piece ++ ['\n'])).count '\n' = (lineBehind seen piece).number := by
  rw [List.count_append, List.count_append, List.count_eq_zero.mpr hpiece]
  simp [lineBehind]

/-- The opening delimiter of a line that begins with it. -/
theorem opensIn_lineBehind (hseen : IsLines seen) (hpiece : '\n' ∉ piece) {after : Text}
    (h : trimStart (dropReturn piece) = openMark ++ after) (more : Text) :
    ∃ back, OpensIn (seen ++ (piece ++ more)) (after ++ (back ++ more)) (seen.count '\n' + 1)
        (Text.indent (dropReturn piece) + 1) (width seen + Text.indent (dropReturn piece))
      ∧ '/' ∉ back := by
  obtain ⟨back, hback, hslash⟩ := exists_dropReturn_append piece
  have hline := leadingBlanks_append_trimStart (dropReturn piece)
  refine ⟨back, ⟨seen, leadingBlanks (dropReturn piece), ?_, hseen, fun c hc => ?_, rfl, rfl, rfl⟩,
    hslash⟩
  · conv => lhs; rw [hback, ← hline, h]
    simp only [List.append_assoc]
  · refine ⟨isBlank_of_mem_leadingBlanks hc, ?_⟩
    rintro rfl
    exact hpiece (mem_of_mem_dropReturn (hline ▸ List.mem_append_left _ hc))

namespace ScanState

variable (hseen : IsLines seen) (hpiece : '\n' ∉ piece)

include hseen hpiece

/-- A block that opens on a line is read from there, or found on the line. -/
theorem holds_openDoc {after : Text} (h : trimStart (dropReturn piece) = openMark ++ after) :
    (openDoc (lineBehind seen piece) after).1.IsRead stops (seen ++ (piece ++ ['\n']))
      ∧ ∀ more,
        (openDoc (lineBehind seen piece) after).2.Holds stops (seen ++ (piece ++ more)) := by
  have hafter : '\n' ∉ after := fun hm => hpiece (mem_of_mem_dropReturn
    (mem_of_mem_trimStart (h ▸ List.mem_append_right openMark hm)))
  have hcount := number_lineBehind_append seen hpiece
  unfold openDoc
  dsimp only
  split
  · next inner rest hcut =>
    refine ⟨trivial, fun more => ScanResult.holds_block ?_⟩
    obtain ⟨back, hopens, -⟩ := opensIn_lineBehind hseen hpiece h more
    have hparts := append_of_cut? hcut
    have hnone : inner.count '\n' = 0 := List.count_eq_zero.mpr fun hm =>
      hafter (hparts ▸ List.mem_append_left _ hm)
    have honce := closesOnce_of_cut? hcut
    rw [hparts, List.append_assoc, List.append_assoc] at hopens
    refine ⟨⟨_, inner, _, hopens, honce, ?_, ?_⟩, fun d _ hd => hd,
      LiesWithin.firstInterior honce.contains_eq_false⟩
    · simp only [OpenBlock.close, lineBehind, width_append, Text.indent]
      omega
    · simp only [OpenBlock.close, hnone, Nat.add_zero]
  · next hcut =>
    refine ⟨?_, fun more => ScanResult.holds_empty⟩
    obtain ⟨back, hopens, hback⟩ := opensIn_lineBehind hseen hpiece h ['\n']
    have hclose : contains after closeMark = false := cut?_eq_none_iff.mp hcut
    have hbehind : '/' ∉ back ++ ['\n'] := by simp [hback]
    refine ⟨⟨_, hopens, ?_, contains_closeMark_append_of_not_mem hclose hbehind⟩, ?_, ?_⟩
    · rw [← List.append_assoc, List.getLast?_concat]
    · rw [hcount]
      exact fun d _ hd => hd
    · rw [hcount, List.reverse_reverse]
      exact LiesWithin.firstInterior hclose

private theorem holds_codeLine (stops : List Nat) :
    (codeLine (lineBehind seen piece)).1.IsRead stops (seen ++ (piece ++ ['\n']))
      ∧ ∀ more, (codeLine (lineBehind seen piece)).2.Holds stops (seen ++ (piece ++ more)) := by
  generalize h : codeLine (lineBehind seen piece) = effect
  cases Outside.of_eq h with
  | doc htext _ => exact holds_openDoc hseen hpiece htext
  | _ => exact ⟨trivial, fun more => ScanResult.holds_empty⟩

end ScanState

namespace OpenBlock.IsRead

variable {block : OpenBlock} (h : block.IsRead stops seen)

include h

private theorem line_le : block.line ≤ seen.count '\n' := by
  obtain ⟨inner, hopens, hlast, -⟩ := h.opened
  have hnewline : 0 < inner.count '\n' := List.count_pos_iff.mpr (List.mem_of_getLast? hlast)
  have hcount := hopens.count_eq
  omega

/-- An open block that is given up on the line behind is reported exactly. -/
theorem giveUp (hstop : (lineBehind seen piece).number ∈ stops) (more : Text) :
    (block.giveUp (some (lineBehind seen piece).number)).IsExactIn stops (seen ++ more) := by
  obtain ⟨inner, hopens, hlast, hclose⟩ := h.opened
  refine ⟨fun d hd => ?_, fun d hd => ?_⟩ <;> obtain rfl := Option.some.inj hd
  · exact ⟨hstop, Nat.lt_succ_of_le h.line_le, h.unstopped⟩
  · exact ⟨_, inner, more, hopens.append more, hlast, hclose, hopens.count_eq⟩

variable (hpiece : '\n' ∉ piece)
  (hbelow : ∀ d ∈ stops, block.line < d → (lineBehind seen piece).number < d)

include hpiece hbelow

/-- A block that the line behind does not close is still open. -/
theorem goesOn (hopen : contains (dropReturn piece) closeMark = false) : IsRead
    { block with interior :=
        interiorOf (lineBehind seen piece).number (dropReturn piece) :: block.interior }
    stops (seen ++ (piece ++ ['\n'])) := by
  obtain ⟨inner, hopens, hlast, hclose⟩ := h.opened
  obtain ⟨back, hback, hslash⟩ := exists_dropReturn_append piece
  have hline : contains (piece ++ ['\n']) closeMark = false := by
    rw [hback, List.append_assoc]
    exact contains_closeMark_append_of_not_mem hopen (by simp [hslash])
  have hcount := number_lineBehind_append seen hpiece
  refine ⟨⟨_, hopens.append (piece ++ ['\n']), ?_,
    contains_closeMark_append_lines (.inr hlast) hclose hline⟩, ?_, ?_⟩
  · rw [← List.append_assoc, List.getLast?_concat]
  · rw [hcount]
    exact hbelow
  · rw [hcount, List.reverse_cons]
    exact h.interior.append (LiesWithin.interiorOf hopen) (h.line_le.trans (Nat.le_succ _))
      (Nat.le_succ _)

/-- A block that the line behind closes is found exactly. -/
theorem close {before rest : Text}
    (hcut : cut? closeMark (dropReturn piece) = some (before, rest)) (more : Text) :
    (block.close (lineBehind seen piece) before
      (lastInterior (lineBehind seen piece).number before)).IsExactIn stops
        (seen ++ (piece ++ more)) := by
  obtain ⟨inner, hopens, hlast, hclose⟩ := h.opened
  obtain ⟨back, hback, -⟩ := exists_dropReturn_append piece
  have hparts := append_of_cut? hcut
  have honce := closesOnce_of_cut? hcut
  have hnone : before.count '\n' = 0 := List.count_eq_zero.mpr fun hm =>
    hpiece (mem_of_mem_dropReturn (hparts ▸ List.mem_append_left _ hm))
  have hspan := hopens.append (piece ++ more)
  have hrest : inner ++ (piece ++ more)
      = (inner ++ before) ++ (closeMark ++ (rest ++ (back ++ more))) := by
    conv => lhs; rw [hback, hparts]
    simp only [List.append_assoc]
  rw [hrest] at hspan
  have hcount := hopens.count_eq
  have hwidth := hopens.width_eq
  refine ⟨⟨_, inner ++ before, _, hspan, honce.append_lines (.inr hlast) hclose, ?_, ?_⟩, hbelow,
    h.interior.append (LiesWithin.lastInterior honce.contains_eq_false)
      (h.line_le.trans (Nat.le_succ _)) (Nat.le_succ _)⟩
  · simp only [OpenBlock.close, lineBehind, width_append]
    omega
  · simp only [OpenBlock.close, lineBehind, List.count_append]
    omega

end OpenBlock.IsRead

namespace ScanState

/-- A line keeps the block that is being read open, and what is found on it is exact. -/
theorem holds_step (hseen : IsLines seen) (hpiece : '\n' ∉ piece) {state : ScanState}
    (h : state.IsRead stops seen) :
    (step stops state (lineBehind seen piece)).1.IsRead stops (seen ++ (piece ++ ['\n']))
      ∧ ∀ more, (step stops state (lineBehind seen piece)).2.Holds stops
          (seen ++ (piece ++ more)) := by
  obtain ⟨hcode, hfound⟩ := holds_codeLine hseen hpiece stops
  cases state with
  | code => exact ⟨hcode, hfound⟩
  | comment =>
    refine ⟨?_, fun more => ScanResult.holds_empty⟩
    unfold step
    dsimp only
    split <;> trivial
  | doc block =>
    have hread : block.IsRead stops seen := h
    by_cases hstop : (lineBehind seen piece).number ∈ stops
    · rw [step_doc_of_mem hstop]
      exact ⟨hcode, fun more =>
        (ScanResult.holds_unclosed (hread.giveUp hstop _)).append (hfound more)⟩
    · have hbelow : ∀ d ∈ stops, block.line < d → (lineBehind seen piece).number < d := by
        intro d hd hlt
        have hle : (lineBehind seen piece).number ≤ d := hread.unstopped d hd hlt
        exact Nat.lt_of_le_of_ne hle fun heq => hstop (heq ▸ hd)
      rw [step_doc_of_not_mem hstop]
      split
      · next before rest hcut =>
        exact ⟨trivial, fun more =>
          ScanResult.holds_block (hread.close hpiece hbelow hcut more)⟩
      · next hcut =>
        exact ⟨hread.goesOn hpiece hbelow (cut?_eq_none_iff.mp hcut),
          fun more => ScanResult.holds_empty⟩

/-- The lines behind what has been seen: the next one, and those behind it. -/
theorem numbered_behind {r : List Text} (hpiece : '\n' ∉ piece) :
    SourceLine.numbered (seen.count '\n' + 1) (width seen) (piece :: r)
      = lineBehind seen piece :: SourceLine.numbered
          ((seen ++ (piece ++ ['\n'])).count '\n' + 1) (width (seen ++ (piece ++ ['\n']))) r := by
  have hwidth : width (seen ++ (piece ++ ['\n'])) = width seen + width piece + 1 := by
    rw [width_append, width_append, ← Nat.add_assoc]
    rfl
  rw [number_lineBehind_append seen hpiece, hwidth]
  rfl

/-- All that is found on the rest of the lines is exact. -/
theorem holds_run {t : Text} {state : ScanState} {pieces : List Text} (hseen : IsLines seen)
    (h : state.IsRead stops seen) (hpieces : ∀ p ∈ pieces, '\n' ∉ p)
    (ht : pieces ≠ [] → t = seen ++ join ['\n'] pieces) :
    (run stops state (SourceLine.numbered (seen.count '\n' + 1) (width seen) pieces)).Holds
      stops t := by
  induction pieces generalizing seen state with
  | nil =>
    cases state with
    | doc block => exact ScanResult.holds_unclosed ⟨nofun, nofun⟩
    | _ => exact ScanResult.holds_empty
  | cons p r ih =>
    obtain ⟨hp, hr⟩ := List.forall_mem_cons.mp hpieces
    obtain ⟨hstate, hfound⟩ := holds_step hseen hp h
    have htext := ht (List.cons_ne_nil p r)
    -- Behind the last piece stands no newline, and no piece is left that would tell.
    have hmore : ∃ more, t = seen ++ (p ++ more)
        ∧ (r ≠ [] → t = (seen ++ (p ++ ['\n'])) ++ join ['\n'] r) := by
      by_cases hnil : r = []
      · exact ⟨[], by rw [htext, hnil]; simp [join], fun hne => absurd hnil hne⟩
      · rw [join_cons hnil, List.append_assoc] at htext
        exact ⟨_, htext, fun _ => by rw [htext]; simp only [List.append_assoc]⟩
    obtain ⟨more, hhere, hbehind⟩ := hmore
    have hlines : IsLines (seen ++ (p ++ ['\n'])) := by
      rw [← List.append_assoc]
      exact isLines_append_newline _
    rw [numbered_behind hp]
    refine ScanResult.Holds.append ?_ (ih hlines hstate hr hbehind)
    rw [hhere]
    exact hfound more

end ScanState

end Line

/-! ### The order of what is found -/

/-- No opening that is given up stands on a line of a block. -/
def ScanResult.Apart (r : ScanResult) : Prop :=
  ∀ b ∈ r.blocks, ∀ x ∈ r.unclosed, x.line < b.startLine ∨ b.endLine < x.line

namespace ScanState

section Order

variable {stops : List Nat} {state : ScanState} {l : SourceLine} {ls : List SourceLine}
  (hls : SourceLine.Ascending (l :: ls))

include hls

/-- What is given up below a line stands below the block that the line completes. -/
theorem endLine_lt_of_mem_run {b : DocBlock} (hb : b ∈ (step stops state l).2.blocks)
    {x : Unclosed} (hx : x ∈ (run stops (step stops state l).1 ls).unclosed) :
    b.endLine < x.line := by
  obtain ⟨hbelow, hrest⟩ := List.pairwise_cons.mp hls
  have heffect := effect_step stops state l
  generalize (step stops state l).1 = next at hx heffect
  generalize (step stops state l).2.blocks = found at hb heffect
  cases heffect with
  | none opened => cases hb
  | one starts ends written =>
    obtain ⟨m, hm, hline⟩ := exists_line_of_mem_run hrest hx
    rw [List.mem_singleton.mp hb, ends, ← hline]
    exact hbelow m hm

/-- What is found on a line that gives up an opening, and below it, stands below the opening. -/
theorem line_lt_of_mem_step (hopen : ∀ n ∈ state.openLine?, n < l.number) {x : Unclosed}
    (hx : x ∈ (step stops state l).2.unclosed) {b : DocBlock}
    (hb : b ∈ (run stops state (l :: ls)).blocks) : x.line < b.startLine := by
  obtain ⟨hbelow, hrest⟩ := List.pairwise_cons.mp hls
  rcases step_unclosed_cases stops state l with hnone | ⟨block, rfl, hstop, hone⟩
  · rw [hnone] at hx
    cases hx
  · -- The line itself is read as code, so every block opens on it or below.
    have hcode : run stops (.doc block) (l :: ls) = (step stops (.doc block) l).2
        ++ run stops (codeLine l).1 ls := by rw [run, step_doc_of_mem hstop]
    have hblocks : (run stops (.doc block) (l :: ls)).blocks
        = (run stops .code (l :: ls)).blocks := by
      rw [hcode, step_doc_of_mem hstop]
      rfl
    rw [hblocks] at hb
    obtain ⟨m, hm, hline⟩ := exists_start_of_mem_run hls hb
    rw [hone] at hx
    have hfirst : block.line < l.number := hopen block.line rfl
    have hle : l.number ≤ m.number := by
      rcases List.mem_cons.mp hm with rfl | hm
      · exact le_rfl
      · exact (hbelow m hm).le
    rw [List.mem_singleton.mp hx, ← hline]
    exact hfirst.trans_le hle

end Order

private theorem apart_run {stops : List Nat} {state : ScanState} {ls : List SourceLine}
    (hls : SourceLine.Ascending ls) (hopen : ∀ n ∈ state.openLine?, ∀ l ∈ ls, n < l.number) :
    (run stops state ls).Apart := by
  induction ls generalizing state with
  | nil => cases state <;> exact fun b hb => absurd hb List.not_mem_nil
  | cons l ls ih =>
    have hnext := lt_of_opened (openLine?_step stops state l) hls hopen
    have hrest := ih (List.pairwise_cons.mp hls).2 hnext
    intro b hb x hx
    rcases List.mem_append.mp hx with hxl | hxls
    · exact .inl (line_lt_of_mem_step hls (fun n hn => hopen n hn l List.mem_cons_self) hxl hb)
    · rcases List.mem_append.mp hb with hbl | hbls
      · exact .inr (endLine_lt_of_mem_run hls hbl hxls)
      · exact hrest b hbls x hxls

end ScanState

/-- What a scan finds is in order and exact: the blocks and the openings that are given up lie one
below the other, and each stands in the text as it is reported. -/
structure ScanResult.IsExact (r : ScanResult) (stops : List Nat) (t : Text) : Prop where
  stacked : Stacked r.blocks
  ordered : ∀ b ∈ r.blocks, b.startLine ≤ b.endLine
  ascending : r.unclosed.Pairwise fun x y => x.line < y.line
  apart : r.Apart
  inside : ∀ b ∈ r.blocks, b.spanEnd ≤ width t
  holds : r.Holds stops t

/-- Whatever the text and the lines of the declarations are, a scan finds exact blocks in order. -/
theorem scanBlocks_exact (stops : List Nat) (t : Text) :
    (scanBlocks stops t).IsExact stops t := by
  obtain ⟨hstacked, hblocks⟩ := scanBlocks_blocks stops t
  obtain ⟨hturn, hunclosed⟩ := scanBlocks_unclosed stops t
  have hread : ScanState.code.IsRead stops [] := trivial
  have hholds : (scanBlocks stops t).Holds stops t :=
    ScanState.holds_run (.inl rfl) hread (fun p hp => not_mem_of_mem_splitOn hp)
      fun _ => (join_rawLines t).symm
  refine ⟨hstacked, fun b hb => (hblocks b hb).ordered, ?_,
    ScanState.apart_run (SourceLine.ascending_ofText t) ScanState.forall_openLine?_code,
    fun b hb => (hholds.blocks b hb).spanEnd_le, hholds⟩
  refine hturn.imp_of_mem fun hx hy ⟨d, hd, hle⟩ => ?_
  exact ((hunclosed _ hx).below d hd).trans_le hle

end DocContract
