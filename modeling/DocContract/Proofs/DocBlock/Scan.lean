import DocContract.DocBlock
import DocContract.Proofs.Text.Cut
import DocContract.Proofs.Text.Trim

/-!
# Where the scan finds blocks

One line completes at most one block, which ends on that line, and leaves no block open when it
does. So the blocks of a text lie one below the other, no two of them on one line, and each of them
starts and ends on a line of the text, the last one not blank.
-/

namespace DocContract

open Text

/-! ### Lines of a source file -/

namespace SourceLine

/-- The numbers of the lines increase. -/
def Ascending (ls : List SourceLine) : Prop := ls.Pairwise fun l m => l.number < m.number

/-- A line has a number from the first one on, and the text of one of the pieces. -/
theorem of_mem_numbered {n offset : Nat} {pieces : List Text} {l : SourceLine}
    (h : l ∈ numbered n offset pieces) : n ≤ l.number ∧ l.number < n + pieces.length
      ∧ ∃ piece ∈ pieces, l.text = dropReturn piece := by
  induction pieces generalizing n offset with
  | nil => cases h
  | cons piece r ih =>
    rw [List.length_cons]
    rcases List.mem_cons.mp h with rfl | h
    · dsimp only
      exact ⟨by omega, by omega, piece, List.mem_cons_self, rfl⟩
    · obtain ⟨hfirst, hlast, piece', hpiece, htext⟩ := ih h
      exact ⟨by omega, by omega, piece', List.mem_cons_of_mem _ hpiece, htext⟩

/-- The bytes of some pieces and of the newlines behind them. -/
def widthOf : List Text → Nat
  | [] => 0
  | piece :: r => width piece + 1 + widthOf r

/-- Lines are numbered on behind others. -/
theorem numbered_append (n offset : Nat) (ps qs : List Text) :
    numbered n offset (ps ++ qs)
      = numbered n offset ps ++ numbered (n + ps.length) (offset + widthOf ps) qs := by
  induction ps generalizing n offset with
  | nil => rfl
  | cons p ps ih =>
    have hnumber : n + (ps.length + 1) = n + 1 + ps.length := by omega
    have hoffset : offset + widthOf (p :: ps) = offset + width p + 1 + widthOf ps := by
      rw [widthOf]
      omega
    rw [List.cons_append, numbered, ih, List.length_cons, numbered, List.cons_append, hnumber,
      hoffset]

private theorem ascending_numbered (n offset : Nat) (pieces : List Text) :
    Ascending (numbered n offset pieces) := by
  induction pieces generalizing n offset with
  | nil => exact .nil
  | cons piece r ih => exact .cons (fun l hl => (of_mem_numbered hl).1) (ih _ _)

/-- The lines of a text stand in ascending order. -/
theorem ascending_ofText (t : Text) : Ascending (ofText t) := ascending_numbered 1 0 _

/-- Lines are counted from one. -/
theorem pos_of_mem_ofText {t : Text} {l : SourceLine} (h : l ∈ ofText t) : 0 < l.number :=
  (of_mem_numbered h).1

/-- A line that begins with a delimiter, blanks apart, is not blank. -/
theorem isBlank_of_after? {l : SourceLine} {mark after : Text} (hm : mark ≠ [])
    (h : after? mark (trimStart l.text) = some after) : l.isBlank = false := by
  rw [isBlank, Bool.eq_false_iff, ne_eq, ← trimStart_eq_nil, after?_eq_some_iff.mp h]
  simp [hm]

/-- A line that holds a closing delimiter is not blank. -/
theorem isBlank_of_cut? {l : SourceLine} {before rest : Text}
    (h : cut? closeMark l.text = some (before, rest)) : l.isBlank = false := by
  have hmem : '*' ∈ l.text := by
    rw [append_of_cut? h]
    simp [closeMark]
  rw [isBlank, Bool.eq_false_iff]
  intro hall
  exact absurd (List.all_eq_true.mp hall '*' hmem) (by decide)

end SourceLine

namespace ScanResult

/-- An empty result in front of another one adds nothing. -/
theorem empty_append (r : ScanResult) : ({} : ScanResult) ++ r = r := by
  cases r
  rfl

/-- An empty result behind another one adds nothing. -/
theorem append_empty (r : ScanResult) : r ++ ({} : ScanResult) = r := by
  obtain ⟨blocks, unclosed⟩ := r
  change ScanResult.mk (blocks ++ []) (unclosed ++ []) = _
  simp

end ScanResult

/-! ### One line -/

/-- The line on which the block that is being read was opened. -/
def ScanState.openLine? : ScanState → Option Nat
  | .doc block => some block.line
  | _ => none

/-- No block is open outside comments. -/
theorem ScanState.forall_openLine?_code {p : Nat → Prop} : ∀ n ∈ openLine? .code, p n :=
  fun n hn => by cases hn

/-- What a line does to the blocks: it completes none, and a block that is open then was open before
or opens on the line; or it completes one, and none is open then. -/
inductive ScanState.Effect (state : ScanState) (l : SourceLine) : ScanState → List DocBlock → Prop
  | none {next : ScanState}
      (opened : ∀ n ∈ next.openLine?, n = l.number ∨ state.openLine? = some n) :
      Effect state l next []
  | one {b : DocBlock} (starts : b.startLine = l.number ∨ state.openLine? = some b.startLine)
      (ends : b.endLine = l.number) (written : l.isBlank = false) : Effect state l .code [b]

namespace ScanState

/-- What a line outside comments does: it opens no comment, or a doc block, or a comment that is
none and that it closes or not. -/
inductive Outside (l : SourceLine) : ScanState × ScanResult → Prop
  | plain (hnone : startsWith (trimStart l.text) "/*" = false) : Outside l (.code, {})
  | whole {after : Text} (htext : trimStart l.text = openMark ++ after)
      (hslash : startsWith after ['/'] = true) : Outside l (.code, {})
  | doc {after : Text} (htext : trimStart l.text = openMark ++ after)
      (hslash : startsWith after ['/'] = false) : Outside l (openDoc l after)
  | closed {after : Text} (hdoc : after? openMark (trimStart l.text) = .none)
      (htext : trimStart l.text = "/*".toList ++ after) (hclose : contains after closeMark = true) :
      Outside l (.code, {})
  | comment {after : Text} (hdoc : after? openMark (trimStart l.text) = .none)
      (htext : trimStart l.text = "/*".toList ++ after) (hopen : contains after closeMark = false) :
      Outside l (.comment, {})

/-- What a line of code gives is one of the cases of `Outside`. -/
theorem Outside.of_eq {l : SourceLine} {r : ScanState × ScanResult} (h : codeLine l = r) :
    Outside l r := by
  subst h
  unfold codeLine
  dsimp only
  split
  · next after hafter =>
    have htext := after?_eq_some_iff.mp hafter
    split
    · next hslash => exact .whole htext hslash
    · next hslash => exact .doc htext (Bool.eq_false_iff.mpr hslash)
  · next hdoc =>
    split
    · next after hafter =>
      have htext := after?_eq_some_iff.mp hafter
      rw [isSome_cut?]
      split
      · next hclose => exact .closed hdoc htext hclose
      · next hopen => exact .comment hdoc htext (Bool.eq_false_iff.mpr hopen)
    · next hnone =>
      refine .plain ?_
      rw [startsWith, hnone]
      rfl

private theorem effect_openDoc (state : ScanState) {l : SourceLine} {after : Text}
    (h : l.isBlank = false) : Effect state l (openDoc l after).1 (openDoc l after).2.blocks := by
  unfold openDoc
  split
  · exact .one (.inl rfl) rfl h
  · exact .none fun n hn => .inl (Option.some.inj hn).symm

/-- A line of code changes the state and the blocks as `Effect` says. -/
theorem effect_codeLine (state : ScanState) (l : SourceLine) :
    Effect state l (codeLine l).1 (codeLine l).2.blocks := by
  generalize h : codeLine l = effect
  cases Outside.of_eq h with
  | doc htext _ =>
    exact effect_openDoc state (SourceLine.isBlank_of_after? (by decide)
      (after?_eq_some_iff.mpr htext))
  | _ => exact .none fun n hn => by cases hn

/-- A step changes the state and the blocks as `Effect` says. -/
theorem effect_step (stops : List Nat) (state : ScanState) (l : SourceLine) :
    Effect state l (step stops state l).1 (step stops state l).2.blocks := by
  unfold step
  split
  · exact effect_codeLine .code l
  · refine .none fun n hn => ?_
    split at hn <;> cases hn
  · next block =>
    split
    · exact effect_codeLine (.doc block) l
    · split
      · next before rest hcut => exact .one (.inr rfl) rfl (SourceLine.isBlank_of_cut? hcut)
      · exact .none fun n hn => .inr hn

/-- A line on which a block is given up is read as a line of code. -/
theorem step_doc_of_mem {stops : List Nat} {l : SourceLine} (h : l.number ∈ stops)
    (block : OpenBlock) : step stops (.doc block) l = ((codeLine l).1,
      { unclosed := [block.giveUp (some l.number)] } ++ (codeLine l).2) :=
  if_pos (List.contains_iff_mem.mpr h)

/-- A line on which nothing is declared closes the block, or belongs to it. -/
theorem step_doc_of_not_mem {stops : List Nat} {l : SourceLine} (h : l.number ∉ stops)
    (block : OpenBlock) : step stops (.doc block) l = match cut? closeMark l.text with
      | some (before, _) =>
        (.code, { blocks := [block.close l before (lastInterior l.number before)] })
      | none =>
        (.doc { block with interior := interiorOf l.number l.text :: block.interior }, {}) :=
  if_neg (by simpa using h)

/-- Lines that neither close the block nor declare a symbol are gathered. -/
theorem run_interior {stops : List Nat} {block : OpenBlock} {ls rest : List SourceLine}
    (hstop : ∀ l ∈ ls, l.number ∉ stops) (hclose : ∀ l ∈ ls, cut? closeMark l.text = none) :
    run stops (.doc block) (ls ++ rest)
      = run stops (.doc { block with
          interior := (ls.map fun l => interiorOf l.number l.text).reverse ++ block.interior })
        rest := by
  induction ls generalizing block with
  | nil => rfl
  | cons l ls ih =>
    obtain ⟨hl, hls⟩ := List.forall_mem_cons.mp hstop
    obtain ⟨hc, hcs⟩ := List.forall_mem_cons.mp hclose
    have hstep : step stops (.doc block) l
        = (.doc { block with interior := interiorOf l.number l.text :: block.interior }, {}) := by
      rw [step_doc_of_not_mem hl, hc]
    rw [List.cons_append, run, hstep]
    dsimp only
    rw [ih hls hcs]
    simp [ScanResult.empty_append]

section Opened

variable {open? next? : Option Nat} {l : SourceLine} {ls : List SourceLine}
  (opened : ∀ n ∈ next?, n = l.number ∨ open? = some n)

include opened

/-- A block that is open behind a line stands above the lines that are left. -/
theorem lt_of_opened (hls : SourceLine.Ascending (l :: ls))
    (hopen : ∀ n ∈ open?, ∀ m ∈ l :: ls, n < m.number) : ∀ n ∈ next?, ∀ m ∈ ls, n < m.number := by
  intro n hn m hm
  rcases opened n hn with rfl | hstate
  · exact (List.pairwise_cons.mp hls).1 m hm
  · exact hopen n hstate m (List.mem_cons_of_mem _ hm)

/-- What starts on the lines that are left, or where a block is open behind the line, starts on all
lines or where a block was open before. -/
theorem starts_of_opened {n : Nat} (h : next? = some n ∨ ∃ m ∈ ls, m.number = n) :
    open? = some n ∨ ∃ m ∈ l :: ls, m.number = n := by
  rcases h with hnext | ⟨m, hm, hn⟩
  · rcases opened n hnext with hl | hstate
    · exact .inr ⟨l, List.mem_cons_self, hl.symm⟩
    · exact .inl hstate
  · exact .inr ⟨m, List.mem_cons_of_mem _ hm, hn⟩

end Opened

end ScanState

/-! ### All lines -/

/-- A block that a scan finds on some lines: it starts on one of them, or where a block was open
before them, and ends there or below on one that is not blank. -/
structure DocBlock.LiesOn (b : DocBlock) (open? : Option Nat) (ls : List SourceLine) : Prop where
  starts : open? = some b.startLine ∨ ∃ l ∈ ls, l.number = b.startLine
  ends : ∃ l ∈ ls, l.number = b.endLine ∧ l.isBlank = false
  ordered : b.startLine ≤ b.endLine

/-- The blocks lie one below the other. -/
def Stacked (bs : List DocBlock) : Prop := bs.Pairwise fun b c => b.endLine < c.startLine

private theorem ScanState.run_blocks {stops : List Nat} {state : ScanState} {ls : List SourceLine}
    (hls : SourceLine.Ascending ls) (hopen : ∀ n ∈ state.openLine?, ∀ l ∈ ls, n < l.number) :
    Stacked (run stops state ls).blocks
      ∧ ∀ b ∈ (run stops state ls).blocks, b.LiesOn state.openLine? ls := by
  induction ls generalizing state with
  | nil => cases state <;> exact ⟨.nil, fun b hb => absurd hb List.not_mem_nil⟩
  | cons l ls ih =>
    obtain ⟨hbelow, hrest⟩ := List.pairwise_cons.mp hls
    have hstep := effect_step stops state l
    have hrun : (run stops state (l :: ls)).blocks
        = (step stops state l).2.blocks ++ (run stops (step stops state l).1 ls).blocks := rfl
    rw [hrun]
    generalize (step stops state l).1 = next at hstep
    generalize (step stops state l).2.blocks = found at hstep
    cases hstep with
    | none opened =>
      obtain ⟨hstacked, hlies⟩ := ih hrest (lt_of_opened opened hls hopen)
      refine ⟨hstacked, fun b hb => ?_⟩
      obtain ⟨starts, ⟨m, hm, hends, hwritten⟩, ordered⟩ := hlies b hb
      exact ⟨starts_of_opened opened starts, ⟨m, List.mem_cons_of_mem _ hm, hends, hwritten⟩,
        ordered⟩
    | @one b starts ends written =>
      obtain ⟨hstacked, hlies⟩ := ih hrest forall_openLine?_code
      constructor
      · -- What follows starts on a later line, since no block is open behind this one.
        refine .cons (fun c hc => ?_) hstacked
        rcases (hlies c hc).starts with hstart | ⟨m, hm, hstart⟩
        · cases hstart
        · rw [ends, ← hstart]
          exact hbelow m hm
      · refine List.forall_mem_cons.mpr ⟨⟨?_, ⟨l, List.mem_cons_self, ends.symm, written⟩, ?_⟩, ?_⟩
        · rcases starts with hl | hstate
          · exact .inr ⟨l, List.mem_cons_self, hl.symm⟩
          · exact .inl hstate
        · rcases starts with hl | hstate
          · omega
          · have := hopen _ hstate l List.mem_cons_self
            omega
        · intro c hc
          obtain ⟨hstart, ⟨m, hm, hends, hwritten⟩, ordered⟩ := hlies c hc
          exact ⟨starts_of_opened forall_openLine?_code hstart,
            ⟨m, List.mem_cons_of_mem _ hm, hends, hwritten⟩, ordered⟩

/-- A block that a scan finds from outside comments on starts on one of its lines. -/
theorem ScanState.exists_start_of_mem_run {stops : List Nat} {ls : List SourceLine}
    (hls : SourceLine.Ascending ls) {b : DocBlock} (hb : b ∈ (run stops .code ls).blocks) :
    ∃ l ∈ ls, l.number = b.startLine := by
  rcases ((run_blocks hls forall_openLine?_code).2 b hb).starts with h | h
  · cases h
  · exact h

/-- The blocks of a text lie one below the other, each on lines of the text. -/
theorem scanBlocks_blocks (stops : List Nat) (t : Text) :
    Stacked (scanBlocks stops t).blocks
      ∧ ∀ b ∈ (scanBlocks stops t).blocks, b.LiesOn none (SourceLine.ofText t) :=
  ScanState.run_blocks (SourceLine.ascending_ofText t) ScanState.forall_openLine?_code

end DocContract
