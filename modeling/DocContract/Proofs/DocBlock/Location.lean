import DocContract.Proofs.Comment.Location
import DocContract.Proofs.DocBlock.Scan
import DocContract.Schema.Validate

/-!
# Where blocks and what they hold stand

The scan takes delimiters, leaders and blanks off the lines of a block and keeps the column of what
is left. Every interior line stands in its source line at its column, so what is read from a block
stands in the source where its place says, and so does every opening that is never closed.
-/

namespace DocContract

open Text

/-! ### Lines of a source file -/

private theorem SourceLine.exists_getElem?_of_mem_numbered {n offset : Nat} {pieces : List Text}
    {l : SourceLine} (h : l ∈ numbered n offset pieces) :
    ∃ i piece, l.number = n + i ∧ pieces[i]? = some piece ∧ l.text = dropReturn piece := by
  induction pieces generalizing n offset with
  | nil => cases h
  | cons piece r ih =>
    rcases List.mem_cons.mp h with rfl | h
    · exact ⟨0, piece, rfl, rfl, rfl⟩
    · obtain ⟨i, piece', hnumber, hpiece, htext⟩ := ih h
      exact ⟨i + 1, piece', by omega, hpiece, htext⟩

/-- What stands in a source line stands in the line of the text with its number. -/
theorem SourceLine.holdsAt {t : Text} {l : SourceLine} (h : l ∈ ofText t) {column : Nat}
    {part : Text} (hp : StandsAt l.text column part) : HoldsAt t l.number column part := by
  obtain ⟨i, piece, hnumber, hpiece, htext⟩ := exists_getElem?_of_mem_numbered h
  rw [htext] at hp
  exact ⟨i, piece, by omega, hpiece, hp.of_line (dropReturn_isPrefixOf piece)⟩

/-! ### Leaders -/

/-- What is left of a line without its leader stands at the offset. -/
theorem standsAt_stripLeader (leader : Char) (line : Text) :
    StandsAt line ((stripLeader leader line).1 + 1) (stripLeader leader line).2 := by
  have hline := StandsAt.self line
  unfold stripLeader
  split
  · next c r htrim =>
    have hlead : StandsAt line (1 + Text.indent line) (c :: r) := htrim ▸ hline.trimStart
    split
    · have hrest : StandsAt line (Text.indent line + c.utf8Size + 1) r := by
        have := hlead.tail
        rwa [Nat.add_comm 1, Nat.add_right_comm] at this
      dsimp only
      split
      · exact hrest.tail
      · exact hrest
    · exact hline
  · exact hline

/-- An interior line stands in the line that it is left of. -/
theorem standsAt_interiorOf (number : Nat) (line : Text) :
    StandsAt line (interiorOf number line).column (interiorOf number line).text :=
  (standsAt_stripLeader '*' line).of_isPrefixOf (trimEnd_isPrefixOf _)

/-! ### Lines that are read -/

/-- The interior line stands in its line of the text at its column. -/
def InteriorLine.IsIn (t : Text) (l : InteriorLine) : Prop := HoldsAt t l.line l.column l.text

/-- The opening stands where the report says. -/
def Unclosed.IsIn (t : Text) (u : Unclosed) : Prop := HoldsAt t u.line u.column openMark

/-- The opening of a block and its interior so far stand in the text. -/
structure OpenBlock.IsIn (t : Text) (b : OpenBlock) : Prop where
  opening : HoldsAt t b.line (b.indent + 1) openMark
  interior : ∀ l ∈ b.interior, l.IsIn t

/-- The block that is being read stands in the text. -/
def ScanState.IsIn (t : Text) : ScanState → Prop
  | .doc block => block.IsIn t
  | _ => True

/-- What has been found stands in the text. -/
structure ScanResult.IsIn (t : Text) (r : ScanResult) : Prop where
  blocks : ∀ b ∈ r.blocks, ∀ l ∈ b.lines, l.IsIn t
  unclosed : ∀ u ∈ r.unclosed, u.IsIn t

variable {t : Text}

private theorem ScanResult.isIn_empty : ScanResult.IsIn t {} :=
  ⟨List.forall_mem_nil _, List.forall_mem_nil _⟩

private theorem ScanResult.IsIn.append {r r' : ScanResult} (h : r.IsIn t) (h' : r'.IsIn t) :
    (r ++ r').IsIn t :=
  ⟨List.forall_mem_append.mpr ⟨h.blocks, h'.blocks⟩,
    List.forall_mem_append.mpr ⟨h.unclosed, h'.unclosed⟩⟩

private theorem ScanResult.isIn_block {b : DocBlock} (h : ∀ l ∈ b.lines, l.IsIn t) :
    ScanResult.IsIn t { blocks := [b] } :=
  ⟨List.forall_mem_singleton.mpr h, List.forall_mem_nil _⟩

/-- A block that is given up is reported where it opens. -/
theorem OpenBlock.IsIn.giveUp {b : OpenBlock} (h : b.IsIn t) (stoppedAt? : Option Nat) :
    ScanResult.IsIn t { unclosed := [b.giveUp stoppedAt?] } :=
  ⟨List.forall_mem_nil _, List.forall_mem_singleton.mpr h.opening⟩

private theorem OpenBlock.IsIn.close {b : OpenBlock} (h : b.IsIn t) (l : SourceLine) (before : Text)
    {last : List InteriorLine} (hlast : ∀ l ∈ last, l.IsIn t) :
    ∀ m ∈ (b.close l before last).lines, m.IsIn t :=
  List.forall_mem_append.mpr ⟨fun m hm => h.interior m (List.mem_reverse.mp hm), hlast⟩

section Line

variable {l : SourceLine} (hl : l ∈ SourceLine.ofText t)

include hl

private theorem isIn_firstInterior {start : Nat} {inner : Text}
    (h : StandsAt l.text (start + 1) inner) :
    ∀ m ∈ firstInterior l.number start inner, m.IsIn t := by
  intro m hm
  unfold firstInterior at hm
  split at hm
  · cases hm
  · rw [List.mem_singleton.mp hm]
    apply SourceLine.holdsAt hl
    have := h.trimStart.of_isPrefixOf (trimEnd_isPrefixOf _)
    rwa [Nat.add_right_comm] at this

private theorem isIn_interiorOf {before : Text} (h : before <+: l.text) :
    (interiorOf l.number before).IsIn t :=
  SourceLine.holdsAt hl ((standsAt_interiorOf l.number before).of_line h)

private theorem isIn_lastInterior {before : Text} (h : before <+: l.text) :
    ∀ m ∈ lastInterior l.number before, m.IsIn t := by
  intro m hm
  unfold lastInterior at hm
  split at hm
  · cases hm
  · rw [List.mem_singleton.mp hm]
    exact isIn_interiorOf hl h

namespace ScanState

/-- A block that opens on a line stands there. -/
theorem isIn_openDoc {after : Text} (h : trimStart l.text = openMark ++ after) :
    (openDoc l after).1.IsIn t ∧ (openDoc l after).2.IsIn t := by
  have hmark : StandsAt l.text (Text.indent l.text + 1) (openMark ++ after) := by
    have := (StandsAt.self l.text).trimStart
    rwa [h, Nat.add_comm] at this
  have hafter : StandsAt l.text (Text.indent l.text + width openMark + 1) after := by
    have := hmark.behind
    rwa [Nat.add_right_comm] at this
  have hopening : HoldsAt t l.number (Text.indent l.text + 1) openMark :=
    SourceLine.holdsAt hl (hmark.of_isPrefixOf (List.prefix_append _ _))
  unfold openDoc
  dsimp only
  split
  · next inner rest hcut =>
    have hinner : inner <+: after := ⟨closeMark ++ rest, (append_of_cut? hcut).symm⟩
    refine ⟨trivial, ScanResult.isIn_block ?_⟩
    refine OpenBlock.IsIn.close ⟨hopening, List.forall_mem_nil _⟩ _ _ ?_
    exact isIn_firstInterior hl (hafter.of_isPrefixOf hinner)
  · refine ⟨⟨hopening, fun m hm => ?_⟩, ScanResult.isIn_empty⟩
    exact isIn_firstInterior hl hafter m (List.mem_reverse.mp hm)

private theorem isIn_codeLine : (codeLine l).1.IsIn t ∧ (codeLine l).2.IsIn t := by
  generalize h : codeLine l = effect
  cases Outside.of_eq h with
  | doc htext _ => exact isIn_openDoc hl htext
  | _ => exact ⟨trivial, ScanResult.isIn_empty⟩

/-- One line keeps what is being read in the text, and finds what stands there. -/
theorem isIn_step (stops : List Nat) {state : ScanState} (h : state.IsIn t) :
    (step stops state l).1.IsIn t ∧ (step stops state l).2.IsIn t := by
  unfold step
  split
  · exact isIn_codeLine hl
  · refine ⟨?_, ScanResult.isIn_empty⟩
    split <;> trivial
  · next block =>
    split
    · obtain ⟨hstate, hfound⟩ := isIn_codeLine hl
      exact ⟨hstate, (h.giveUp _).append hfound⟩
    · split
      · next before rest hcut =>
        have hbefore : before <+: l.text := ⟨closeMark ++ rest, (append_of_cut? hcut).symm⟩
        exact ⟨trivial, ScanResult.isIn_block (h.close _ _ (isIn_lastInterior hl hbefore))⟩
      · refine ⟨⟨h.opening, List.forall_mem_cons.mpr ⟨?_, h.interior⟩⟩, ScanResult.isIn_empty⟩
        exact isIn_interiorOf hl (List.prefix_refl _)

end ScanState

end Line

namespace ScanState

private theorem isIn_run (stops : List Nat) {state : ScanState} (h : state.IsIn t)
    {ls : List SourceLine}
    (hls : ∀ l ∈ ls, l ∈ SourceLine.ofText t) : (run stops state ls).IsIn t := by
  induction ls generalizing state with
  | nil =>
    cases state with
    | doc block => exact OpenBlock.IsIn.giveUp h none
    | _ => exact ScanResult.isIn_empty
  | cons l ls ih =>
    obtain ⟨hl, hrest⟩ := List.forall_mem_cons.mp hls
    obtain ⟨hstate, hfound⟩ := isIn_step hl stops h
    exact hfound.append (ih hstate hrest)

end ScanState

/-- What a scan finds stands in the text. -/
theorem isIn_scanBlocks (stops : List Nat) (t : Text) : (scanBlocks stops t).IsIn t :=
  have hcode : ScanState.code.IsIn t := trivial
  ScanState.isIn_run stops hcode fun _ h => h

/-! ### What is read -/

/-- The parts of an interior line that stands in the text stand there too. -/
theorem InteriorLine.IsIn.shows {l : InteriorLine} (h : l.IsIn t) : l.Shows (HoldsAt t) := by
  intro column part hp
  obtain ⟨i, line, hnumber, hline, hstands⟩ := h
  exact ⟨i, line, hnumber, hline, hstands.trans hp⟩

/-- The interior lines of blocks, what is read from them and the openings that are never closed
stand in the text where their places say. -/
theorem scanBlocks_marked (s : Settings) (stops : List Nat) (t : Text) :
    (∀ b ∈ (scanBlocks stops t).blocks,
        (∀ l ∈ b.lines, HoldsAt t l.line l.column l.text) ∧ (parseBlock s b).Marked (HoldsAt t))
      ∧ ∀ u ∈ (scanBlocks stops t).unclosed, HoldsAt t u.line u.column openMark := by
  obtain ⟨hblocks, hunclosed⟩ := isIn_scanBlocks stops t
  refine ⟨fun b hb => ⟨hblocks b hb, ?_⟩, hunclosed⟩
  obtain ⟨hbrief, htags, herrors, hwarnings⟩ :=
    marked_parseLines s fun l hl => (hblocks b hb l hl).shows
  exact ⟨hbrief, htags, herrors, hwarnings⟩

end DocContract
