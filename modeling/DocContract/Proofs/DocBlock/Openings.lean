import DocContract.Proofs.DocBlock.OwnLine

/-!
# The lines on which doc blocks open

A doc block opens on a line that the scan reads as code and that begins with the opening delimiter,
blanks apart. Each such line is reported once the scan is done, as the start of a block or as an
opening that is not closed, and nothing else is.
-/

namespace DocContract

open Text

/-- Does the text begin with the opening delimiter of a doc block? -/
def opensDoc (t : Text) : Bool := (after? openMark t).any fun r => !startsWith r ['/']

/-- Does the text begin with the delimiter that opens a comment? -/
def opensComment (t : Text) : Bool := startsWith t "/*"

/-- A documentation comment is opened by its mark, unless a slash follows. -/
theorem opensDoc_iff {t : Text} :
    opensDoc t = true ↔ ∃ after, t = openMark ++ after ∧ startsWith after ['/'] = false := by
  simp only [opensDoc, Option.any_eq_true, after?_eq_some_iff, Bool.not_eq_true']

/-- A documentation comment is a comment. -/
theorem opensComment_of_opensDoc {t : Text} (h : opensDoc t = true) : opensComment t = true := by
  obtain ⟨after, rfl, -⟩ := opensDoc_iff.mp h
  exact startsWith_iff.mpr ⟨'*' :: after, rfl⟩

/-! ### One line -/

/-- The block opens on the line. -/
structure OpenBlock.OpensOn (b : OpenBlock) (l : SourceLine) : Prop where
  line : b.line = l.number
  indent : b.indent = Text.indent l.text
  spanStart : b.spanStart = l.offset + Text.indent l.text

/-- What a line of the code does: it opens no comment, or one that it closes, or one that goes on,
or a doc block that it closes, or one that goes on. -/
inductive ScanState.ReadsCode (l : SourceLine) : ScanState × ScanResult → Prop
  | plain (hnone : opensComment (trimStart l.text) = false) : ReadsCode l (.code, {})
  | closed {after : Text} (htext : trimStart l.text = "/*".toList ++ after)
      (hdoc : opensDoc (trimStart l.text) = false) (hclose : contains after closeMark = true) :
      ReadsCode l (.code, {})
  | comment {after : Text} (htext : trimStart l.text = "/*".toList ++ after)
      (hdoc : opensDoc (trimStart l.text) = false) (hopen : contains after closeMark = false) :
      ReadsCode l (.comment, {})
  | block {b : DocBlock} (hdoc : opensDoc (trimStart l.text) = true)
      (hb : b.spanStart = l.offset + Text.indent l.text) : ReadsCode l (.code, { blocks := [b] })
  | doc {after : Text} {b : OpenBlock} (htext : trimStart l.text = "/*".toList ++ after)
      (hdoc : opensDoc (trimStart l.text) = true) (hopen : contains after closeMark = false)
      (hb : b.OpensOn l) : ReadsCode l (.doc b, {})

namespace ScanState

private theorem readsCode_openDoc {l : SourceLine} {after : Text}
    (htext : trimStart l.text = openMark ++ after) (hdoc : startsWith after ['/'] = false) :
    ReadsCode l (openDoc l after) := by
  have hopens : opensDoc (trimStart l.text) = true := opensDoc_iff.mpr ⟨after, htext, hdoc⟩
  unfold openDoc
  dsimp only
  split
  · exact .block hopens rfl
  · next hcut =>
    have hopen : contains ('*' :: after) closeMark = false :=
      contains_closeMark_cons.mpr ⟨fun h => Bool.eq_false_iff.mp hdoc (startsWith_iff.mpr h.2),
        cut?_eq_none_iff.mp hcut⟩
    exact .doc htext hopens hopen ⟨rfl, rfl, rfl⟩

/-- A line of code is read in one of the ways of `ReadsCode`. -/
theorem readsCode_codeLine (l : SourceLine) : ReadsCode l (codeLine l) := by
  generalize h : codeLine l = effect
  have hnone (hdoc : after? openMark (trimStart l.text) = none) :
      opensDoc (trimStart l.text) = false := by
    rw [opensDoc, hdoc]
    rfl
  cases Outside.of_eq h with
  | plain hplain => exact .plain hplain
  | @whole after htext hslash =>
    have hdoc : opensDoc (trimStart l.text) = false := by
      rw [opensDoc, after?_eq_some_iff.mpr htext, Option.any_some, hslash]
      rfl
    obtain ⟨rest, rfl⟩ := startsWith_iff.mp hslash
    have hwhole : trimStart l.text = "/*".toList ++ '*' :: '/' :: rest := htext
    exact .closed hwhole hdoc rfl
  | doc htext hslash => exact readsCode_openDoc htext hslash
  | closed hdoc htext hclose => exact .closed htext (hnone hdoc) hclose
  | comment hdoc htext hopen => exact .comment htext (hnone hdoc) hopen

/-- Does the scan read the line as code? -/
def reads (stops : List Nat) (state : ScanState) (l : SourceLine) : Bool :=
  match state with
  | .code => true
  | .comment => false
  | .doc _ => stops.contains l.number

/-- The lines on which doc blocks open. -/
def openings (stops : List Nat) (state : ScanState) : List SourceLine → List SourceLine
  | [] => []
  | l :: ls =>
    let next := openings stops (step stops state l).1 ls
    if reads stops state l && opensDoc (trimStart l.text) then l :: next else next

/-- Blocks are opened in the order of the lines. -/
theorem openings_sublist (stops : List Nat) (state : ScanState) (ls : List SourceLine) :
    (openings stops state ls).Sublist ls := by
  induction ls generalizing state with
  | nil => exact .slnil
  | cons l ls ih =>
    unfold openings
    dsimp only
    split
    · exact (ih _).cons_cons l
    · exact (ih _).cons l

/-- A line opens a block when it is read as code and begins with the mark, and else a later one
does. -/
theorem mem_openings_cons {stops : List Nat} {state : ScanState} {l m : SourceLine}
    {ls : List SourceLine} : m ∈ openings stops state (l :: ls)
      ↔ (m = l ∧ (reads stops state l && opensDoc (trimStart l.text)) = true)
        ∨ m ∈ openings stops (step stops state l).1 ls := by
  rw [openings]
  split
  · next h => simp [h]
  · next h => simp [h]

/-- A line on which no doc block opens does not add to the openings. -/
theorem mem_openings_cons_of_not_opensDoc {stops : List Nat} {state : ScanState} {l m : SourceLine}
    {ls : List SourceLine} (h : opensDoc (trimStart l.text) = false) :
    m ∈ openings stops state (l :: ls) ↔ m ∈ openings stops (step stops state l).1 ls := by
  rw [mem_openings_cons, h, Bool.and_false]
  exact or_iff_right fun hopens => Bool.false_ne_true hopens.2

/-- The openings of joined lines are those of the first ones and those from there on. -/
theorem mem_openings_append {stops : List Nat} {state : ScanState} {m : SourceLine}
    {above below : List SourceLine} : m ∈ openings stops state (above ++ below)
      ↔ m ∈ openings stops state above
        ∨ m ∈ openings stops (advance stops state above) below := by
  induction above generalizing state with
  | nil => exact ⟨.inr, fun h => h.resolve_left List.not_mem_nil⟩
  | cons l above ih =>
    rw [List.cons_append, mem_openings_cons, mem_openings_cons, ih, or_assoc]
    rfl

end ScanState

/-! ### What is reported -/

/-- The line is reported as one on which a doc block opens. -/
def ScanResult.Reports (r : ScanResult) (l : SourceLine) : Prop :=
  (∃ b ∈ r.blocks, b.spanStart = l.offset + Text.indent l.text)
    ∨ ∃ x ∈ r.unclosed, x.line = l.number ∧ x.column = Text.indent l.text + 1

/-- All that is reported opens on one of the lines. -/
structure ScanResult.OpensAmong (r : ScanResult) (p : SourceLine → Prop) : Prop where
  blocks : ∀ b ∈ r.blocks, ∃ l, p l ∧ b.spanStart = l.offset + Text.indent l.text
  unclosed : ∀ x ∈ r.unclosed, ∃ l, p l ∧ x.line = l.number ∧ x.column = Text.indent l.text + 1

namespace ScanResult

variable {p : SourceLine → Prop} {r r' : ScanResult} {l : SourceLine}

private theorem Reports.append_left (h : r.Reports l) (r' : ScanResult) : (r ++ r').Reports l := by
  rcases h with ⟨b, hb, hplace⟩ | ⟨x, hx, hplace⟩
  · exact .inl ⟨b, List.mem_append_left _ hb, hplace⟩
  · exact .inr ⟨x, List.mem_append_left _ hx, hplace⟩

private theorem Reports.append_right (h : r'.Reports l) (r : ScanResult) : (r ++ r').Reports l := by
  rcases h with ⟨b, hb, hplace⟩ | ⟨x, hx, hplace⟩
  · exact .inl ⟨b, List.mem_append_right _ hb, hplace⟩
  · exact .inr ⟨x, List.mem_append_right _ hx, hplace⟩

private theorem opensAmong_empty : OpensAmong {} p := ⟨List.forall_mem_nil _, List.forall_mem_nil _⟩

private theorem OpensAmong.append (h : r.OpensAmong p) (h' : r'.OpensAmong p) :
    (r ++ r').OpensAmong p :=
  ⟨List.forall_mem_append.mpr ⟨h.blocks, h'.blocks⟩,
    List.forall_mem_append.mpr ⟨h.unclosed, h'.unclosed⟩⟩

private theorem opensAmong_block {b : DocBlock} (hl : p l)
    (hb : b.spanStart = l.offset + Text.indent l.text) : OpensAmong { blocks := [b] } p :=
  ⟨List.forall_mem_singleton.mpr ⟨l, hl, hb⟩, List.forall_mem_nil _⟩

end ScanResult

namespace OpenBlock.OpensOn

variable {b : OpenBlock} {l : SourceLine} (h : b.OpensOn l)

include h

private theorem reports_giveUp (stoppedAt? : Option Nat) :
    ScanResult.Reports { unclosed := [b.giveUp stoppedAt?] } l :=
  .inr ⟨_, List.mem_singleton_self _, h.line, by rw [OpenBlock.giveUp, h.indent]⟩

private theorem opensAmong_giveUp {p : SourceLine → Prop} (hl : p l) (stoppedAt? : Option Nat) :
    ScanResult.OpensAmong { unclosed := [b.giveUp stoppedAt?] } p :=
  ⟨List.forall_mem_nil _, List.forall_mem_singleton.mpr
    ⟨l, hl, h.line, by rw [OpenBlock.giveUp, h.indent]⟩⟩

end OpenBlock.OpensOn

namespace ScanState

/-- The block that is being read opened on the line. -/
def Holds (state : ScanState) (l : SourceLine) : Prop := ∃ b, state = .doc b ∧ b.OpensOn l

/-- The block that is being read, if there is one, opened on one of the lines. -/
def OpensAmong (state : ScanState) (p : SourceLine → Prop) : Prop :=
  ∀ b, state = .doc b → ∃ l, p l ∧ b.OpensOn l

section Line

variable {stops : List Nat} {state : ScanState} {l m : SourceLine} {p : SourceLine → Prop}

private theorem reports_codeLine (h : opensDoc (trimStart l.text) = true) :
    (codeLine l).2.Reports l ∨ (codeLine l).1.Holds l := by
  have hcode := readsCode_codeLine l
  generalize codeLine l = effect at hcode
  cases hcode with
  | plain hnone =>
    rw [opensComment_of_opensDoc h] at hnone
    cases hnone
  | closed _ hdoc =>
    rw [h] at hdoc
    cases hdoc
  | comment _ hdoc =>
    rw [h] at hdoc
    cases hdoc
  | block _ hb => exact .inl (.inl ⟨_, List.mem_singleton_self _, hb⟩)
  | doc _ _ _ hb => exact .inr ⟨_, rfl, hb⟩

private theorem opensAmong_codeLine (h : opensDoc (trimStart l.text) = true → p l) :
    (codeLine l).2.OpensAmong p ∧ (codeLine l).1.OpensAmong p := by
  have hcode := readsCode_codeLine l
  generalize codeLine l = effect at hcode
  cases hcode with
  | plain | closed | comment => exact ⟨ScanResult.opensAmong_empty, nofun⟩
  | block hdoc hb => exact ⟨ScanResult.opensAmong_block (h hdoc) hb, nofun⟩
  | doc _ hdoc _ hb =>
    refine ⟨ScanResult.opensAmong_empty, fun b heq => ?_⟩
    cases heq
    exact ⟨l, h hdoc, hb⟩

/-- A line on which a doc block opens, or is being read from, is reported or still read from. -/
theorem reports_step (h : m = l ∧ (reads stops state l && opensDoc (trimStart l.text)) = true
      ∨ state.Holds m) :
    (step stops state l).2.Reports m ∨ (step stops state l).1.Holds m := by
  rcases h with ⟨rfl, h⟩ | ⟨b, rfl, hb⟩
  · obtain ⟨hreads, hdoc⟩ := Bool.and_eq_true_iff.mp h
    have hcode := reports_codeLine hdoc
    cases state with
    | code => exact hcode
    | comment => cases hreads
    | doc block =>
      rw [step_doc_of_mem (List.contains_iff_mem.mp hreads)]
      exact hcode.imp_left fun h => h.append_right _
  · by_cases hstop : l.number ∈ stops
    · rw [step_doc_of_mem hstop]
      exact .inl ((hb.reports_giveUp _).append_left _)
    · rw [step_doc_of_not_mem hstop]
      split
      · exact .inl (.inl ⟨_, List.mem_singleton_self _, hb.spanStart⟩)
      · exact .inr ⟨_, rfl, hb.line, hb.indent, hb.spanStart⟩

/-- What is reported on a line, and what is being read behind it, opens on the line or above. -/
theorem opensAmong_step (hstate : state.OpensAmong p)
    (hl : (reads stops state l && opensDoc (trimStart l.text)) = true → p l) :
    (step stops state l).2.OpensAmong p ∧ (step stops state l).1.OpensAmong p := by
  cases state with
  | code => exact opensAmong_codeLine fun hdoc => hl (by rw [hdoc]; rfl)
  | comment =>
    refine ⟨ScanResult.opensAmong_empty, ?_⟩
    unfold step
    dsimp only
    split <;> exact nofun
  | doc block =>
    obtain ⟨m, hm, hb⟩ := hstate block rfl
    by_cases hstop : l.number ∈ stops
    · rw [step_doc_of_mem hstop]
      have hreads : reads stops (.doc block) l = true := List.contains_iff_mem.mpr hstop
      obtain ⟨hfound, hnext⟩ := opensAmong_codeLine fun hdoc => hl (by rw [hreads, hdoc]; rfl)
      exact ⟨(hb.opensAmong_giveUp hm _).append hfound, hnext⟩
    · rw [step_doc_of_not_mem hstop]
      split
      · exact ⟨ScanResult.opensAmong_block hm hb.spanStart, nofun⟩
      · refine ⟨ScanResult.opensAmong_empty, fun b heq => ?_⟩
        cases heq
        exact ⟨m, hm, hb.line, hb.indent, hb.spanStart⟩

end Line

variable {stops : List Nat} {state : ScanState} {ls : List SourceLine}

private theorem reports_run {l : SourceLine} (h : l ∈ openings stops state ls ∨ state.Holds l) :
    (run stops state ls).Reports l := by
  induction ls generalizing state with
  | nil =>
    rcases h with h | ⟨b, rfl, hb⟩
    · cases h
    · exact hb.reports_giveUp none
  | cons m ls ih =>
    rw [mem_openings_cons, or_right_comm] at h
    rcases h with h | hlater
    · rcases reports_step h with hfound | hnext
      · exact hfound.append_left _
      · exact (ih (.inr hnext)).append_right _
    · exact (ih (.inl hlater)).append_right _

private theorem opensAmong_run {p : SourceLine → Prop} (hstate : state.OpensAmong p)
    (hls : ∀ l ∈ openings stops state ls, p l) : (run stops state ls).OpensAmong p := by
  induction ls generalizing state with
  | nil =>
    cases state with
    | doc block =>
      obtain ⟨l, hl, hb⟩ := hstate block rfl
      exact hb.opensAmong_giveUp hl none
    | _ => exact ScanResult.opensAmong_empty
  | cons m ls ih =>
    have hhere : (reads stops state m && opensDoc (trimStart m.text)) = true → p m :=
      fun h => hls m (mem_openings_cons.mpr (.inl ⟨rfl, h⟩))
    obtain ⟨hfound, hnext⟩ := opensAmong_step hstate hhere
    exact hfound.append (ih hnext fun l hl => hls l (mem_openings_cons.mpr (.inr hl)))

end ScanState

/-- At the offset a block is reported, or an opening that is not closed. -/
def ScanResult.OpensAt (r : ScanResult) (t : Text) (offset : Nat) : Prop :=
  (∃ b ∈ r.blocks, b.spanStart = offset)
    ∨ ∃ x ∈ r.unclosed, ∃ l ∈ SourceLine.ofText t, l.number = x.line
        ∧ offset + 1 = l.offset + x.column

/-- Of two lines with one number, one is the other. -/
theorem SourceLine.eq_of_number {t : Text} {l m : SourceLine} (hl : l ∈ ofText t)
    (hm : m ∈ ofText t) (h : l.number = m.number) : l = m := by
  rcases eq_or_of_pairwise (ascending_ofText t) hl hm with rfl | hlt | hlt
  · rfl
  · exact absurd h hlt.ne
  · exact absurd h hlt.ne'

/-- Doc blocks are reported where they open, and nowhere else. -/
theorem opensAt_scanBlocks (stops : List Nat) (t : Text) (offset : Nat) :
    (scanBlocks stops t).OpensAt t offset
      ↔ ∃ l ∈ ScanState.openings stops .code (SourceLine.ofText t),
          l.offset + Text.indent l.text = offset := by
  have hsub := (ScanState.openings_sublist stops .code (SourceLine.ofText t)).subset
  constructor
  · have hcode : ScanState.OpensAmong .code
        (· ∈ ScanState.openings stops .code (SourceLine.ofText t)) := nofun
    have hamong := ScanState.opensAmong_run hcode fun l hl => hl
    rintro (⟨b, hb, rfl⟩ | ⟨x, hx, m, hm, hnumber, hoffset⟩)
    · obtain ⟨l, hl, hplace⟩ := hamong.blocks b hb
      exact ⟨l, hl, hplace.symm⟩
    · obtain ⟨l, hl, hline, hcolumn⟩ := hamong.unclosed x hx
      obtain rfl := SourceLine.eq_of_number hm (hsub hl) (hnumber.trans hline)
      exact ⟨m, hl, by omega⟩
  · rintro ⟨l, hl, rfl⟩
    rcases ScanState.reports_run (.inl hl) with ⟨b, hb, hplace⟩ | ⟨x, hx, hline, hcolumn⟩
    · exact .inl ⟨b, hb, hplace⟩
    · exact .inr ⟨x, hx, l, hsub hl, hline.symm, by omega⟩

end DocContract
