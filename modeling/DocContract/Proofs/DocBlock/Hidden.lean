import DocContract.Proofs.DocBlock.CommentLines

/-!
# Doc blocks inside plain comments

The scan reads a file line by line and looks for comments at the beginning of a line only. It skips
a plain comment that opens its line. It does not see one that opens behind code, and takes what
begins with the opening delimiter of a doc block on a later line of that comment for a doc block.
-/

namespace DocContract

open Text

/-! ### The scan inside a comment -/

/-- Of some lines, does the first one inside the comment that begins with a comment delimiter open a
doc block? -/
def hidesDocOn (c : PlacedPiece) (ls : List SourceLine) : Bool :=
  ((ls.filter fun l => decide (c.Encloses l.offset)).find?
    fun l => opensComment (trimStart l.text)).any fun l => opensDoc (trimStart l.text)

private theorem hidesDocOn_eq_false {c : PlacedPiece} {ls : List SourceLine}
    (h : ∀ m ∈ ls, ¬ c.Encloses m.offset) : hidesDocOn c ls = false := by
  have hnone : ls.filter (fun l => decide (c.Encloses l.offset)) = [] :=
    List.filter_eq_nil_iff.mpr fun m hm => by simpa using h m hm
  rw [hidesDocOn, hnone]
  rfl

private theorem exists_of_hidesDocOn {c : PlacedPiece} {ls : List SourceLine}
    (h : hidesDocOn c ls = true) : ∃ m ∈ ls, c.Encloses m.offset := by
  by_contra hnone
  rw [hidesDocOn_eq_false fun m hm hinside => hnone ⟨m, hm, hinside⟩] at h
  cases h

private theorem hidesDocOn_of_ended {c : PlacedPiece} {ls : List SourceLine}
    (h : ∀ m ∈ ls, c.stop ≤ m.offset) : hidesDocOn c ls = false :=
  hidesDocOn_eq_false fun m hm hinside => absurd hinside.2 (Nat.not_lt.mpr (h m hm))

section HidesDoc

variable {c : PlacedPiece} {l : SourceLine} {ls : List SourceLine}

private theorem hidesDocOn_cons_of_plain (h : opensComment (trimStart l.text) = false) :
    hidesDocOn c (l :: ls) = hidesDocOn c ls := by
  unfold hidesDocOn
  rw [List.filter_cons]
  split
  · rw [List.find?_cons_of_neg (by rw [h]; exact Bool.false_ne_true)]
  · rfl

private theorem hidesDocOn_cons_of_comment (h : opensComment (trimStart l.text) = true)
    (hbelow : ∀ m ∈ ls, l.offset ≤ m.offset) (hstarts : c.offset < l.offset) :
    hidesDocOn c (l :: ls) = (decide (c.Encloses l.offset) && opensDoc (trimStart l.text)) := by
  by_cases hencloses : c.Encloses l.offset
  · unfold hidesDocOn
    rw [List.filter_cons, if_pos (decide_eq_true hencloses), decide_eq_true hencloses]
    simp only [List.find?_cons, h, Option.any_some, Bool.true_and]
  · have hstop : c.stop ≤ l.offset := Nat.not_lt.mp fun hlt => hencloses ⟨hstarts, hlt⟩
    rw [decide_eq_false hencloses]
    refine hidesDocOn_eq_false (List.forall_mem_cons.mpr ⟨hencloses, fun m hm hinside => ?_⟩)
    exact absurd hinside.2 (Nat.not_lt.mpr (hstop.trans (hbelow m hm)))

end HidesDoc

namespace ScanState

variable {stops : List Nat} {t seen : Text} {c : PlacedPiece} {ls : List SourceLine}

private theorem not_opens_of_stop_le {state : ScanState}
    (h : ∀ m ∈ openings stops state ls, c.stop ≤ m.offset) :
    ¬ ∃ m ∈ openings stops state ls, c.Encloses (m.offset + Text.indent m.text) := by
  rintro ⟨m, hm, hinside⟩
  have hstop := h m hm
  have hlt := hinside.2
  omega

/-- Nothing opens inside a comment on the lines below it. -/
theorem not_opens_of_ended (state : ScanState) (h : ∀ m ∈ ls, c.stop ≤ m.offset) :
    ¬ ∃ m ∈ openings stops state ls, c.Encloses (m.offset + Text.indent m.text) :=
  not_opens_of_stop_le fun m hm => h m ((openings_sublist _ _ _).subset hm)

/-- Nothing opens in a comment that the scan skips. -/
theorem stop_le_of_mem_openings (h : c.RunsInto t seen) (hls : LinesFollow t seen ls)
    {m : SourceLine} (hm : m ∈ openings stops .comment ls) : c.stop ≤ m.offset := by
  induction ls generalizing seen with
  | nil => cases hm
  | cons l ls ih =>
    have hlater := (mem_openings_cons.mp hm).resolve_left fun hhere => by cases hhere.2
    rcases h.passes hls with ⟨hopen, seen', hnext, h'⟩ | hends
    · have hstep : (step stops .comment l).1 = .comment := by
        rw [step, cut?_eq_none_iff.mpr hopen]
        rfl
      rw [hstep] at hlater
      exact ih h' hnext hlater
    · exact hends m ((openings_sublist _ _ _).subset hlater)

/-- In a comment that the scan reads as code a doc block opens if the comment hides one. -/
theorem exists_openings_iff (h : c.RunsInto t seen) (hls : LinesFollow t seen ls) :
    (∃ m ∈ openings stops .code ls, c.Encloses (m.offset + Text.indent m.text))
      ↔ hidesDocOn c ls = true := by
  induction ls generalizing seen with
  | nil => simp [openings, hidesDocOn]
  | cons l ls ih =>
    have hstarts : c.offset < l.offset := hls.offset_eq ▸ h.starts
    have hbelow : ∀ m ∈ ls, l.offset ≤ m.offset := fun m hm =>
      (Nat.le_add_right _ _).trans (hls.lt_offset hm).le
    cases hdoc : opensDoc (trimStart l.text) with
    | true =>
      have hcomment := opensComment_of_opensDoc hdoc
      have hlt := h.indent_lt_stop hls hcomment
      have hinside : c.Encloses l.offset := ⟨hstarts, by omega⟩
      rw [hidesDocOn_cons_of_comment hcomment hbelow hstarts, decide_eq_true hinside, hdoc]
      refine iff_of_true ⟨l, mem_openings_cons.mpr (.inl ⟨rfl, hdoc⟩), ?_, hlt⟩ rfl
      omega
    | false =>
      have hlater : ∀ m, m ∈ openings stops .code (l :: ls)
          ↔ m ∈ openings stops (codeLine l).1 ls := fun m =>
        mem_openings_cons_of_not_opensDoc hdoc
      simp only [hlater]
      have hcode := readsCode_codeLine l
      generalize codeLine l = effect at hcode
      cases hcode with
      | plain hplain =>
        rw [hidesDocOn_cons_of_plain hplain]
        rcases h.passes hls with ⟨-, seen', hnext, h'⟩ | hends
        · exact ih h' hnext
        · rw [hidesDocOn_of_ended hends]
          exact iff_of_false (not_opens_of_ended _ hends) Bool.false_ne_true
      | closed htext _ hclose =>
        have hcomment := startsWith_iff.mpr ⟨_, htext.symm⟩
        rw [hidesDocOn_cons_of_comment hcomment hbelow hstarts, hdoc, Bool.and_false]
        refine iff_of_false ?_ Bool.false_ne_true
        rcases h.passes hls with ⟨hopen, -⟩ | hends
        · rw [contains_of_trimStart htext hclose] at hopen
          cases hopen
        · exact not_opens_of_ended _ hends
      | comment htext =>
        have hcomment := startsWith_iff.mpr ⟨_, htext.symm⟩
        rw [hidesDocOn_cons_of_comment hcomment hbelow hstarts, hdoc, Bool.and_false]
        refine iff_of_false ?_ Bool.false_ne_true
        rcases h.passes hls with ⟨-, seen', hnext, h'⟩ | hends
        · exact not_opens_of_stop_le fun m hm => stop_le_of_mem_openings h' hnext hm
        · exact not_opens_of_ended _ hends
      | block hopens =>
        rw [hdoc] at hopens
        cases hopens
      | doc _ hopens =>
        rw [hdoc] at hopens
        cases hopens

end ScanState

/-! ### Where the scan is in front of a line -/

/-- What holds of the scan in front of the first line, and is kept by each line, holds of it in
front of any line. -/
theorem LinesFollow.advance_induction {t seen : Text} {above below : List SourceLine}
    {l : SourceLine} {stops : List Nat} {p : ScanState → Text → Prop}
    (hstep : ∀ {state seen back rest l ls}, l ∈ above → LinesFollow t seen (l :: ls) →
      l.Follows t seen back ('\n' :: rest) → p state seen →
      p (ScanState.step stops state l).1 (seen ++ (l.text ++ (back ++ ['\n']))))
    {state : ScanState} (h : LinesFollow t seen (above ++ l :: below)) (hp : p state seen) :
    ∃ seen', LinesFollow t seen' (l :: below) ∧ p (ScanState.advance stops state above) seen' := by
  induction above generalizing state seen with
  | nil => exact ⟨seen, h, hp⟩
  | cons m above ih =>
    rw [List.cons_append] at h
    generalize hls : above ++ l :: below = ls at h
    have hhere := h
    cases h with
    | last h => simp at hls
    | more h hbelow =>
      subst hls
      exact ih (fun hl => hstep (List.mem_cons_of_mem _ hl)) hbelow
        (hstep List.mem_cons_self hhere h hp)

namespace ScanState

variable {stops : List Nat} {state : ScanState} {l : SourceLine}

private theorem advance_concat (above : List SourceLine) : advance stops state (above ++ [l])
    = (step stops (advance stops state above) l).1 := by
  induction above generalizing state with
  | nil => rfl
  | cons m above ih => exact ih

private theorem step_of_reads (h : reads stops state l = true) :
    (step stops state l).1 = (codeLine l).1 := by
  cases state with
  | code => rfl
  | comment => cases h
  | doc block => rw [step_doc_of_mem (List.contains_iff_mem.mp h)]

/-- A line that is not read as code belongs to the comment if it does not close it. -/
theorem open_of_not_reads (h : reads stops state l = false)
    (hnext : (step stops state l).1 ≠ .code) : contains l.text closeMark = false
      ∧ state ≠ .code ∧ ((step stops state l).1 = .comment ↔ state = .comment) := by
  cases state with
  | code => cases h
  | comment =>
    unfold step at hnext ⊢
    dsimp only at hnext ⊢
    split at hnext
    · exact absurd rfl hnext
    · next hcut =>
      rw [isSome_cut?] at hcut
      have hopen := Bool.eq_false_iff.mpr hcut
      rw [isSome_cut?, hopen]
      exact ⟨rfl, nofun, iff_of_true rfl rfl⟩
  | doc block =>
    have hstop : l.number ∉ stops := fun hm => by
      rw [reads, List.contains_iff_mem.mpr hm] at h
      cases h
    rw [step_doc_of_not_mem hstop] at hnext ⊢
    split at hnext
    · exact absurd rfl hnext
    · next hcut => exact ⟨cut?_eq_none_iff.mp hcut, nofun, iff_of_false nofun nofun⟩

/-- A line of the code that leads into a comment begins with it. -/
theorem open_of_codeLine (h : (codeLine l).1 ≠ .code) :
    ∃ after, trimStart l.text = "/*".toList ++ after ∧ contains after closeMark = false
      ∧ ((codeLine l).1 = .comment ↔ opensDoc (trimStart l.text) = false) := by
  have hcode := readsCode_codeLine l
  generalize codeLine l = effect at hcode h
  cases hcode with
  | plain | closed | block => exact absurd rfl h
  | comment htext hdoc hopen => exact ⟨_, htext, hopen, iff_of_true rfl hdoc⟩
  | doc htext hdoc hopen =>
    refine ⟨_, htext, hopen, iff_of_false nofun ?_⟩
    rw [hdoc]
    exact nofun

/-- A line of the code that begins with a plain comment, and does not close it, leads into it. -/
theorem codeLine_of_comment {after : Text} (htext : trimStart l.text = "/*".toList ++ after)
    (hdoc : opensDoc (trimStart l.text) = false) (hopen : contains after closeMark = false) :
    (codeLine l).1 = .comment := by
  have hcode := readsCode_codeLine l
  generalize codeLine l = effect at hcode
  cases hcode with
  | plain hnone =>
    rw [opensComment, startsWith_iff.mpr ⟨after, htext.symm⟩] at hnone
    cases hnone
  | closed htext' _ hclose =>
    obtain rfl := List.append_cancel_left (htext.symm.trans htext')
    rw [hopen] at hclose
    cases hclose
  | comment => rfl
  | block hopens | doc _ hopens =>
    rw [hdoc] at hopens
    cases hopens

variable {t seen back rest : Text} (hquotes : ∀ c ∈ t, isQuote c = false)
  (hl : l.Follows t seen back ('\n' :: rest))

include hquotes hl

/-- Where the scan is inside a comment behind a line, a comment runs over the end of the line. It
has run into the line, or begins it and is of the kind that the scan is in. -/
theorem exists_runsInto_step (hnext : (step stops state l).1 ≠ .code)
    (hstate : reads stops state l = false → ∃ d : PlacedPiece, d.RunsInto t seen)
    (hslash : ∀ (d : PlacedPiece) after, d.RunsInto t seen →
      (step stops state l).1 = (codeLine l).1 →
      trimStart l.text = "/*".toList ++ after → startsWith after ['/'] = false) :
    ∃ d : PlacedPiece, d.RunsInto t (seen ++ (l.text ++ (back ++ ['\n'])))
      ∧ (d.offset < width seen ∨ d.offset = l.offset + Text.indent l.text
        ∧ ((step stops state l).1 = .comment ↔ opensDoc d.piece.text = false)) := by
  cases hreads : reads stops state l with
  | false =>
    obtain ⟨hopen, -⟩ := open_of_not_reads hreads hnext
    obtain ⟨d, hd⟩ := hstate hreads
    exact ⟨d, hd.goesOn_line hl hopen, .inl hd.starts⟩
  | true =>
    have hstep := step_of_reads hreads
    rw [hstep] at hnext ⊢
    obtain ⟨after, htext, hopen, hkind⟩ := open_of_codeLine hnext
    rcases atBoundary_or_runsInto hquotes hl.text hl.lines with hboundary | ⟨d, hd⟩
    · obtain ⟨d, hd, hoffset, hdoc⟩ := hl.exists_runsInto hboundary htext hopen
      exact ⟨d, hd, .inr ⟨hoffset, by rw [hdoc]; exact hkind⟩⟩
    · have hclose := contains_closeMark_of_open htext hopen (hslash d after hd hstep htext)
      exact ⟨d, hd.goesOn_line hl hclose, .inl hd.starts⟩

/-- Where the scan reads a doc block, a comment runs into the line. -/
theorem exists_runsInto_of_doc (hstate : ∀ b, state = .doc b → ∃ d : PlacedPiece, d.RunsInto t seen)
    {b : OpenBlock} (hnext : (step stops state l).1 = .doc b) :
    ∃ d : PlacedPiece, d.RunsInto t (seen ++ (l.text ++ (back ++ ['\n'])))
      ∧ (d.offset < width seen ∨ opensDoc d.piece.text = true) := by
  have hne : (step stops state l).1 ≠ .code := by rw [hnext]; exact nofun
  have hcomment : (step stops state l).1 ≠ .comment := by rw [hnext]; exact nofun
  have hread : reads stops state l = false → ∃ d : PlacedPiece, d.RunsInto t seen := by
    intro hreads
    obtain ⟨-, hcode, hiff⟩ := open_of_not_reads hreads hne
    cases state with
    | code => exact absurd rfl hcode
    | comment => exact absurd (hiff.mpr rfl) hcomment
    | doc block => exact hstate block rfl
  have hslash : ∀ (d : PlacedPiece) after, d.RunsInto t seen →
      (step stops state l).1 = (codeLine l).1 →
      trimStart l.text = "/*".toList ++ after → startsWith after ['/'] = false := by
    intro d after _ hstep htext
    rw [hstep] at hne hcomment
    obtain ⟨-, -, -, hkind⟩ := open_of_codeLine hne
    have hdoc := Bool.of_not_eq_false fun h => hcomment (hkind.mpr h)
    rw [htext] at hdoc
    obtain ⟨w, rfl, -⟩ := opensDoc_openComment.mp hdoc
    rfl
  obtain ⟨d, hd, hplace⟩ := exists_runsInto_step hquotes hl hne hread hslash
  refine ⟨d, hd, hplace.imp_right fun hhere => ?_⟩
  exact Bool.of_not_eq_false fun h => hcomment (hhere.2.mpr h)

end ScanState

/-! ### Plain comments -/

/-- The comments of a text that are no doc blocks. -/
def plainComments (t : Text) : List PlacedPiece :=
  (blockComments t).filter fun c => !opensDoc c.piece.text

/-- The lines of a text down to the one on which the comment opens. -/
def linesTo (t : Text) (c : PlacedPiece) : List SourceLine :=
  (SourceLine.ofText t).filter fun l => decide (l.offset ≤ c.offset)

/-- The scan is in a plain comment behind the line on which the comment opens. -/
def IsSkipped (stops : List Nat) (t : Text) (c : PlacedPiece) : Prop :=
  ScanState.advance stops .code (linesTo t c) = .comment

/-- Does the comment hide a doc block? -/
def hidesDoc (t : Text) (c : PlacedPiece) : Bool := hidesDocOn c (SourceLine.ofText t)

/-- Do only blanks stand in front of the comment on its line? -/
def beginsLine (t : Text) (c : PlacedPiece) : Bool :=
  (linesTo t c).getLast?.any fun l => l.offset + Text.indent l.text == c.offset

/-- On no line inside a comment the delimiter that closes it follows a slash at the beginning of the
line. There the slash and the star look like a delimiter that opens a comment. -/
def StarsApart (t : Text) : Prop :=
  ∀ c ∈ blockComments t, ∀ l ∈ SourceLine.ofText t, c.Encloses l.offset →
    startsWith (trimStart l.text) "/*/" = false

section Comment

variable {t : Text} {c : PlacedPiece}

private theorem exists_linesTo (t : Text) (c : PlacedPiece) : ∃ above l below,
    SourceLine.ofText t = above ++ l :: below ∧ linesTo t c = above ++ [l]
      ∧ (∀ m ∈ above ++ [l], m.offset ≤ c.offset) ∧ ∀ m ∈ below, c.offset < m.offset := by
  obtain ⟨above, l, below, hlines, habove, hbelow⟩ :=
    (linesFollow_ofText t).exists_line (Nat.zero_le c.offset)
  refine ⟨above, l, below, hlines, ?_, habove, hbelow⟩
  have hsplit : SourceLine.ofText t = (above ++ [l]) ++ below := by simp [hlines]
  rw [linesTo, hsplit, List.filter_append,
    List.filter_eq_self.mpr fun m hm => decide_eq_true (habove m hm),
    List.filter_eq_nil_iff.mpr fun m hm => by simpa using hbelow m hm, List.append_nil]

/-- What begins a line that does not start inside a comment does not stand inside it. -/
theorem not_encloses_indent (hc : c ∈ blockComments t) {m : SourceLine}
    (hm : m ∈ SourceLine.ofText t) (hle : m.offset ≤ c.offset) :
    ¬ c.Encloses (m.offset + Text.indent m.text) := by
  obtain ⟨seen, back, rest, hl⟩ := (linesFollow_ofText t).exists_follows hm
  obtain ⟨front, r, ht, hoffset, -⟩ := exists_of_mem_blockComments hc
  rw [hl.offset, hoffset] at hle
  obtain ⟨x, rfl, hx⟩ := exists_append_of_width_le (hl.text.symm.trans ht) hle
  have hslash : '/' ∉ leadingBlanks m.text := fun hmem =>
    absurd (isBlank_of_mem_leadingBlanks hmem) (by decide)
  have hlead : leadingBlanks m.text ++ (trimStart m.text ++ (back ++ rest))
      = x ++ '/' :: '*' :: r := by
    rw [← List.append_assoc, leadingBlanks_append_trimStart, hx]
    rfl
  have hindent : Text.indent m.text ≤ width x := width_le_of_not_mem hslash hlead
  intro hinside
  have hlt := hinside.1
  rw [hl.offset, hoffset, width_append] at hlt
  omega

private theorem hidesDocOn_append {above below : List SourceLine}
    (h : ∀ m ∈ above, m.offset ≤ c.offset) :
    hidesDocOn c (above ++ below) = hidesDocOn c below := by
  have hnone : above.filter (fun l => decide (c.Encloses l.offset)) = [] :=
    List.filter_eq_nil_iff.mpr fun m hm => by
      simpa using fun hinside : c.Encloses m.offset => Nat.not_lt.mpr (h m hm) hinside.1
  rw [hidesDocOn, List.filter_append, hnone]
  rfl

/-- What the scan opens inside a comment, it opens on a line below the one on which that begins. -/
theorem exists_opensAt_iff_openings {stops : List Nat} {above below : List SourceLine}
    (hc : c ∈ blockComments t) (hlines : SourceLine.ofText t = above ++ below)
    (habove : ∀ m ∈ above, m.offset ≤ c.offset) :
    (∃ offset, (scanBlocks stops t).OpensAt t offset ∧ c.Encloses offset)
      ↔ ∃ m ∈ ScanState.openings stops (ScanState.advance stops .code above) below,
          c.Encloses (m.offset + Text.indent m.text) := by
  simp only [opensAt_scanBlocks]
  constructor
  · rintro ⟨offset, ⟨m, hm, rfl⟩, hinside⟩
    rw [hlines] at hm
    rcases ScanState.mem_openings_append.mp hm with hm | hm
    · have hm := (ScanState.openings_sublist _ _ _).subset hm
      have hmem : m ∈ SourceLine.ofText t := hlines ▸ List.mem_append_left _ hm
      exact absurd hinside (not_encloses_indent hc hmem (habove m hm))
    · exact ⟨m, hm, hinside⟩
  · rintro ⟨m, hm, hinside⟩
    rw [hlines]
    exact ⟨_, ⟨m, ScanState.mem_openings_append.mpr (.inr hm), rfl⟩, hinside⟩

end Comment

/-- In front of each line where the scan reads a doc block, a comment runs into the line. -/
theorem exists_seen_of_doc (stops : List Nat) {t : Text} (hquotes : ∀ ch ∈ t, isQuote ch = false)
    {above below : List SourceLine} {l : SourceLine}
    (hlines : SourceLine.ofText t = above ++ l :: below) :
    ∃ seen, LinesFollow t seen (l :: below) ∧ ∀ b, ScanState.advance stops .code above = .doc b →
      ∃ d : PlacedPiece, d.RunsInto t seen := by
  have hfollow := linesFollow_ofText t
  rw [hlines] at hfollow
  refine hfollow.advance_induction (p := fun state seen =>
    ∀ b, state = .doc b → ∃ d : PlacedPiece, d.RunsInto t seen) ?_ nofun
  intro state seen back rest m ls _ _ hm hstate b hnext
  obtain ⟨d, hd, -⟩ := ScanState.exists_runsInto_of_doc hquotes hm hstate hnext
  exact ⟨d, hd⟩

section Plain

variable {stops : List Nat} {t : Text} {c : PlacedPiece} (hquotes : ∀ ch ∈ t, isQuote ch = false)
  (hc : c ∈ plainComments t)

include hquotes hc

private theorem exists_opensAt_iff :
    (∃ offset, (scanBlocks stops t).OpensAt t offset ∧ c.Encloses offset)
      ↔ hidesDoc t c = true ∧ ¬ IsSkipped stops t c := by
  obtain ⟨hblock, hplain⟩ := List.mem_filter.mp hc
  obtain ⟨above, l, below, hlines, hto, habove, hbelow⟩ := exists_linesTo t c
  have hsplit : SourceLine.ofText t = (above ++ [l]) ++ below := by simp [hlines]
  obtain ⟨seen, hfollow, hdoc⟩ := exists_seen_of_doc stops hquotes hlines
  have hle := habove l (List.mem_append_right _ List.mem_cons_self)
  rw [exists_opensAt_iff_openings hblock hsplit habove, hidesDoc, hsplit,
    hidesDocOn_append habove, IsSkipped, hto, ScanState.advance_concat]
  generalize ScanState.advance stops .code above = state at hdoc
  have hnone : (∀ m ∈ below, c.stop ≤ m.offset) →
      ((∃ m ∈ ScanState.openings stops (ScanState.step stops state l).1 below,
          c.Encloses (m.offset + Text.indent m.text))
        ↔ hidesDocOn c below = true ∧ ¬ (ScanState.step stops state l).1 = .comment) := by
    intro hends
    rw [hidesDocOn_of_ended hends]
    exact iff_of_false (ScanState.not_opens_of_ended _ hends) fun h => Bool.false_ne_true h.1
  cases hfollow with
  | last hl => exact hnone (List.forall_mem_nil _)
  | more hl hnext =>
    obtain ⟨m, hm, hfirst⟩ := hnext.exists_first
    rcases hl.closes_or_runsInto hblock hle (hfirst ▸ hbelow m hm) with hended | ⟨hruns, -⟩
    · exact hnone fun n hn => hended.trans (hnext.le_offset hn)
    · cases hstate : (ScanState.step stops state l).1 with
      | code =>
        rw [ScanState.exists_openings_iff hruns hnext]
        exact (and_iff_left nofun).symm
      | comment =>
        refine iff_of_false ?_ fun h => h.2 rfl
        exact ScanState.not_opens_of_stop_le fun n hn =>
          ScanState.stop_le_of_mem_openings hruns hnext hn
      | doc b =>
        -- The comment would be a doc block, or one that runs into its own line.
        obtain ⟨d, hd, hplace⟩ := ScanState.exists_runsInto_of_doc hquotes hl hdoc hstate
        obtain rfl := hd.unique hruns
        rcases hplace with hlt | hd
        · rw [hl.offset] at hle
          omega
        · rw [hd] at hplain
          cases hplain

end Plain

/-! ### Comments that open their line -/

section Apart

variable {stops : List Nat} {t : Text} {c : PlacedPiece} (hquotes : ∀ ch ∈ t, isQuote ch = false)
  (hapart : StarsApart t)

include hquotes hapart

/-- Where delimiters do not share a star, a comment runs into each line that the scan does not reach
as code. -/
theorem exists_runsInto_of_ne_code {seen back rest : Text} {state : ScanState} {l : SourceLine}
    {ls : List SourceLine} (hmem : l ∈ SourceLine.ofText t) (hfollow : LinesFollow t seen (l :: ls))
    (hl : l.Follows t seen back ('\n' :: rest))
    (hstate : state ≠ .code → ∃ d : PlacedPiece, d.RunsInto t seen)
    (hnext : (ScanState.step stops state l).1 ≠ .code) :
    ∃ d : PlacedPiece, d.RunsInto t (seen ++ (l.text ++ (back ++ ['\n'])))
      ∧ (d.offset < width seen ∨ d.offset = l.offset + Text.indent l.text) := by
  have hread : ScanState.reads stops state l = false → ∃ d : PlacedPiece, d.RunsInto t seen :=
    fun hreads => hstate (ScanState.open_of_not_reads hreads hnext).2.1
  have hslash : ∀ (d : PlacedPiece) after, d.RunsInto t seen →
      (ScanState.step stops state l).1 = (ScanState.codeLine l).1 →
      trimStart l.text = "/*".toList ++ after → startsWith after ['/'] = false := by
    intro d after hd _ htext
    have hcomment : opensComment (trimStart l.text) = true :=
      startsWith_iff.mpr ⟨after, htext.symm⟩
    have hlt := hd.indent_lt_stop hfollow hcomment
    have hinside : d.Encloses l.offset := ⟨hl.offset ▸ hd.starts, by omega⟩
    have hnone := hapart d hd.mem l hmem hinside
    rw [Bool.eq_false_iff, ne_eq, startsWith_iff] at hnone ⊢
    rintro ⟨r, rfl⟩
    exact hnone ⟨r, htext.symm⟩
  obtain ⟨d, hd, hplace⟩ := ScanState.exists_runsInto_step hquotes hl hnext hread hslash
  exact ⟨d, hd, hplace.imp_right And.left⟩

private theorem exists_seen_of_apart (stops : List Nat) {above below : List SourceLine}
    {l : SourceLine}
    (hlines : SourceLine.ofText t = above ++ l :: below) :
    ∃ seen, LinesFollow t seen (l :: below) ∧ (ScanState.advance stops .code above ≠ .code →
      ∃ d : PlacedPiece, d.RunsInto t seen) := by
  have hfollow := linesFollow_ofText t
  have hmem : ∀ m ∈ above, m ∈ SourceLine.ofText t := by
    rw [hlines]
    exact fun m hm => List.mem_append_left _ hm
  rw [hlines] at hfollow
  refine hfollow.advance_induction (p := fun state seen =>
    state ≠ .code → ∃ d : PlacedPiece, d.RunsInto t seen) ?_ fun h => absurd rfl h
  intro state seen back rest m ls hm hfollow hl hstate hnext
  obtain ⟨d, hd, -⟩ := exists_runsInto_of_ne_code hquotes hapart (hmem m hm) hfollow hl hstate hnext
  exact ⟨d, hd⟩

/-- A comment that hides a doc block is skipped if it opens its line. -/
theorem isSkipped_iff (hc : c ∈ plainComments t) (hhides : hidesDoc t c = true) :
    IsSkipped stops t c ↔ beginsLine t c = true := by
  obtain ⟨hblock, hplain⟩ := List.mem_filter.mp hc
  obtain ⟨above, l, below, hlines, hto, habove, hbelow⟩ := exists_linesTo t c
  have hsplit : SourceLine.ofText t = (above ++ [l]) ++ below := by simp [hlines]
  obtain ⟨seen, hfollow, hstate⟩ := exists_seen_of_apart hquotes hapart stops hlines
  have hle := habove l (List.mem_append_right _ List.mem_cons_self)
  have hlmem : l ∈ SourceLine.ofText t := by
    rw [hlines]
    exact List.mem_append_right _ List.mem_cons_self
  rw [hidesDoc, hsplit, hidesDocOn_append habove] at hhides
  rw [IsSkipped, beginsLine, hto, ScanState.advance_concat, List.getLast?_concat, Option.any_some,
    beq_iff_eq]
  obtain ⟨n, hn, hinside⟩ := exists_of_hidesDocOn hhides
  have hfollow' := hfollow
  cases hfollow with
  | last hl => cases hn
  | more hl hnext =>
    obtain ⟨m, hm, hfirst⟩ := hnext.exists_first
    rcases hl.closes_or_runsInto hblock hle (hfirst ▸ hbelow m hm) with
      hended | ⟨hruns, x, u, y, hline, hx, htext, hopen⟩
    · exact absurd hinside.2 (Nat.not_lt.mpr (hended.trans (hnext.le_offset hn)))
    · constructor
      · intro hskip
        have hne : (ScanState.step stops (ScanState.advance stops .code above) l).1 ≠ .code := by
          rw [hskip]
          exact nofun
        obtain ⟨d, hd, hplace⟩ :=
          exists_runsInto_of_ne_code hquotes hapart hlmem hfollow' hl hstate hne
        obtain rfl := hd.unique hruns
        rcases hplace with hlt | hoffset
        · rw [hl.offset] at hle
          omega
        · exact hoffset.symm
      · intro hoffset
        have hcode : ScanState.advance stops .code above = .code := by
          by_contra hne
          obtain ⟨d, hd⟩ := hstate hne
          exact hd.offset_ne hl hruns hoffset.symm
        obtain ⟨after, htrim, rfl⟩ := hl.exists_trimStart hline (by omega)
        have hafter : contains after closeMark = false :=
          contains_of_isInfix hopen (List.prefix_append after _).isInfix
        have hdoc : opensDoc (trimStart l.text) = false := by
          rw [htrim, ← opensDoc_of_open hafter hl.back, ← htext]
          simpa using hplain
        rw [hcode]
        exact ScanState.codeLine_of_comment htrim hdoc hafter

end Apart

/-! ### What the scan finds -/

/-- Nothing that is found, and nothing that is not closed, opens inside a plain comment. -/
def ScanResult.IsOutside (r : ScanResult) (t : Text) : Prop :=
  ∀ offset, r.OpensAt t offset → ∀ c ∈ plainComments t, ¬ c.Encloses offset

/-- In a text without quotes the scan finds nothing inside plain comments if it skips those that
hide a doc block. Where delimiters do not share a star, it skips those that open their line. -/
theorem scanBlocks_isOutside_iff (stops : List Nat) {t : Text}
    (hquotes : ∀ ch ∈ t, isQuote ch = false) :
    ((scanBlocks stops t).IsOutside t
        ↔ ∀ c ∈ plainComments t, hidesDoc t c = true → IsSkipped stops t c)
      ∧ (StarsApart t → ((scanBlocks stops t).IsOutside t
          ↔ ∀ c ∈ plainComments t, hidesDoc t c = true → beginsLine t c = true)) := by
  have hskips : (scanBlocks stops t).IsOutside t
      ↔ ∀ c ∈ plainComments t, hidesDoc t c = true → IsSkipped stops t c := by
    constructor
    · intro houtside c hc hhides
      by_contra hskip
      obtain ⟨offset, hopens, hinside⟩ := (exists_opensAt_iff hquotes hc).mpr ⟨hhides, hskip⟩
      exact houtside offset hopens c hc hinside
    · intro hskips offset hopens c hc hinside
      obtain ⟨hhides, hskip⟩ := (exists_opensAt_iff hquotes hc).mp ⟨offset, hopens, hinside⟩
      exact hskip (hskips c hc hhides)
  refine ⟨hskips, fun hapart => hskips.trans ?_⟩
  exact forall₂_congr fun c hc => forall_congr' fun hhides => isSkipped_iff hquotes hapart hc hhides

/-- A comment that opens its line and has what looks like a doc block in it. -/
def skippedExample : Text := "/* x\n/** A. */"

/-- In the example a plain comment holds the mark of a block, and every block that is found stands
outside of it. -/
theorem scanBlocks_skippedExample : (∀ ch ∈ skippedExample, isQuote ch = false)
    ∧ StarsApart skippedExample
    ∧ (∃ c ∈ plainComments skippedExample, hidesDoc skippedExample c = true)
    ∧ (scanBlocks [] skippedExample).IsOutside skippedExample := by
  have hquotes : ∀ ch ∈ skippedExample, isQuote ch = false :=
    forall_mem_of_all (by decide)
  have hapart : StarsApart skippedExample := by
    unfold StarsApart
    decide +kernel
  have hopens : ∀ c ∈ plainComments skippedExample, hidesDoc skippedExample c = true →
      beginsLine skippedExample c = true := by
    decide +kernel
  exact ⟨hquotes, hapart, by decide +kernel,
    ((scanBlocks_isOutside_iff [] hquotes).2 hapart).mpr hopens⟩

/-- A comment behind code with what looks like a doc block in it. -/
def hiddenExample : Text := "f() /* x\n/** A. */"

/-- The scan finds the block, which opens inside the plain comment. -/
theorem scanBlocks_hiddenExample : (∀ ch ∈ hiddenExample, isQuote ch = false)
    ∧ plainComments hiddenExample = [⟨4, .blockComment, "/* x\n/** A. */"⟩]
    ∧ (scanBlocks [] hiddenExample).blocks = [⟨2, 2, 9, 18, [⟨2, 5, "A."⟩]⟩]
    ∧ ¬ (scanBlocks [] hiddenExample).IsOutside hiddenExample := by
  have hblocks : (scanBlocks [] hiddenExample).blocks = [⟨2, 2, 9, 18, [⟨2, 5, "A."⟩]⟩] := rfl
  have hplain : plainComments hiddenExample = [⟨4, .blockComment, "/* x\n/** A. */"⟩] := by
    decide +kernel
  refine ⟨forall_mem_of_all (by decide), hplain, hblocks, fun houtside => ?_⟩
  have hopens : (scanBlocks [] hiddenExample).OpensAt hiddenExample 9 :=
    .inl ⟨_, by rw [hblocks]; exact List.mem_singleton_self _, rfl⟩
  refine houtside 9 hopens ⟨4, .blockComment, "/* x\n/** A. */"⟩ ?_ (by decide)
  rw [hplain]
  exact List.mem_singleton_self _

end DocContract
