import DocContract.Proofs.DocBlock.Comments
import DocContract.Proofs.DocBlock.Openings
import DocContract.Text.Utf8

/-!
# Comments and the lines that they reach

A line stands in a text behind all the lines above it. A block comment that has begun above ends on
the line if a closing delimiter stands there, and runs over its end otherwise; one that opens on the
line does so behind the blanks at its beginning, or behind code. What begins a line, blanks apart,
stands in front of the end of a comment that runs into it.
-/

namespace DocContract

open Text

/-! ### Lines behind what has been seen -/

/-- The line stands in the text behind what has been seen, with what ends the line and the rest of
the text behind it. -/
structure SourceLine.Follows (l : SourceLine) (t seen back rest : Text) : Prop where
  text : t = seen ++ (l.text ++ (back ++ rest))
  offset : l.offset = width seen
  lines : IsLines seen
  back : back = [] ∨ back = ['\r']

/-- The lines are all the lines of the text behind what has been seen. -/
inductive LinesFollow (t : Text) : Text → List SourceLine → Prop
  | last {seen back : Text} {l : SourceLine} (h : l.Follows t seen back []) : LinesFollow t seen [l]
  | more {seen back rest : Text} {l : SourceLine} {ls : List SourceLine}
      (h : l.Follows t seen back ('\n' :: rest))
      (hbelow : LinesFollow t (seen ++ (l.text ++ (back ++ ['\n']))) ls) :
      LinesFollow t seen (l :: ls)

private theorem linesFollow_numbered {t seen : Text} {pieces : List Text} (hseen : IsLines seen)
    (hpieces : ∀ p ∈ pieces, '\n' ∉ p) (hne : pieces ≠ [])
    (ht : t = seen ++ join ['\n'] pieces) :
    LinesFollow t seen (SourceLine.numbered (seen.count '\n' + 1) (width seen) pieces) := by
  induction pieces generalizing seen with
  | nil => exact absurd rfl hne
  | cons p r ih =>
    obtain ⟨hp, hr⟩ := List.forall_mem_cons.mp hpieces
    obtain ⟨back, hback, hends⟩ := exists_dropReturn p
    rw [ScanState.numbered_behind hp]
    by_cases hnil : r = []
    · subst hnil
      refine .last ⟨?_, rfl, hseen, hends⟩
      rw [ht, List.append_nil]
      exact congrArg (seen ++ ·) hback
    · have htext : t = seen ++ (p ++ ['\n']) ++ join ['\n'] r := by
        rw [ht, join_cons hnil]
        simp only [List.append_assoc]
      have hlines : IsLines (seen ++ (p ++ ['\n'])) := by
        rw [← List.append_assoc]
        exact isLines_append_newline _
      have hline : p ++ ['\n'] = (lineBehind seen p).text ++ (back ++ ['\n']) := by
        rw [← List.append_assoc]
        exact congrArg (· ++ ['\n']) hback
      have hbelow := ih hlines hr hnil htext
      have hfollows : (lineBehind seen p).Follows t seen back ('\n' :: join ['\n'] r) := by
        refine ⟨?_, rfl, hseen, hends⟩
        rw [htext, hline]
        simp only [List.append_assoc, List.singleton_append]
      exact .more hfollows (hline ▸ hbelow)

/-- The lines of a text follow each other from its start. -/
theorem linesFollow_ofText (t : Text) : LinesFollow t [] (SourceLine.ofText t) :=
  linesFollow_numbered (.inl rfl) (fun _ hp => not_mem_of_mem_splitOn hp) (rawLines_ne_nil t)
    (join_rawLines t).symm

namespace SourceLine.Follows

variable {l : SourceLine} {t seen back rest : Text} (h : l.Follows t seen back rest)

include h

private theorem slash_not_mem_back : '/' ∉ back := by
  rcases h.back with rfl | rfl <;> decide

/-- What ends a line completes no delimiter. -/
theorem contains_append_back (hopen : contains l.text closeMark = false) :
    contains (l.text ++ back) closeMark = false :=
  contains_closeMark_append_of_not_mem hopen h.slash_not_mem_back

end SourceLine.Follows

namespace LinesFollow

variable {t seen : Text} {ls above below : List SourceLine} {l m : SourceLine}

/-- The lines that follow start behind what has been seen. -/
theorem le_offset (h : LinesFollow t seen ls) (hm : m ∈ ls) : width seen ≤ m.offset := by
  induction h with
  | last h => rw [List.mem_singleton.mp hm, h.offset]
  | more h hbelow ih =>
    rcases List.mem_cons.mp hm with rfl | hm
    · rw [h.offset]
    · have hle := ih hm
      rw [width_append] at hle
      omega

/-- A line ends in front of the next one. -/
theorem lt_offset (h : LinesFollow t seen (l :: ls)) (hm : m ∈ ls) :
    l.offset + width l.text < m.offset := by
  cases h with
  | last h => cases hm
  | more h hbelow =>
    have hle := hbelow.le_offset hm
    have hnewline : width ['\n'] = 1 := rfl
    rw [width_append, width_append, width_append, hnewline] at hle
    rw [h.offset]
    omega

/-- A line stands behind the bytes of what is in front of it. -/
theorem offset_eq (h : LinesFollow t seen (l :: ls)) : l.offset = width seen := by
  cases h with
  | last h => exact h.offset
  | more h _ => exact h.offset

/-- Lines that follow a text begin where it ends. -/
theorem exists_first (h : LinesFollow t seen ls) : ∃ m ∈ ls, m.offset = width seen := by
  cases h with
  | last h => exact ⟨_, List.mem_cons_self, h.offset⟩
  | more h _ => exact ⟨_, List.mem_cons_self, h.offset⟩

/-- Each of the lines has a part of the text in front of it and a rest behind it. -/
theorem exists_follows (h : LinesFollow t seen ls) (hm : m ∈ ls) :
    ∃ seen back rest, m.Follows t seen back rest := by
  induction h with
  | last h =>
    obtain rfl := List.mem_singleton.mp hm
    exact ⟨_, _, _, h⟩
  | more h _ ih =>
    rcases List.mem_cons.mp hm with rfl | hm
    · exact ⟨_, _, _, h⟩
    · exact ih hm

/-- The line on which an offset stands. -/
theorem exists_line (h : LinesFollow t seen ls) {offset : Nat} (hle : width seen ≤ offset) :
    ∃ above l below, ls = above ++ l :: below ∧ (∀ m ∈ above ++ [l], m.offset ≤ offset)
      ∧ ∀ m ∈ below, offset < m.offset := by
  induction h with
  | @last seen back l h =>
    refine ⟨[], l, [], rfl, List.forall_mem_singleton.mpr ?_, List.forall_mem_nil _⟩
    rwa [h.offset]
  | @more seen back rest l ls h hbelow ih =>
    have hl : l.offset ≤ offset := by rwa [h.offset]
    by_cases hnext : width (seen ++ (l.text ++ (back ++ ['\n']))) ≤ offset
    · obtain ⟨above, m, below, rfl, habove, hlater⟩ := ih hnext
      exact ⟨l :: above, m, below, rfl, List.forall_mem_cons.mpr ⟨hl, habove⟩, hlater⟩
    · refine ⟨[], l, ls, rfl, List.forall_mem_singleton.mpr hl, fun m hm => ?_⟩
      exact (Nat.not_le.mp hnext).trans_le (hbelow.le_offset hm)

end LinesFollow

/-! ### A comment and the lines inside it -/

/-- A closing delimiter behind the opening one is in the line. -/
theorem contains_of_trimStart {line mark after : Text} (h : trimStart line = mark ++ after)
    (hclose : contains after closeMark = true) : contains line closeMark = true := by
  obtain ⟨before, rest, rfl⟩ := contains_iff.mp hclose
  have hline := leadingBlanks_append_trimStart line
  rw [h] at hline
  refine contains_iff.mpr ⟨leadingBlanks line ++ mark ++ before, rest, hline.symm.trans ?_⟩
  simp only [List.append_assoc]

/-- What stands in front of a character that is not among the first ones is at least as wide. -/
theorem width_le_of_not_mem {lead rest x r : Text} {c : Char} (hc : c ∉ lead)
    (h : lead ++ rest = x ++ c :: r) : width lead ≤ width x := by
  rcases List.append_eq_append_iff.mp h with ⟨y, rfl, -⟩ | ⟨y, rfl, hy⟩
  · rw [width_append]
    exact Nat.le_add_right _ _
  · cases y with
    | nil => rw [List.append_nil]
    | cons d y =>
      obtain ⟨rfl, -⟩ := List.cons.inj hy
      exact absurd (List.mem_append_right _ List.mem_cons_self) hc

namespace PlacedPiece.RunsInto

variable {c : PlacedPiece} {t seen back rest : Text} {l : SourceLine} {ls : List SourceLine}
  (h : c.RunsInto t seen)

include h

/-- A comment that a line without a closer leaves open runs into the next line. -/
theorem goesOn_line (hl : l.Follows t seen back ('\n' :: rest))
    (hopen : contains l.text closeMark = false) :
    c.RunsInto t (seen ++ (l.text ++ (back ++ ['\n']))) := by
  have ht : t = seen ++ ((l.text ++ back) ++ '\n' :: rest) := by rw [hl.text, List.append_assoc]
  have hnext := h.goesOn ht (hl.contains_append_back hopen)
  rwa [List.append_assoc] at hnext

/-- The comment ends on the line, or runs over its end. -/
theorem passes (hls : LinesFollow t seen (l :: ls)) :
    (contains l.text closeMark = false ∧ ∃ seen', LinesFollow t seen' ls ∧ c.RunsInto t seen')
      ∨ ∀ m ∈ ls, c.stop ≤ m.offset := by
  cases hclose : contains l.text closeMark with
  | true =>
    refine .inr fun m hm => ?_
    have hbelow := hls.lt_offset hm
    have hstop : c.stop ≤ l.offset + width l.text := by
      cases hls with
      | last hl => exact hl.offset ▸ h.stop_le hl.text hclose
      | more hl _ => exact hl.offset ▸ h.stop_le hl.text hclose
    omega
  | false =>
    cases hls with
    | last hl => exact .inr (List.forall_mem_nil _)
    | more hl hbelow => exact .inl ⟨rfl, _, hbelow, h.goesOn_line hl hclose⟩

/-- A delimiter that begins the line, blanks apart, stands in front of the end of the comment. -/
theorem indent_lt_stop (hls : LinesFollow t seen (l :: ls))
    (hcomment : opensComment (trimStart l.text) = true) :
    l.offset + Text.indent l.text < c.stop := by
  obtain ⟨after, hafter⟩ := startsWith_iff.mp hcomment
  have hline := leadingBlanks_append_trimStart l.text
  have hwidth : Text.indent l.text + 2 ≤ width l.text := by
    conv => rhs; rw [← hline, ← hafter]
    rw [width_append, width_append]
    have hmark : width "/*".toList = 2 := rfl
    rw [hmark, Text.indent]
    omega
  cases hclose : contains l.text closeMark with
  | true =>
    -- The comment ends on the line, and no part of the delimiter that closes it is a blank.
    have hstar : '*' ∉ leadingBlanks l.text := fun hm =>
      absurd (isBlank_of_mem_leadingBlanks hm) (by decide)
    have hends : ∃ body rest, l.text = body ++ (closeMark ++ rest)
        ∧ c.stop = l.offset + (width body + 2) := by
      cases hls with
      | last hl => exact hl.offset ▸ h.ends hl.text hclose
      | more hl _ => exact hl.offset ▸ h.ends hl.text hclose
    obtain ⟨body, rest, htext, hstop⟩ := hends
    have hbody : Text.indent l.text ≤ width body :=
      width_le_of_not_mem hstar (hline.trans htext)
    omega
  | false =>
    cases hls with
    | last hl =>
      have hopen := hl.contains_append_back hclose
      have hstop := h.remains _ hl.text
      rw [List.append_nil, cutComment_of_not_contains hopen, width_append] at hstop
      rw [hl.offset]
      omega
    | more hl hbelow =>
      have hle := (h.goesOn_line hl hclose).le_stop
      rw [width_append, width_append] at hle
      rw [hl.offset]
      omega

end PlacedPiece.RunsInto

/-! ### The line on which a comment opens -/

/-- A block comment begins with its delimiter, and is cut off the text behind that. -/
theorem exists_of_mem_blockComments {t : Text} {c : PlacedPiece} (h : c ∈ blockComments t) :
    ∃ front r, t = front ++ ("/*".toList ++ r) ∧ c.offset = width front
      ∧ c.piece.text = "/*".toList ++ (cutComment r).1 := by
  obtain ⟨hmem, hblock⟩ := List.mem_filter.mp h
  obtain ⟨before, after, hpieces, hoffset⟩ := mem_placedFrom.mp hmem
  obtain ⟨r, hr, htext, -⟩ := cut_of_pieces (pieces_suffix hpieces).symm (beq_iff_eq.mp hblock)
  refine ⟨Piece.joined before, r, ?_, by rw [hoffset, Nat.zero_add], htext⟩
  rw [← hr, ← joined_append, ← hpieces, joined_pieces]

/-- A text in front of another one, by their widths. -/
theorem exists_append_of_width_le {seen u front v : Text} (h : seen ++ u = front ++ v)
    (hle : width seen ≤ width front) : ∃ x, front = seen ++ x ∧ u = x ++ v := by
  rcases List.append_eq_append_iff.mp h with ⟨x, hfront, hu⟩ | ⟨x, rfl, hv⟩
  · exact ⟨x, hfront, hu⟩
  · obtain rfl := eq_nil_of_width_eq_zero (t := x) (by rw [width_append] at hle; omega)
    exact ⟨[], by simp, hv.symm⟩

/-- A comment that begins with one star more is a documentation comment, unless it is closed at
once. -/
theorem opensDoc_openComment {v : Text} :
    opensDoc ("/*".toList ++ v) = true ↔ ∃ w, v = '*' :: w ∧ startsWith w ['/'] = false := by
  rw [opensDoc_iff]
  constructor
  · rintro ⟨w, heq, hw⟩
    have hsplit : "/*".toList ++ v = "/*".toList ++ '*' :: w := heq
    exact ⟨w, List.append_cancel_left hsplit, hw⟩
  · rintro ⟨w, rfl, hw⟩
    exact ⟨w, rfl, hw⟩

/-- What begins a comment that goes on over the end of its line is on the line. -/
theorem opensDoc_of_open {after back y : Text} (hopen : contains after closeMark = false)
    (hback : back = [] ∨ back = ['\r']) :
    opensDoc ("/*".toList ++ (after ++ back ++ '\n' :: y)) = opensDoc ("/*".toList ++ after) := by
  -- No line end begins with a character of a delimiter.
  have hends : ∃ e r, back ++ '\n' :: y = e :: r ∧ e ≠ '*' ∧ e ≠ '/' := by
    rcases hback with rfl | rfl
    · exact ⟨'\n', y, rfl, by decide, by decide⟩
    · exact ⟨'\r', '\n' :: y, rfl, by decide, by decide⟩
  obtain ⟨e, r, hrest, hstar, hslash⟩ := hends
  rw [Bool.eq_iff_iff, opensDoc_openComment, opensDoc_openComment, List.append_assoc, hrest]
  cases after with
  | nil =>
    refine iff_of_false ?_ nofun
    rintro ⟨w, heq, -⟩
    exact hstar (List.cons.inj heq).1
  | cons c after =>
    constructor
    · rintro ⟨w, heq, -⟩
      obtain ⟨rfl, -⟩ := List.cons.inj heq
      refine ⟨after, rfl, Bool.eq_false_iff.mpr fun h => ?_⟩
      exact (contains_closeMark_cons.mp hopen).1 ⟨rfl, startsWith_iff.mp h⟩
    · rintro ⟨w, heq, hw⟩
      obtain ⟨rfl, rfl⟩ := List.cons.inj heq
      refine ⟨after ++ e :: r, rfl, ?_⟩
      cases after with
      | nil =>
        rw [Bool.eq_false_iff, ne_eq, startsWith_iff]
        exact fun h => hslash (List.cons_prefix_cons.mp h).1.symm
      | cons d after =>
        rw [Bool.eq_false_iff, ne_eq, startsWith_iff]
        intro h
        obtain rfl := (List.cons_prefix_cons.mp h).1
        exact (contains_closeMark_cons.mp hopen).1
          ⟨rfl, List.cons_prefix_cons.mpr ⟨rfl, List.nil_prefix⟩⟩

/-- A line that begins with a comment, which is not closed on it, has no closing delimiter, unless
the opening one is part of it. -/
theorem contains_closeMark_of_open {line after : Text}
    (htext : trimStart line = "/*".toList ++ after) (hopen : contains after closeMark = false)
    (hslash : startsWith after ['/'] = false) :
    contains line closeMark = false := by
  have hmark : contains ("/*".toList ++ after) closeMark = false := by
    refine contains_closeMark_cons.mpr ⟨(by cases ·.1), contains_closeMark_cons.mpr ?_⟩
    exact ⟨fun h => Bool.eq_false_iff.mp hslash (startsWith_iff.mpr h.2), hopen⟩
  have hlead : ∀ c ∈ leadingBlanks line, isBlank c = true := fun c => isBlank_of_mem_leadingBlanks
  rw [← leadingBlanks_append_trimStart line, htext]
  generalize leadingBlanks line = lead at hlead
  induction lead with
  | nil => exact hmark
  | cons c lead ih =>
    obtain ⟨hc, hrest⟩ := List.forall_mem_cons.mp hlead
    refine contains_closeMark_cons.mpr ⟨?_, ih hrest⟩
    rintro ⟨rfl, -⟩
    exact absurd hc (by decide)

namespace SourceLine.Follows

variable {t seen back rest after : Text} {l : SourceLine} {c : PlacedPiece}
  (hl : l.Follows t seen back ('\n' :: rest))

include hl

/-- A comment that begins a line and is not closed on it. -/
theorem exists_runsInto (h : AtBoundary t seen) (htext : trimStart l.text = "/*".toList ++ after)
    (hopen : contains after closeMark = false) :
    ∃ c : PlacedPiece, c.RunsInto t (seen ++ (l.text ++ (back ++ ['\n'])))
      ∧ c.offset = l.offset + Text.indent l.text
      ∧ opensDoc c.piece.text = opensDoc (trimStart l.text) := by
  have hline := leadingBlanks_append_trimStart l.text
  rw [htext] at hline
  have hopen' : contains (after ++ back) closeMark = false :=
    contains_closeMark_append_of_not_mem hopen hl.slash_not_mem_back
  have ht : t = seen ++ (leadingBlanks l.text
      ++ ("/*".toList ++ (after ++ back ++ '\n' :: rest))) := by
    rw [hl.text]
    conv => lhs; rw [← hline]
    simp only [List.append_assoc]
  obtain ⟨c, hmem, hoffset, hc⟩ := h.opens ht fun b => isBlank_of_mem_leadingBlanks
  have hfront : t = seen ++ leadingBlanks l.text
      ++ ("/*".toList ++ (after ++ back ++ '\n' :: rest)) := by
    rw [ht]
    simp only [List.append_assoc]
  have hruns := runsInto_of_open hmem hfront (by rw [hoffset, width_append]) hc hopen'
  have hseen : seen ++ leadingBlanks l.text ++ ("/*".toList ++ (after ++ back ++ ['\n']))
      = seen ++ (l.text ++ (back ++ ['\n'])) := by
    conv => rhs; rw [← hline]
    simp only [List.append_assoc]
  refine ⟨c, hseen ▸ hruns, by rw [hoffset, hl.offset, Text.indent], ?_⟩
  rw [hc, cutComment_append_of_not_contains hopen', htext, opensDoc_of_open hopen hl.back]

/-- A comment that opens on the line ends on it, or runs into the next one. -/
theorem closes_or_runsInto (hc : c ∈ blockComments t) (hle : l.offset ≤ c.offset)
    (hlt : c.offset < width (seen ++ (l.text ++ (back ++ ['\n'])))) :
    c.stop ≤ width (seen ++ (l.text ++ (back ++ ['\n'])))
      ∨ c.RunsInto t (seen ++ (l.text ++ (back ++ ['\n']))) ∧ ∃ x u y,
          l.text ++ back = x ++ ("/*".toList ++ u) ∧ c.offset = l.offset + width x
          ∧ c.piece.text = "/*".toList ++ (u ++ '\n' :: y) ∧ contains u closeMark = false := by
  obtain ⟨front, r, ht, hoffset, htext⟩ := exists_of_mem_blockComments hc
  have hwhole := hl.text.symm.trans ht
  rw [hl.offset, hoffset] at hle
  obtain ⟨x, rfl, hx⟩ := exists_append_of_width_le hwhole hle
  -- The delimiter stands in front of the newline.
  have hmark : ∃ u, l.text ++ back = x ++ ("/*".toList ++ u) ∧ r = u ++ '\n' :: rest := by
    rw [← List.append_assoc] at hx
    rcases List.append_eq_append_iff.mp hx with ⟨a, rfl, ha⟩ | ⟨a, hline, ha⟩
    · have hnewline : width ['\n'] = 1 := rfl
      simp only [hoffset, width_append, hnewline] at hlt
      obtain rfl := eq_nil_of_width_eq_zero (t := a) (by omega)
      cases (List.cons.inj ha).1
    · obtain ⟨u, rfl, hr⟩ := exists_openComment_append ha
      exact ⟨u, hline, hr⟩
  obtain ⟨u, hline, rfl⟩ := hmark
  have hseen : seen ++ (l.text ++ (back ++ ['\n']))
      = seen ++ x ++ ("/*".toList ++ (u ++ ['\n'])) := by
    rw [← List.append_assoc l.text, hline]
    simp only [List.append_assoc]
  cases hopen : contains u closeMark with
  | true =>
    obtain ⟨body, after, rfl, hcut⟩ := cutComment_append_of_contains hopen ('\n' :: rest)
    rw [hseen, PlacedPiece.stop, htext, hcut, hoffset]
    left
    simp only [width_append]
    omega
  | false =>
    have hruns := runsInto_of_open hc ht hoffset htext hopen
    rw [cutComment_append_of_not_contains hopen] at htext
    refine .inr ⟨hseen ▸ hruns, x, u, _, hline, ?_, htext, hopen⟩
    rw [hoffset, width_append, hl.offset]

end SourceLine.Follows

/-! ### Comments that open their line -/

namespace SourceLine.Follows

variable {t seen back rest x u : Text} {l : SourceLine} (hl : l.Follows t seen back rest)

include hl

/-- A delimiter behind as many bytes as there are blanks begins the line. -/
theorem exists_trimStart (hline : l.text ++ back = x ++ ("/*".toList ++ u))
    (hwidth : width x = Text.indent l.text) :
    ∃ after, trimStart l.text = "/*".toList ++ after ∧ u = after ++ back := by
  have hwhole : leadingBlanks l.text ++ (trimStart l.text ++ back) = x ++ ("/*".toList ++ u) := by
    rw [← List.append_assoc, leadingBlanks_append_trimStart, hline]
  obtain ⟨y, hy, hrest⟩ := exists_append_of_width_le hwhole hwidth.ge
  obtain rfl : y = [] := by
    rw [hy, width_append, Text.indent] at hwidth
    exact eq_nil_of_width_eq_zero (by omega)
  rcases hl.back with rfl | rfl
  · exact ⟨u, by simpa using hrest, (List.append_nil u).symm⟩
  · rcases List.eq_nil_or_concat' u with rfl | ⟨after, e, rfl⟩
    · have hlast := congrArg List.getLast? hrest
      rw [List.getLast?_concat] at hlast
      cases hlast
    · rw [List.nil_append, ← List.append_assoc] at hrest
      obtain ⟨htext, hend⟩ := List.append_inj' hrest rfl
      exact ⟨after, htext, by rw [hend]⟩

end SourceLine.Follows

namespace PlacedPiece.RunsInto

variable {c d : PlacedPiece} {t seen back rest : Text} {l : SourceLine}

/-- No comment runs into a line on which only blanks stand in front of another one, which runs over
the end of the line. -/
theorem offset_ne (hd : d.RunsInto t seen) (hl : l.Follows t seen back ('\n' :: rest))
    (hc : c.RunsInto t (seen ++ (l.text ++ (back ++ ['\n'])))) :
    c.offset ≠ l.offset + Text.indent l.text := by
  intro hoffset
  have hstarts := hl.offset ▸ hd.starts
  cases hclose : contains l.text closeMark with
  | true =>
    obtain ⟨body, after, htext, hstop⟩ := hd.ends hl.text hclose
    have hstar : '*' ∉ leadingBlanks l.text := fun hm =>
      absurd (isBlank_of_mem_leadingBlanks hm) (by decide)
    have hindent : Text.indent l.text ≤ width body :=
      width_le_of_not_mem hstar ((leadingBlanks_append_trimStart l.text).trans htext)
    have hcstop : c.offset ≤ c.stop := Nat.le_add_right _ _
    rw [← hl.offset] at hstop
    rcases apart_of_mem_blockComments hc.mem hd.mem with rfl | h | h
    · omega
    · omega
    · omega
  | false =>
    obtain rfl := hc.unique (hd.goesOn_line hl hclose)
    omega

end PlacedPiece.RunsInto

end DocContract
