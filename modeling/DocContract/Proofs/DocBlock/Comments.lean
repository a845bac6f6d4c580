import DocContract.Proofs.DocBlock.Exact
import DocContract.Proofs.Text.Pieces

/-!
# Comments over several lines

The comments of a text are among its pieces, so they are found by reading the text from left to
right from its start. A text without quotes has no literals. There the end of a line is the end of a
piece, or a block comment runs over it; and a comment that runs into a line ends on it if a closing
delimiter stands there, and runs over its end otherwise.
-/

namespace DocContract

open Text

/-! ### Block comments -/

/-- The block comments of a text with their places. -/
def blockComments (t : Text) : List PlacedPiece :=
  (placedFrom 0 (pieces t)).filter PlacedPiece.isBlock

/-- Of two comments, one ends before the other begins. -/
theorem apart_of_mem_blockComments {t : Text} {c d : PlacedPiece} (hc : c ∈ blockComments t)
    (hd : d ∈ blockComments t) : c = d ∨ c.stop ≤ d.offset ∨ d.stop ≤ c.offset :=
  eq_or_of_pairwise (pairwise_placedFrom 0 (pieces t)) (List.mem_of_mem_filter hc)
    (List.mem_of_mem_filter hd)

/-- A block comment is cut off the text that begins with it. -/
theorem cut_of_pieces {t : Text} {p : Piece} {after : List Piece}
    (h : pieces t = p :: after) (hp : p.kind = .blockComment) :
    ∃ r, t = "/*".toList ++ r ∧ p.text = "/*".toList ++ (cutComment r).1
      ∧ Piece.joined after = (cutComment r).2 := by
  revert h
  fun_cases pieces t with
  | case1 => rintro ⟨⟩
  | case2 r => rintro ⟨rfl, rfl⟩; cases hp
  | case3 r =>
    rintro ⟨rfl, rfl⟩
    exact ⟨r, rfl, rfl, joined_pieces _⟩
  | case4 c r => rintro ⟨rfl, rfl⟩; cases hp
  | case5 c r => rintro ⟨rfl, rfl⟩; cases hp

/-! ### Cutting off a comment line by line -/

/-- A text with a closing delimiter holds all that is left of the comment. -/
theorem cutComment_append_of_contains {u : Text} (h : contains u closeMark = true) (v : Text) :
    ∃ b r, u = b ++ (closeMark ++ r) ∧ (cutComment (u ++ v)).1 = b ++ closeMark := by
  induction u with
  | nil => cases h
  | cons c u ih =>
    cases hstart : startsWith (c :: u) closeMark with
    | true =>
      obtain ⟨r, hr⟩ := startsWith_iff.mp hstart
      refine ⟨[], r, hr.symm, ?_⟩
      rw [← hr]
      rfl
    | false =>
      rw [contains, hstart, Bool.false_or] at h
      obtain ⟨b, r, rfl, hcut⟩ := ih h
      have hwhole : startsWith (c :: (b ++ (closeMark ++ r) ++ v)) closeMark = false :=
        startsWith_closeMark_append hstart fun hnil => by simp [closeMark] at hnil
      exact ⟨c :: b, r, rfl, by rw [List.cons_append, cutComment_cons hwhole, hcut]; rfl⟩

/-- A line without a closing delimiter belongs to the comment. -/
theorem cutComment_append_of_not_contains {u : Text} (h : contains u closeMark = false) (v : Text) :
    (cutComment (u ++ '\n' :: v)).1 = u ++ '\n' :: (cutComment v).1 := by
  induction u with
  | nil =>
    have hstart : startsWith ('\n' :: v) closeMark = false := rfl
    rw [List.nil_append, cutComment_cons hstart]
    rfl
  | cons c u ih =>
    rw [contains, Bool.or_eq_false_iff] at h
    have hstart : startsWith (c :: (u ++ '\n' :: v)) closeMark = false :=
      startsWith_closeMark_append h.1 fun _ hslash => by
        cases (List.cons_prefix_cons.mp hslash).1
    rw [List.cons_append, cutComment_cons hstart, ih h.2]
    rfl

/-- A text without a closing delimiter belongs to the comment. -/
theorem cutComment_of_not_contains {t : Text} (h : contains t closeMark = false) :
    cutComment t = (t, []) := by
  rw [cutComment, cut?_eq_none_iff.mpr h]

/-! ### Comments that run into a line -/

/-- The comment begins in what has been seen, and takes from the rest of the text up to its end. -/
structure PlacedPiece.RunsInto (c : PlacedPiece) (t seen : Text) : Prop where
  mem : c ∈ blockComments t
  seen_isPrefix : seen <+: t
  starts : c.offset < width seen
  remains : ∀ below, t = seen ++ below → c.stop = width seen + width (cutComment below).1

/-- A piece ends where what has been seen ends. -/
def AtBoundary (t seen : Text) : Prop :=
  ∃ before after, pieces t = before ++ after ∧ Piece.joined before = seen

private theorem mem_blockComments_of_pieces {t : Text} {before after : List Piece} {p : Piece}
    (h : pieces t = before ++ p :: after) (hp : p.kind = .blockComment) :
    ⟨width (Piece.joined before), p⟩ ∈ blockComments t := by
  refine List.mem_filter.mpr ⟨mem_placedFrom.mpr ⟨before, after, h, (Nat.zero_add _).symm⟩, ?_⟩
  exact beq_iff_eq.mpr hp

/-- A comment that its line does not close runs into the next one. -/
theorem runsInto_of_open {t front u rest : Text} {c : PlacedPiece} (hmem : c ∈ blockComments t)
    (ht : t = front ++ ("/*".toList ++ (u ++ '\n' :: rest))) (hoffset : c.offset = width front)
    (htext : c.piece.text = "/*".toList ++ (cutComment (u ++ '\n' :: rest)).1)
    (hopen : contains u closeMark = false) :
    c.RunsInto t (front ++ ("/*".toList ++ (u ++ ['\n']))) where
  mem := hmem
  seen_isPrefix := ⟨rest, by rw [ht]; simp⟩
  starts := by
    have hmark : width "/*".toList = 2 := rfl
    rw [width_append, width_append, hmark]
    omega
  remains := by
    intro below hbelow
    obtain rfl : rest = below := by
      rw [ht] at hbelow
      simpa using hbelow
    have hmark : width "/*".toList = 2 := rfl
    have hnewline : ('\n').utf8Size = 1 := rfl
    rw [PlacedPiece.stop, htext, cutComment_append_of_not_contains hopen]
    simp only [width_append, width, hmark, hnewline, hoffset]
    omega

/-- A newline behind the mark that opens a comment. -/
theorem exists_openComment_append {r x y : Text} (h : "/*".toList ++ r = x ++ '\n' :: y) :
    ∃ u, x = "/*".toList ++ u ∧ r = u ++ '\n' :: y := by
  rcases x with _ | ⟨c, _ | ⟨d, u⟩⟩
  · cases (List.cons.inj h).1
  · cases (List.cons.inj (List.cons.inj h).2).1
  · obtain ⟨rfl, hrest⟩ := List.cons.inj h
    obtain ⟨rfl, hr⟩ := List.cons.inj hrest
    exact ⟨u, rfl, hr⟩

/-- A block comment runs over each newline in it. -/
theorem runsInto_of_pieces {t x y : Text} {before after : List Piece} {p : Piece}
    (h : pieces t = before ++ p :: after) (hp : p.kind = .blockComment)
    (htext : p.text = x ++ '\n' :: y) : PlacedPiece.RunsInto
      ⟨width (Piece.joined before), p⟩ t (Piece.joined before ++ (x ++ ['\n'])) := by
  obtain ⟨r, hr, hcut, -⟩ := cut_of_pieces (pieces_suffix h).symm hp
  obtain ⟨u, rfl, hcomment⟩ := exists_openComment_append (hcut.symm.trans htext)
  obtain ⟨rest, rfl⟩ : ∃ rest, r = u ++ '\n' :: rest := by
    refine ⟨y ++ (cutComment r).2, ?_⟩
    rw [← List.cons_append, ← List.append_assoc, ← hcomment, append_cutComment]
  have hopen : contains u closeMark = false := by
    refine Bool.eq_false_iff.mpr fun hclose => ?_
    obtain ⟨b, v, rfl, hends⟩ := cutComment_append_of_contains hclose ('\n' :: rest)
    have hlength := congrArg List.length (hcomment.symm.trans hends)
    simp at hlength
  have ht : t = Piece.joined before ++ ("/*".toList ++ (u ++ '\n' :: rest)) := by
    rw [← joined_pieces t, h, joined_append, hr]
  have hruns := runsInto_of_open (mem_blockComments_of_pieces h hp) ht rfl hcut hopen
  rwa [← List.append_assoc "/*".toList] at hruns

/-- In a text without quotes the end of a line is the end of a piece, or in a block comment. -/
theorem atBoundary_or_runsInto {t seen below : Text} (hquotes : ∀ c ∈ t, isQuote c = false)
    (ht : t = seen ++ below) (hseen : IsLines seen) :
    AtBoundary t seen ∨ ∃ c : PlacedPiece, c.RunsInto t seen := by
  have hjoined : Piece.joined (pieces t) = seen ++ below := by rw [joined_pieces, ht]
  rcases ends_of_joined_eq hjoined with
    ⟨before, after, hpieces, hbefore⟩ | ⟨before, p, after, x, y, hpieces, hp, hx, hy, rfl⟩
  · exact .inl ⟨before, after, hpieces, hbefore⟩
  · have hlast : x.getLast? = some '\n' := by
      rcases hseen with hnil | hlast
      · exact absurd (List.append_eq_nil_iff.mp hnil).2 hx
      · rwa [List.getLast?_append_of_ne_nil _ hx] at hlast
    obtain ⟨x, rfl⟩ := List.getLast?_eq_some_iff.mp hlast
    have hmem : p ∈ pieces t := by
      rw [hpieces]
      exact List.mem_append_right _ List.mem_cons_self
    have hshape := shape_of_mem_pieces hmem
    have hinside : ∀ c ∈ p.text, c ∈ t := by
      intro c hc
      rw [← joined_pieces t]
      exact List.mem_flatMap.mpr ⟨p, hmem, hc⟩
    cases hkind : p.kind with
    | code =>
      rw [hkind] at hshape
      obtain ⟨c, hc⟩ := hshape
      have hlength := congrArg List.length (hp.symm.trans hc)
      have hpos := List.length_pos_iff.mpr hy
      simp at hlength
      omega
    | literal =>
      rw [hkind] at hshape
      obtain ⟨c, r, hc, hquote⟩ := hshape
      have hnone := hquotes c (hinside c (by rw [hc]; exact List.mem_cons_self))
      rw [hquote] at hnone
      cases hnone
    | lineComment =>
      rw [hkind] at hshape
      exact absurd (by rw [hp]; simp) hshape
    | blockComment =>
      have htext : p.text = x ++ '\n' :: y := by rw [hp, List.append_assoc, List.singleton_append]
      exact .inr ⟨_, runsInto_of_pieces hpieces hkind htext⟩

namespace PlacedPiece.RunsInto

variable {c d : PlacedPiece} {t seen piece more : Text}

/-- A comment ends behind everything that it runs into. -/
theorem le_stop (h : c.RunsInto t seen) : width seen ≤ c.stop := by
  obtain ⟨below, ht⟩ := h.seen_isPrefix
  rw [h.remains below ht.symm]
  exact Nat.le_add_right _ _

/-- Only one comment runs into a line. -/
theorem unique (hc : c.RunsInto t seen) (hd : d.RunsInto t seen) : c = d := by
  have hcstop := hc.le_stop
  have hdstop := hd.le_stop
  have hcstarts := hc.starts
  have hdstarts := hd.starts
  rcases apart_of_mem_blockComments hc.mem hd.mem with h | h | h <;> omega

/-- A comment runs over the end of a line that does not close it. -/
theorem goesOn (h : c.RunsInto t seen) (ht : t = seen ++ (piece ++ '\n' :: more))
    (hopen : contains piece closeMark = false) : c.RunsInto t (seen ++ (piece ++ ['\n'])) where
  mem := h.mem
  seen_isPrefix := ⟨more, by rw [ht]; simp⟩
  starts := by
    have hstarts := h.starts
    rw [width_append]
    omega
  remains := by
    intro below hbelow
    obtain rfl : more = below := by
      rw [ht] at hbelow
      simpa using hbelow
    have hnewline : ('\n').utf8Size = 1 := rfl
    rw [h.remains _ ht, cutComment_append_of_not_contains hopen]
    simp only [width_append, width, hnewline]
    omega

/-- A comment ends on a line with a closing delimiter. -/
theorem ends (h : c.RunsInto t seen) (ht : t = seen ++ (piece ++ more))
    (hclose : contains piece closeMark = true) : ∃ body rest,
      piece = body ++ (closeMark ++ rest) ∧ c.stop = width seen + (width body + 2) := by
  obtain ⟨body, rest, hpiece, hcut⟩ := cutComment_append_of_contains hclose more
  refine ⟨body, rest, hpiece, ?_⟩
  rw [h.remains _ ht, hcut, width_append]
  rfl

/-- A comment ends in the line that holds its closer. -/
theorem stop_le (h : c.RunsInto t seen) (ht : t = seen ++ (piece ++ more))
    (hclose : contains piece closeMark = true) : c.stop ≤ width seen + width piece := by
  obtain ⟨body, rest, rfl, hstop⟩ := h.ends ht hclose
  have hmark : width closeMark = 2 := rfl
  rw [hstop, width_append, width_append, hmark]
  omega

end PlacedPiece.RunsInto

/-! ### Comments that begin a line -/

private theorem width_joined_code (t : Text) :
    width (Piece.joined (t.map fun c => ⟨.code, [c]⟩)) = width t := by
  induction t with
  | nil => rfl
  | cons c t ih =>
    rw [List.map_cons, joined_cons, width_append, ih]
    rfl

/-- Blanks of the code are pieces of their own. -/
theorem pieces_blanks_append {lead : Text} (hlead : ∀ c ∈ lead, isBlank c = true) (t : Text) :
    pieces (lead ++ t) = lead.map (fun c => ⟨.code, [c]⟩) ++ pieces t := by
  induction lead with
  | nil => rfl
  | cons c lead ih =>
    obtain ⟨hc, hrest⟩ := List.forall_mem_cons.mp hlead
    have hslash : c ≠ '/' := by
      rintro rfl
      exact absurd hc (by decide)
    rw [List.cons_append, pieces_code hslash (isQuote_of_isBlank hc), ih hrest]
    rfl

/-- Behind blanks on which no comment runs a comment opens. -/
theorem AtBoundary.opens {t seen lead rest : Text} (h : AtBoundary t seen)
    (ht : t = seen ++ (lead ++ ("/*".toList ++ rest))) (hlead : ∀ c ∈ lead, isBlank c = true) :
    ∃ c ∈ blockComments t, c.offset = width seen + width lead
      ∧ c.piece.text = "/*".toList ++ (cutComment rest).1 := by
  obtain ⟨before, after, hpieces, rfl⟩ := h
  have hafter : Piece.joined after = lead ++ ("/*".toList ++ rest) := by
    have hjoined := joined_pieces t
    rw [hpieces, joined_append, ht] at hjoined
    exact List.append_cancel_left hjoined
  have hcomment : pieces ("/*".toList ++ rest)
      = ⟨.blockComment, "/*".toList ++ (cutComment rest).1⟩ :: pieces (cutComment rest).2 := by
    change pieces ('/' :: '*' :: rest) = _
    rw [pieces]
    rfl
  rw [pieces_suffix hpieces, hafter, pieces_blanks_append hlead, hcomment, ← List.append_assoc]
    at hpieces
  refine ⟨_, mem_blockComments_of_pieces hpieces rfl, ?_, rfl⟩
  rw [joined_append, width_append, width_joined_code]

end DocContract
