import DocContract.Proofs.Text.Column

/-!
# Blanked lines

The first lines of a text with a space for every byte. The newlines stay, so the other lines stand
where they stood, by number and by byte, and there are as many lines as before.
-/

namespace DocContract.Text

/-- As many spaces as the text has bytes. -/
def spaces (t : Text) : Text := List.replicate (width t) ' '

/-- The text with every byte of its first lines, newlines apart, replaced by a space. -/
def blankLines : Nat → Text → Text
  | 0, t => t
  | _ + 1, [] => []
  | k + 1, c :: r =>
    if c = '\n' then '\n' :: blankLines k r
    else List.replicate c.utf8Size ' ' ++ blankLines (k + 1) r

/-- Replacing characters by spaces keeps the width. -/
theorem width_spaces (t : Text) : width (spaces t) = width t := width_replicate_space _

/-- A text of spaces is blank. -/
theorem isBlankText_spaces (t : Text) : isBlankText (spaces t) = true := by
  rw [isBlankText, List.all_eq_true]
  intro c hc
  rw [List.eq_of_mem_replicate hc]
  rfl

/-- Text in front of the first piece that holds no newline belongs to the first piece. -/
theorem rawLines_append_of_not_mem {p t piece : Text} {pieces : List Text} (hp : '\n' ∉ p)
    (h : rawLines t = piece :: pieces) : rawLines (p ++ t) = (p ++ piece) :: pieces := by
  induction p with
  | nil => exact h
  | cons c p ih =>
    rw [List.mem_cons, not_or] at hp
    exact rawLines_cons (Ne.symm hp.1) (ih hp.2)

private theorem rawLines_newline (t : Text) : rawLines ('\n' :: t) = [] :: rawLines t :=
  rawLines_append [] t

/-- The pieces of the first lines become spaces, the others stay. -/
theorem rawLines_blankLines (k : Nat) (t : Text) : rawLines (blankLines k t)
    = ((rawLines t).take k).map spaces ++ (rawLines t).drop k := by
  induction t generalizing k with
  | nil =>
    cases k with
    | zero => rfl
    | succ k =>
      change rawLines [] = (([[]] : List Text).take (k + 1)).map spaces ++ [[]].drop (k + 1)
      rw [List.take_succ_cons, List.take_nil, List.drop_succ_cons, List.drop_nil]
      rfl
  | cons c t ih =>
    cases k with
    | zero => rfl
    | succ k =>
      by_cases hc : c = '\n'
      · rw [blankLines, if_pos hc, hc, rawLines_newline, rawLines_newline, ih]
        rfl
      · obtain ⟨piece, pieces, h⟩ := List.exists_cons_of_ne_nil (rawLines_ne_nil t)
        have hblank := ih (k + 1)
        rw [h, List.take_succ_cons, List.map_cons, List.cons_append] at hblank
        have hspaces : '\n' ∉ List.replicate c.utf8Size ' ' := fun hm =>
          absurd (List.eq_of_mem_replicate hm) (by decide)
        have hfirst : spaces (c :: piece) = List.replicate c.utf8Size ' ' ++ spaces piece := by
          rw [spaces, spaces, width, List.replicate_add]
        rw [blankLines, if_neg hc, rawLines_append_of_not_mem hspaces hblank, rawLines_cons hc h,
          List.take_succ_cons, List.map_cons, hfirst]
        rfl

/-- As long as a line is left there are as many lines as before. -/
theorem length_lines_blankLines {k : Nat} {t : Text} (h : k < (rawLines t).length) :
    (lines (blankLines k t)).length = (lines t).length := by
  obtain ⟨mid, last, hdrop⟩ : ∃ mid last, (rawLines t).drop k = mid ++ [last] := by
    have hne : (rawLines t).drop k ≠ [] := by
      rw [ne_eq, List.drop_eq_nil_iff]
      omega
    exact (List.eq_nil_or_concat' _).resolve_left hne
  have hraw : rawLines t = ((rawLines t).take k ++ mid) ++ [last] := by
    rw [List.append_assoc, ← hdrop, List.take_append_drop]
  have hblank : rawLines (blankLines k t)
      = (((rawLines t).take k).map spaces ++ mid) ++ [last] := by
    rw [rawLines_blankLines, hdrop, List.append_assoc]
  rw [lines, lines, hblank, linesGo_append]
  conv => rhs; rw [hraw, linesGo_append]
  simp

end DocContract.Text
