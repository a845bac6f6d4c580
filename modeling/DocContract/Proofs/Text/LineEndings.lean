import DocContract.Proofs.Text.Lines

/-!
# Line endings

A text whose newlines get a carriage return in front has the same lines: each piece between two
newlines ends with a carriage return then, which belongs to the line break.
-/

namespace DocContract.Text

/-- The text with a carriage return in front of every newline. -/
def withReturns (t : Text) : Text := t.flatMap fun c => if c = '\n' then ['\r', '\n'] else [c]

private theorem withReturns_newline (t : Text) :
    withReturns ('\n' :: t) = '\r' :: '\n' :: withReturns t := rfl

private theorem withReturns_cons {c : Char} (hc : c ≠ '\n') (t : Text) :
    withReturns (c :: t) = c :: withReturns t := by
  rw [withReturns, List.flatMap_cons, if_neg hc]
  rfl

private theorem dropReturn_append_return (t : Text) : dropReturn (t ++ ['\r']) = t := by
  simp [dropReturn]

/-- Nothing is dropped from a text without carriage returns. -/
theorem dropReturn_of_not_mem {t : Text} (h : '\r' ∉ t) : dropReturn t = t :=
  if_neg fun hlast => h (List.mem_of_getLast? hlast)

/-- Every piece but the last one gets a carriage return at its end. -/
theorem rawLines_withReturns (t : Text) : ∃ pieces last, rawLines t = pieces ++ [last]
    ∧ rawLines (withReturns t) = pieces.map (· ++ ['\r']) ++ [last] := by
  induction t with
  | nil => exact ⟨[], [], rfl, rfl⟩
  | cons c t ih =>
    obtain ⟨pieces, last, ht, hreturns⟩ := ih
    by_cases hc : c = '\n'
    · refine ⟨[] :: pieces, last, ?_, ?_⟩
      · rw [hc, ← List.nil_append ('\n' :: t), rawLines_append, ht]
        rfl
      · rw [hc, withReturns_newline, ← List.singleton_append, rawLines_append, hreturns]
        rfl
    · rw [withReturns_cons hc]
      cases pieces with
      | nil => exact ⟨[], c :: last, rawLines_cons hc ht, rawLines_cons hc hreturns⟩
      | cons piece pieces =>
        exact ⟨(c :: piece) :: pieces, last, rawLines_cons hc ht, rawLines_cons hc hreturns⟩

variable {t : Text} (h : '\r' ∉ t)

include h

/-- The pieces without the carriage returns of their line breaks are the same. -/
theorem map_dropReturn_withReturns :
    (rawLines (withReturns t)).map dropReturn = (rawLines t).map dropReturn := by
  obtain ⟨pieces, last, ht, hreturns⟩ := rawLines_withReturns t
  have hpieces : pieces.map dropReturn = pieces := by
    refine (List.map_congr_left fun p hp => ?_).trans (List.map_id _)
    refine dropReturn_of_not_mem fun hc => h (mem_of_mem_rawLines ?_ hc)
    rw [ht]
    exact List.mem_append_left _ hp
  rw [ht, hreturns, List.map_append, List.map_append, hpieces, List.map_map]
  simp [Function.comp_def, dropReturn_append_return]

/-- The lines are the same. -/
theorem lines_withReturns : lines (withReturns t) = lines t := by
  obtain ⟨pieces, last, ht, hreturns⟩ := rawLines_withReturns t
  have hsame := map_dropReturn_withReturns h
  rw [ht, hreturns, List.map_append, List.map_append] at hsame
  rw [lines, lines, ht, hreturns, linesGo_append, linesGo_append, List.append_cancel_right hsame]

end DocContract.Text
