import DocContract.Proofs.Text.Trim
import Mathlib.Data.List.Basic

/-!
# Lines of a text

Splitting a text at one character and joining the pieces with it are inverse to each other. Reading
the lines of joined lines gives them back when none of them is broken or ends with a blank and the
last one is not empty; a newline at the end of a text is what reading its lines forgets.
-/

namespace DocContract.Text

/-! ### Splitting -/

private theorem splitBy_ne_nil (p : Char → Bool) (t : Text) : splitBy p t ≠ [] := by
  cases t with
  | nil => simp [splitBy]
  | cons c r =>
    simp only [splitBy]
    split
    · simp
    · split <;> simp

private theorem splitBy_cons_neg {p : Char → Bool} {c : Char} {r piece : Text} {pieces : List Text}
    (hc : p c = false) (h : splitBy p r = piece :: pieces) :
    splitBy p (c :: r) = (c :: piece) :: pieces := by
  simp [splitBy, hc, h]

/-- A text without a separator is one piece. -/
theorem splitBy_of_none {p : Char → Bool} {t : Text} (h : ∀ c ∈ t, p c = false) :
    splitBy p t = [t] := by
  induction t with
  | nil => rfl
  | cons c r ih =>
    obtain ⟨hc, hr⟩ := List.forall_mem_cons.mp h
    exact splitBy_cons_neg hc (ih hr)

/-- A separator splits the pieces in front of it from those behind it. -/
theorem splitBy_append {p : Char → Bool} (t : Text) {s : Char} (u : Text) (hs : p s = true) :
    splitBy p (t ++ s :: u) = splitBy p t ++ splitBy p u := by
  induction t with
  | nil => simp [splitBy, hs]
  | cons c r ih =>
    by_cases hc : p c = true
    · simp [splitBy, hc, ih]
    · obtain ⟨piece, pieces, h⟩ := List.exists_cons_of_ne_nil (splitBy_ne_nil p r)
      have happ : splitBy p (r ++ s :: u) = piece :: (pieces ++ splitBy p u) := by
        rw [ih, h, List.cons_append]
      rw [List.cons_append, splitBy_cons_neg (Bool.eq_false_iff.mpr hc) h,
        splitBy_cons_neg (Bool.eq_false_iff.mpr hc) happ, List.cons_append]

private theorem neg_of_mem_splitBy {p : Char → Bool} {t piece : Text} {c : Char}
    (h : piece ∈ splitBy p t) (hc : c ∈ piece) : p c = false := by
  induction t generalizing piece with
  | nil =>
    rw [splitBy, List.mem_singleton] at h
    subst h; cases hc
  | cons d r ih =>
    by_cases hd : p d = true
    · rw [splitBy, if_pos hd, List.mem_cons] at h
      rcases h with rfl | h
      · cases hc
      · exact ih h hc
    · obtain ⟨first, pieces, hr⟩ := List.exists_cons_of_ne_nil (splitBy_ne_nil p r)
      rw [splitBy_cons_neg (Bool.eq_false_iff.mpr hd) hr, List.mem_cons] at h
      rcases h with rfl | h
      · rcases List.mem_cons.mp hc with rfl | hc
        · exact Bool.eq_false_iff.mpr hd
        · exact ih (by rw [hr]; exact List.mem_cons_self) hc
      · exact ih (by rw [hr]; exact List.mem_cons_of_mem _ h) hc

/-- The pieces of a text hold no separator. -/
theorem not_mem_of_mem_splitOn {s : Char} {t piece : Text} (h : piece ∈ splitOn s t) :
    s ∉ piece := by
  intro hs
  have := neg_of_mem_splitBy h hs
  simp at this

/-- A text without separators is one piece. -/
theorem splitOn_of_not_mem {s : Char} {t : Text} (h : s ∉ t) : splitOn s t = [t] :=
  splitBy_of_none fun c hc => by
    have : c ≠ s := fun e => h (e ▸ hc)
    simp [this]

/-- A text is split at each separator. -/
theorem splitOn_append (s : Char) (t u : Text) :
    splitOn s (t ++ s :: u) = splitOn s t ++ splitOn s u :=
  splitBy_append t u (by simp)

/-- A text has at least one piece. -/
theorem splitOn_ne_nil (s : Char) (t : Text) : splitOn s t ≠ [] := splitBy_ne_nil _ t

/-! ### Joining -/

/-- The first text is joined to the others by a separator. -/
theorem join_cons {sep t : Text} {ts : List Text} (h : ts ≠ []) :
    join sep (t :: ts) = t ++ sep ++ join sep ts := by
  cases ts with
  | nil => exact absurd rfl h
  | cons u r => rfl

/-- Texts that are joined in two parts are joined by a separator. -/
theorem join_append {sep : Text} {ts us : List Text} (ht : ts ≠ []) (hu : us ≠ []) :
    join sep (ts ++ us) = join sep ts ++ sep ++ join sep us := by
  induction ts with
  | nil => exact absurd rfl ht
  | cons t r ih =>
    by_cases hr : r = []
    · subst hr
      simp [join_cons hu, join]
    · rw [List.cons_append, join_cons (by simp [hr]), ih hr, join_cons hr]
      simp [List.append_assoc]

/-- The characters of the parts are in the joined text. -/
theorem mem_join {sep piece : Text} {pieces : List Text} {c : Char} (hp : piece ∈ pieces)
    (hc : c ∈ piece) : c ∈ join sep pieces := by
  induction pieces with
  | nil => cases hp
  | cons first rest ih =>
    by_cases hnil : rest = []
    · rw [hnil] at hp ⊢
      rwa [List.mem_singleton.mp hp] at hc
    · rw [join_cons hnil, List.append_assoc, List.mem_append, List.mem_append]
      rcases List.mem_cons.mp hp with rfl | hp
      · exact .inl hc
      · exact .inr (.inr (ih hp))

/-- The characters of a joined text are those of the separator and of the parts. -/
theorem of_mem_join {sep : Text} {pieces : List Text} {c : Char} (h : c ∈ join sep pieces) :
    c ∈ sep ∨ ∃ piece ∈ pieces, c ∈ piece := by
  induction pieces with
  | nil => cases h
  | cons first rest ih =>
    by_cases hnil : rest = []
    · rw [hnil] at h
      exact .inr ⟨first, List.mem_cons_self, h⟩
    · rw [join_cons hnil, List.append_assoc, List.mem_append, List.mem_append] at h
      rcases h with h | h | h
      · exact .inr ⟨first, List.mem_cons_self, h⟩
      · exact .inl h
      · exact (ih h).imp_right fun ⟨piece, hp, hc⟩ => ⟨piece, List.mem_cons_of_mem _ hp, hc⟩

/-- Joining the pieces of a text gives the text. -/
theorem join_splitOn (s : Char) (t : Text) : join [s] (splitOn s t) = t := by
  induction t with
  | nil => rfl
  | cons c r ih =>
    by_cases hc : c = s
    · subst hc
      have h : splitOn c (c :: r) = [] :: splitOn c r := splitOn_append c [] r
      rw [h, join_cons (splitOn_ne_nil c r), ih]
      rfl
    · obtain ⟨piece, pieces, h⟩ := List.exists_cons_of_ne_nil (splitOn_ne_nil s r)
      have hs : splitOn s (c :: r) = (c :: piece) :: pieces :=
        splitBy_cons_neg (by simp [hc]) h
      rw [h] at ih
      rw [hs]
      cases pieces with
      | nil => rw [← ih]; rfl
      | cons u us => rw [join_cons (by simp)] at ih ⊢; rw [← ih]; simp

/-- Splitting joined pieces gives the pieces. -/
theorem splitOn_join {s : Char} {ts : List Text} (hne : ts ≠ []) (h : ∀ t ∈ ts, s ∉ t) :
    splitOn s (join [s] ts) = ts := by
  induction ts with
  | nil => exact absurd rfl hne
  | cons t r ih =>
    obtain ⟨ht, hr⟩ := List.forall_mem_cons.mp h
    by_cases hn : r = []
    · subst hn
      exact splitOn_of_not_mem ht
    · rw [join_cons hn, List.append_assoc, List.singleton_append, splitOn_append,
        splitOn_of_not_mem ht, ih hn hr]
      rfl

/-- There is one way to cut a text at its first separator. -/
theorem append_cons_inj_first {s : Char} {p q r t : Text} (hp : s ∉ p) (hq : s ∉ q)
    (h : p ++ s :: r = q ++ s :: t) : p = q ∧ r = t := by
  have hsplit := congrArg (splitOn s) h
  rw [splitOn_append, splitOn_append, splitOn_of_not_mem hp, splitOn_of_not_mem hq] at hsplit
  obtain ⟨hpq, hrt⟩ := List.cons.inj hsplit
  have hpieces : splitOn s r = splitOn s t := hrt
  refine ⟨hpq, ?_⟩
  rw [← join_splitOn s r, hpieces, join_splitOn]

/-- There is one way to cut a text at its last separator. -/
theorem append_cons_inj_last {s : Char} {p q r t : Text} (hr : s ∉ r) (ht : s ∉ t)
    (h : p ++ s :: r = q ++ s :: t) : p = q ∧ r = t := by
  have hreverse : r.reverse ++ s :: p.reverse = t.reverse ++ s :: q.reverse := by
    simpa using congrArg List.reverse h
  obtain ⟨hrt, hpq⟩ := append_cons_inj_first (fun hm => hr (List.mem_reverse.mp hm))
    (fun hm => ht (List.mem_reverse.mp hm)) hreverse
  exact ⟨List.reverse_inj.mp hpq, List.reverse_inj.mp hrt⟩

/-! ### Lines -/

/-- A text that ends solid has no carriage return to drop. -/
theorem dropReturn_solid {t : Text} (h : EndsSolid t) : dropReturn t = t := by
  have hr : t.getLast? ≠ some '\r' := by
    intro he
    have := h '\r' he
    exact absurd this (by decide)
  simp [dropReturn, hr]

/-- What is left without a carriage return stands at the start of the text. -/
theorem dropReturn_isPrefixOf (t : Text) : dropReturn t <+: t := by
  unfold dropReturn
  split
  · exact List.dropLast_prefix t
  · exact List.prefix_refl t

/-- Dropping a carriage return brings in no characters. -/
theorem mem_of_mem_dropReturn {t : Text} {c : Char} (h : c ∈ dropReturn t) : c ∈ t := by
  unfold dropReturn at h
  split at h
  · exact List.dropLast_subset t h
  · exact h

/-- The last line does not count when it is empty. -/
theorem linesGo_append (ts : List Text) (last : Text) :
    lines.go (ts ++ [last]) = ts.map dropReturn ++ if last.isEmpty then [] else [last] := by
  induction ts with
  | nil => rfl
  | cons t r ih =>
    cases r with
    | nil => rfl
    | cons u us =>
      show dropReturn t :: lines.go ((u :: us) ++ [last]) = _
      rw [ih]
      rfl

/-- A newline separates the raw lines in front of it and behind it. -/
theorem rawLines_append (t u : Text) : rawLines (t ++ '\n' :: u) = rawLines t ++ rawLines u :=
  splitOn_append '\n' t u

/-- A text has at least one raw line. -/
theorem rawLines_ne_nil (t : Text) : rawLines t ≠ [] := splitOn_ne_nil '\n' t

/-- The raw lines of a text make it up again. -/
theorem join_rawLines (t : Text) : join ['\n'] (rawLines t) = t := join_splitOn '\n' t

/-- The characters of raw lines are in the text. -/
theorem mem_of_mem_rawLines {t piece : Text} {c : Char} (hp : piece ∈ rawLines t)
    (hc : c ∈ piece) : c ∈ t := by
  rw [← join_rawLines t]
  exact mem_join hp hc

/-- A first character that is no newline belongs to the first piece. -/
theorem rawLines_cons {c : Char} {t piece : Text} {pieces : List Text} (hc : c ≠ '\n')
    (h : rawLines t = piece :: pieces) : rawLines (c :: t) = (c :: piece) :: pieces :=
  splitBy_cons_neg (by simpa using hc) h

/-- There is one more piece than there are newlines. -/
theorem length_rawLines (t : Text) : (rawLines t).length = t.count '\n' + 1 := by
  induction t with
  | nil => rfl
  | cons c r ih =>
    by_cases hc : c = '\n'
    · have hsplit : rawLines (c :: r) = [] :: rawLines r := by
        rw [hc]
        exact rawLines_append [] r
      rw [hsplit, List.length_cons, ih, hc, List.count_cons_self]
    · obtain ⟨piece, pieces, h⟩ := List.exists_cons_of_ne_nil (rawLines_ne_nil r)
      rw [rawLines_cons hc h, List.length_cons, ← List.length_cons (a := piece), ← h, ih,
        List.count_cons_of_ne hc]

/-- The pieces of joined texts are the pieces of each. -/
theorem rawLines_join {ts : List Text} (h : ts ≠ []) :
    rawLines (join ['\n'] ts) = ts.flatMap rawLines := by
  induction ts with
  | nil => exact absurd rfl h
  | cons t r ih =>
    by_cases hr : r = []
    · subst hr
      simp [join]
    · rw [join_cons hr, List.append_assoc, List.singleton_append, rawLines_append, ih hr,
        List.flatMap_cons]

private theorem length_le_length_pieces (ts : List Text) :
    ts.length ≤ (ts.flatMap rawLines).length := by
  induction ts with
  | nil => exact Nat.le_refl _
  | cons t r ih =>
    rw [List.flatMap_cons, List.length_append, List.length_cons, length_rawLines]
    omega

/-- Texts that are one piece each hold no newline. -/
theorem not_mem_of_length_pieces {ts : List Text}
    (h : (ts.flatMap rawLines).length = ts.length) : ∀ t ∈ ts, '\n' ∉ t := by
  induction ts with
  | nil => exact List.forall_mem_nil _
  | cons t r ih =>
    have hle := length_le_length_pieces r
    rw [List.flatMap_cons, List.length_append, List.length_cons, length_rawLines] at h
    exact List.forall_mem_cons.mpr ⟨List.count_eq_zero.mp (by omega), ih (by omega)⟩

/-- Texts without newlines are the pieces of what they are joined to. -/
theorem flatMap_rawLines {ts : List Text} (h : ∀ t ∈ ts, '\n' ∉ t) : ts.flatMap rawLines = ts := by
  induction ts with
  | nil => rfl
  | cons t r ih =>
    obtain ⟨ht, hr⟩ := List.forall_mem_cons.mp h
    have hone : rawLines t = [t] := splitOn_of_not_mem ht
    rw [List.flatMap_cons, hone, ih hr, List.singleton_append]

/-- The lines of a text are its raw lines without carriage returns, where an empty last line does
not count. -/
theorem lines_newline (t last : Text) (h : '\n' ∉ last) :
    lines (t ++ '\n' :: last) =
      (rawLines t).map dropReturn ++ if last.isEmpty then [] else [last] := by
  rw [lines, rawLines, splitOn_append, splitOn_of_not_mem h]
  exact linesGo_append (rawLines t) last

private theorem lines_of_not_mem {t : Text} (h : '\n' ∉ t) :
    lines t = if t.isEmpty then [] else [t] := by
  rw [lines, rawLines, splitOn_of_not_mem h]
  exact linesGo_append [] t

/-- A text has no newline, or it is cut at its last one. -/
theorem last_newline_cut (t : Text) :
    '\n' ∉ t ∨ ∃ u last, t = u ++ '\n' :: last ∧ '\n' ∉ last := by
  induction t with
  | nil => exact .inl (by simp)
  | cons c r ih =>
    rcases ih with h | ⟨u, last, rfl, h⟩
    · by_cases hc : c = '\n'
      · exact .inr ⟨[], r, by simp [hc], h⟩
      · exact .inl (by simp [h, Ne.symm hc])
    · exact .inr ⟨c :: u, last, rfl, h⟩

/-- There is a line for each newline, and another one if something stands behind the last of
them. -/
theorem length_lines (t : Text) : (lines t).length
    = t.count '\n' + if t = [] ∨ t.getLast? = some '\n' then 0 else 1 := by
  rcases last_newline_cut t with h | ⟨u, last, rfl, h⟩
  · have hlast : t.getLast? ≠ some '\n' := fun hl => h (List.mem_of_getLast? hl)
    rw [lines_of_not_mem h, List.count_eq_zero.mpr h]
    cases t with
    | nil => rfl
    | cons c r => simp [hlast]
  · rw [lines_newline u last h, List.length_append, List.length_map, length_rawLines,
      List.count_append, List.count_cons_self, List.count_eq_zero.mpr h]
    cases last with
    | nil => simp
    | cons c r =>
      have hlast : (c :: r).getLast? ≠ some '\n' := fun hl => h (List.mem_of_getLast? hl)
      have hend : (u ++ '\n' :: c :: r).getLast? = (c :: r).getLast? := by
        simp [List.getLast?_append, List.getLast?_cons]
      have hnot : ¬ (u ++ '\n' :: c :: r = [] ∨ (u ++ '\n' :: c :: r).getLast? = some '\n') := by
        rw [hend]
        simp [hlast]
      rw [if_neg hnot]
      rfl

/-- A line holds no newline. -/
theorem not_mem_of_mem_lines {t l : Text} (h : l ∈ lines t) : '\n' ∉ l := by
  rcases last_newline_cut t with ht | ⟨u, last, rfl, ht⟩
  · rw [lines_of_not_mem ht] at h
    split at h
    · cases h
    · rw [List.mem_singleton.mp h]; exact ht
  · rw [lines_newline u last ht, List.mem_append] at h
    rcases h with h | h
    · obtain ⟨piece, hp, rfl⟩ := List.mem_map.mp h
      intro hc
      exact not_mem_of_mem_splitOn hp (mem_of_mem_dropReturn hc)
    · split at h
      · cases h
      · rw [List.mem_singleton.mp h]; exact ht

/-- Lines that end solid, the last of them not empty, are read back from the text they join to. -/
theorem lines_join {ls : List Text} (h : ∀ l ∈ ls, '\n' ∉ l ∧ EndsSolid l)
    (hlast : ls.getLast? ≠ some []) : lines (join ['\n'] ls) = ls := by
  rcases List.eq_nil_or_concat' ls with rfl | ⟨init, last, rfl⟩
  · rfl
  · rw [lines, rawLines, splitOn_join (by simp) fun t ht => (h t ht).1, linesGo_append]
    have hl : last.isEmpty = false := by
      cases last with
      | nil => simp at hlast
      | cons => rfl
    have hi : init.map dropReturn = init := by
      refine (List.map_congr_left fun t ht => ?_).trans (List.map_id _)
      exact dropReturn_solid (h t (by simp [ht])).2
    simp [hl, hi]

/-- The lines of a text that does not end with a newline join to the text. -/
theorem join_lines {t : Text} (h : ∀ l ∈ rawLines t, EndsSolid l)
    (hlast : t.getLast? ≠ some '\n') : join ['\n'] (lines t) = t := by
  rcases last_newline_cut t with ht | ⟨u, last, rfl, ht⟩
  · rw [lines_of_not_mem ht]
    cases t <;> rfl
  · have hl : last ≠ [] := by
      rintro rfl
      simp at hlast
    have hu : (rawLines u).map dropReturn = rawLines u := by
      refine (List.map_congr_left fun l hm => ?_).trans (List.map_id _)
      exact dropReturn_solid (h l (by rw [rawLines_append]; exact List.mem_append_left _ hm))
    rw [lines_newline u last ht, hu, if_neg (by simpa using hl),
      join_append (rawLines_ne_nil u) (List.cons_ne_nil last []), join_rawLines]
    simp [join]

/-- A newline at the end of a text is not kept by its lines. -/
theorem join_lines_newline {u : Text} (h : ∀ l ∈ rawLines u, EndsSolid l) :
    join ['\n'] (lines (u ++ ['\n'])) = u := by
  have hu : (rawLines u).map dropReturn = rawLines u :=
    (List.map_congr_left fun l hm => dropReturn_solid (h l hm)).trans (List.map_id _)
  rw [lines_newline u [] (by simp), hu]
  simpa using join_rawLines u

end DocContract.Text
