import DocContract.Proofs.Comment.ReadHeader

/-!
# Separators and types in front of a shorter description

When a text is cut at a space inside the description at its end, the separator, the type and the
name in front of the description are found where they were, and the description is what is left of
it. A separator that is found in the shorter text would have been found in the whole one, because
whatever follows a dash on one line is a description.
-/

namespace DocContract

open Text

/-! ### Texts that are cut at a space -/

section Cut

variable {x y d u : Text}

/-- A text that reaches beyond a space is no end of what stands behind it. -/
theorem not_suffix_of_suffix (hd : d ≠ []) (hu : u <:+ ' ' :: y) : ¬ d ++ ' ' :: y <:+ u := by
  intro h
  have hlen := (h.trans hu).length_le
  have hpos := List.length_pos_of_ne_nil hd
  rw [List.length_append] at hlen
  omega

/-- Blanks in front of a break are trimmed with it. -/
theorem trimStart_append_of_blank (h : isBlankText x = true) :
    trimStart (x ++ ' ' :: y) = trimStart y := by
  rw [trimStart_blanks_append (List.all_eq_true.mp h), trimStart_cons_blank (by decide)]

/-- Trimming the start of a text with a solid part leaves what stands behind that part. -/
theorem trimStart_append_of_solid (h : isBlankText x ≠ true) (u : Text) :
    trimStart (x ++ u) = trimStart x ++ u := by
  have hne : trimStart x ≠ [] := fun he => h (trimStart_eq_nil.mp he)
  rw [trimStart, List.dropWhile_append, if_neg]
  · rfl
  · simpa [trimStart] using hne

/-- The leading blanks of a text with a solid part are those of that part. -/
theorem leadingBlanks_append_of_solid (h : isBlankText x ≠ true) (u : Text) :
    leadingBlanks (x ++ u) = leadingBlanks x := by
  have hx := leadingBlanks_append_trimStart x
  have hstart : StartsSolid (trimStart x ++ u) :=
    startsSolid_append_of (fun he => h (trimStart_eq_nil.mp he)) (startsSolid_trimStart x)
  conv_lhs => rw [← hx, List.append_assoc]
  exact leadingBlanks_blanks_append (fun _ => isBlank_of_mem_leadingBlanks) hstart

/-- When nothing but blanks stands in front of a space, trimming takes them all. -/
theorem trimStart_append_suffix (h : isBlankText x = true) (y : Text) :
    trimStart (x ++ ' ' :: y) <:+ ' ' :: y := by
  rw [trimStart_append_of_blank h]
  exact (trimStart_suffix y).trans (List.suffix_cons _ _)

/-- What is taken from the front ends before the break that stops it. -/
theorem takeWhile_append_space {p : Char → Bool} (hp : p ' ' = false) (x y : Text) :
    (x ++ ' ' :: y).takeWhile p = x.takeWhile p :=
  takeWhile_append_stop x (by rintro c ⟨⟩; exact hp)

/-- What is dropped from the front ends before the break that stops it. -/
theorem dropWhile_append_space {p : Char → Bool} (hp : p ' ' = false) (x y : Text) :
    (x ++ ' ' :: y).dropWhile p = x.dropWhile p ++ ' ' :: y :=
  dropWhile_append_stop x (by rintro c ⟨⟩; exact hp)

/-- What begins a text that has a space behind it begins the text, unless it is the space. -/
theorem cons_of_append_space {c : Char} {r : Text} (hc : c ≠ ' ') (h : x ++ ' ' :: y = c :: r) :
    ∃ r', x = c :: r' ∧ r = r' ++ ' ' :: y := by
  cases x with
  | nil => exact absurd (List.cons.inj h).1.symm hc
  | cons c' x =>
    obtain ⟨rfl, rfl⟩ := List.cons.inj h
    exact ⟨x, rfl, rfl⟩

/-- What is not found in the grown text was not found before. -/
theorem eq_none_of_grown {α : Type} {o o' : Option α} (h : o.isSome → o'.isSome)
    (hnone : o' = none) : o = none := by
  cases o with
  | none => rfl
  | some a =>
    rw [hnone] at h
    cases h rfl

/-- A beginning without a space lies in front of the first space. -/
theorem after?_append_space {start : Text} (hs : ' ' ∉ start) (x y : Text) :
    after? start (x ++ ' ' :: y) = (after? start x).map (· ++ ' ' :: y) := by
  induction start generalizing x with
  | nil => rfl
  | cons c r ih =>
    obtain ⟨hc, hr⟩ := not_or.mp (fun h => hs (List.mem_cons.mpr h))
    cases x with
    | nil => simp [after?, Ne.symm hc]
    | cons e x =>
      rw [List.cons_append, after?, after?, ih hr]
      split <;> rfl

end Cut

namespace Header

variable {x y d : Text}

/-! ### Separators -/

private theorem afterDash?_cons {c : Char} {r e : Text} : afterDash? (c :: r) = some e
    ↔ isBlank c = true ∧ '\n' ∉ trimStart r ∧ trimStart r = e := by
  by_cases hc : isBlank c = true
  · by_cases hn : '\n' ∈ trimStart r <;> simp [afterDash?, hc, hn]
  · simp [afterDash?, hc]

/-- What follows a dash on the same line may grow on that line. -/
theorem afterDash?_append (hn : '\n' ∉ y) (h : (afterDash? x).isSome) :
    (afterDash? (x ++ ' ' :: y)).isSome := by
  cases x with
  | nil =>
    have hy : '\n' ∉ trimStart y := fun hm => hn (mem_of_mem_trimStart hm)
    exact Option.isSome_iff_exists.mpr ⟨_, afterDash?_cons.mpr ⟨by decide, hy, rfl⟩⟩
  | cons c r =>
    obtain ⟨e, he⟩ := Option.isSome_iff_exists.mp h
    obtain ⟨hc, hr, -⟩ := afterDash?_cons.mp he
    rw [List.cons_append]
    refine Option.isSome_iff_exists.mpr ⟨_, afterDash?_cons.mpr ⟨hc, ?_, rfl⟩⟩
    by_cases hb : isBlankText r = true
    · rw [trimStart_append_of_blank hb]
      exact fun hm => hn (mem_of_mem_trimStart hm)
    · rw [trimStart_append_of_solid hb]
      simp [hr, hn]

/-- The description behind a dash, cut at a space. -/
theorem afterDash?_cut (hd : d ≠ []) (h : afterDash? (x ++ ' ' :: y) = some (d ++ ' ' :: y)) :
    afterDash? x = some d := by
  obtain ⟨hsuffix, -, hn, hblank⟩ := afterDash?_eq_some h
  cases x with
  | nil => exact absurd hsuffix (not_suffix_of_suffix hd (List.suffix_refl _))
  | cons c r =>
    rw [List.cons_append] at h
    obtain ⟨hc, -, he⟩ := afterDash?_cons.mp h
    by_cases hb : isBlankText r = true
    · have hlong := not_suffix_of_suffix hd (trimStart_append_suffix hb y)
      rw [he] at hlong
      exact absurd (List.suffix_refl _) hlong
    · rw [trimStart_append_of_solid hb] at he
      have hr := List.append_cancel_right he
      exact afterDash?_cons.mpr ⟨hc, fun hm => hn (List.mem_append_left _ (hr ▸ hm)), hr⟩

private theorem separator?_cons {c : Char} {r e : Text} : separator? (c :: r) = some e
    ↔ isBlank c = true ∧ ∃ after, trimStart r = '-' :: after ∧ afterDash? after = some e := by
  rw [separator?]
  by_cases hc : isBlank c = true
  · rw [if_pos hc]
    split
    · next after ha =>
      constructor
      · exact fun h => ⟨hc, after, ha, h⟩
      · rintro ⟨-, after', ha', h⟩
        rw [ha] at ha'
        cases ha'
        exact h
    · next hne =>
      constructor
      · intro h
        cases h
      · rintro ⟨-, after, ha, -⟩
        exact absurd ha (hne after)
  · simp [hc]

/-- A separator stays one when more stands on the line. -/
theorem separator?_append (hn : '\n' ∉ y) (h : (separator? x).isSome) :
    (separator? (x ++ ' ' :: y)).isSome := by
  cases x with
  | nil => cases h
  | cons c r =>
    obtain ⟨e, he⟩ := Option.isSome_iff_exists.mp h
    obtain ⟨hc, after, ha, hafter⟩ := separator?_cons.mp he
    have hb : isBlankText r ≠ true := fun hb => by
      rw [trimStart_eq_nil.mpr hb] at ha
      cases ha
    obtain ⟨e', he'⟩ := Option.isSome_iff_exists.mp
      (afterDash?_append hn (Option.isSome_iff_exists.mpr ⟨e, hafter⟩))
    rw [List.cons_append]
    refine Option.isSome_iff_exists.mpr ⟨e', separator?_cons.mpr ⟨hc, after ++ ' ' :: y, ?_, he'⟩⟩
    rw [trimStart_append_of_solid hb, ha, List.cons_append]

/-- The description behind a separator, cut at a space. -/
theorem separator?_cut (hd : d ≠ []) (h : separator? (x ++ ' ' :: y) = some (d ++ ' ' :: y)) :
    separator? x = some d := by
  cases x with
  | nil => exact absurd (separator?_suffix h) (not_suffix_of_suffix hd (List.suffix_refl _))
  | cons c r =>
    rw [List.cons_append] at h
    obtain ⟨hc, after, ha, hafter⟩ := separator?_cons.mp h
    by_cases hb : isBlankText r = true
    · have htrim := trimStart_append_suffix hb y
      rw [ha] at htrim
      have hsuffix : after <:+ ' ' :: y := (List.suffix_cons '-' after).trans htrim
      exact absurd (afterDash?_eq_some hafter).1 (not_suffix_of_suffix hd hsuffix)
    · rw [trimStart_append_of_solid hb] at ha
      obtain ⟨a, as, hr⟩ := List.exists_cons_of_ne_nil fun he => hb (trimStart_eq_nil.mp he)
      rw [hr, List.cons_append] at ha
      obtain ⟨rfl, rfl⟩ := List.cons.inj ha
      exact separator?_cons.mpr ⟨hc, as, hr, afterDash?_cut hd hafter⟩

private theorem not_mem_of_splitSeparator? {bare : Bool} {t p : Text}
    (h : splitSeparator? bare t = some (p, d)) : '\n' ∉ d ∧ d <:+ t := by
  obtain ⟨tail, rfl, hclose, -, -⟩ := splitSeparator?_eq_some h
  refine ⟨?_, hclose.suffix.trans (List.suffix_append _ _)⟩
  rcases hclose with hs | ⟨-, -, rfl⟩
  · obtain ⟨bs, after, -, -, -, hafter⟩ := separator?_eq_some hs
    exact (afterDash?_eq_some hafter).2.2.1
  · exact List.not_mem_nil

/-- A line in a bare header always ends its type. -/
theorem splitSeparator?_bare {t : Text} (hn : '\n' ∉ t) : (splitSeparator? true t).isSome := by
  induction t with
  | nil => rfl
  | cons c r ih =>
    have hc : c ≠ '\n' := fun e => hn (e ▸ List.mem_cons_self)
    rw [splitSeparator?_cons]
    split
    · rfl
    · simpa [hc] using ih fun hm => hn (List.mem_cons_of_mem _ hm)

/-- The text in front of the first separator ends when more stands on the line. -/
theorem splitSeparator?_append_space {bare : Bool} (hn : '\n' ∉ y)
    (h : (splitSeparator? bare x).isSome) : (splitSeparator? bare (x ++ ' ' :: y)).isSome := by
  induction x with
  | nil =>
    cases bare with
    | false => cases h
    | true => exact splitSeparator?_bare (by simpa using hn)
  | cons c r ih =>
    rw [splitSeparator?_cons] at h
    rw [List.cons_append, splitSeparator?_cons]
    split
    · rfl
    · next hnone =>
      split at h
      · next e he =>
        have hx : separator? (c :: r) = none := eq_none_of_grown (separator?_append hn) hnone
        cases hx.symm.trans he
      · split at h
        · cases h
        · next hc =>
          rw [if_neg hc, Option.isSome_map]
          exact ih (by simpa using h)

/-- The text in front of the first separator, when the description behind it is cut at a space. -/
theorem splitSeparator?_cut {bare : Bool} {p : Text} (hd : d ≠ [])
    (h : splitSeparator? bare (x ++ ' ' :: y) = some (p, d ++ ' ' :: y)) :
    splitSeparator? bare x = some (p, d) := by
  obtain ⟨hline, hsuffix⟩ := not_mem_of_splitSeparator? h
  have hn : '\n' ∉ y := fun hm => hline (List.mem_append_right _ (List.mem_cons_of_mem _ hm))
  induction x generalizing p with
  | nil => exact absurd hsuffix (not_suffix_of_suffix hd (List.suffix_refl _))
  | cons c r ih =>
    rw [List.cons_append, splitSeparator?_cons] at h
    rw [splitSeparator?_cons]
    split at h
    · next e he =>
      obtain ⟨rfl, rfl⟩ := Prod.mk.inj (Option.some.inj h)
      have hx : separator? (c :: r) = some d := separator?_cut hd he
      rw [hx]
    · next hnone =>
      -- A separator here would still be one in the whole text, where there is none.
      have hx : separator? (c :: r) = none := eq_none_of_grown (separator?_append hn) hnone
      rw [hx]
      dsimp only
      split at h
      · cases h
      · next hc =>
        obtain ⟨⟨q, e⟩, hq, hqe⟩ := Option.map_eq_some_iff.mp h
        obtain ⟨rfl, rfl⟩ := Prod.mk.inj hqe
        rw [if_neg hc, ih hq (not_mem_of_splitSeparator? hq).2]
        rfl

/-! ### Types -/

/-- A description that follows a type holds no newline and stands at the end of its text. -/
theorem not_mem_of_typed? {bare : Bool} {blanks t : Text} {type? : Option Text}
    (h : typed? bare blanks t = some (type?, d)) : '\n' ∉ d ∧ d <:+ t := by
  obtain ⟨c, r, rfl, ⟨rest, hsplit, -⟩ | ⟨-, -, -, hd, -⟩⟩ := typed?_eq_some_iff.mp h
  · obtain ⟨hn, hsuffix⟩ := not_mem_of_splitSeparator? hsplit
    exact ⟨hn, hsuffix.trans (List.suffix_cons c r)⟩
  · obtain ⟨hsuffix, -, hn, -⟩ := afterDash?_eq_some hd
    exact ⟨hn, hsuffix.trans (List.suffix_cons c r)⟩

/-- A type and its description, when that is cut at a space. -/
theorem typed?_cut {bare : Bool} {blanks : Text} {type? : Option Text} (hd : d ≠ [])
    (h : typed? bare blanks (x ++ ' ' :: y) = some (type?, d ++ ' ' :: y)) :
    typed? bare blanks x = some (type?, d) := by
  obtain ⟨hline, hsuffix⟩ := not_mem_of_typed? h
  have hn : '\n' ∉ y := fun hm => hline (List.mem_append_right _ (List.mem_cons_of_mem _ hm))
  obtain ⟨c, r, ht, hfound⟩ := typed?_eq_some_iff.mp h
  cases x with
  | nil => exact absurd hsuffix (not_suffix_of_suffix hd (List.suffix_refl _))
  | cons c' x =>
    obtain ⟨rfl, rfl⟩ := List.cons.inj ht
    refine typed?_eq_some_iff.mpr ⟨c', x, rfl, ?_⟩
    rcases hfound with ⟨rest, hsplit, rfl⟩ | ⟨hnone, rfl, hany, hdash, rfl⟩
    · exact .inl ⟨rest, splitSeparator?_cut hd hsplit, rfl⟩
    · exact .inr ⟨eq_none_of_grown (splitSeparator?_append_space hn) hnone, rfl, hany,
        afterDash?_cut hd hdash, rfl⟩

/-- The same behind a colon; how the blanks behind it count does not matter. -/
theorem typed?_trimmed_cut {bare : Bool} (blanks : Text → Text) {type? : Option Text} (hd : d ≠ [])
    (h : typed? bare (blanks (leadingBlanks (x ++ ' ' :: y))) (trimStart (x ++ ' ' :: y))
      = some (type?, d ++ ' ' :: y)) :
    typed? bare (blanks (leadingBlanks x)) (trimStart x) = some (type?, d) := by
  by_cases hb : isBlankText x = true
  · exact absurd (not_mem_of_typed? h).2
      (not_suffix_of_suffix hd (trimStart_append_suffix hb y))
  · rw [leadingBlanks_append_of_solid hb, trimStart_append_of_solid hb] at h
    exact typed?_cut hd h

/-- A description behind a separator is found in the first part of a text that is cut inside it. -/
theorem untyped?_cut {bare : Bool} (hd : d ≠ [])
    (h : untyped? bare (x ++ ' ' :: y) = some (d ++ ' ' :: y)) : untyped? bare x = some d := by
  have hwhole : (x ++ ' ' :: y).isEmpty = false := by simp
  rw [untyped?, hwhole, Bool.and_false, if_neg Bool.false_ne_true] at h
  have hx := separator?_cut hd h
  have hempty : x.isEmpty = false := by
    cases x with
    | nil => cases hx
    | cons c r => rfl
  rw [untyped?, hempty, Bool.and_false, if_neg Bool.false_ne_true, hx]

/-- A description without a type stands at the end of its text. -/
theorem untyped?_suffix {bare : Bool} {t : Text} (h : untyped? bare t = some d) : d <:+ t := by
  rw [untyped?] at h
  split at h
  · cases h
    exact List.nil_suffix
  · exact separator?_suffix h

/-- What follows a name, when its description is cut at a space. -/
theorem afterName?_cut {bare : Bool} {type? : Option Text} (hd : d ≠ [])
    (h : afterName? bare (x ++ ' ' :: y) = some (type?, d ++ ' ' :: y)) :
    afterName? bare x = some (type?, d) := by
  have huntyped (hbare : ∀ r, trimStart x ≠ ':' :: r)
      (hu : untyped? bare (x ++ ' ' :: y) = some (d ++ ' ' :: y)) :
      afterName? bare x = some (none, d) :=
    afterName?_eq_some_iff.mpr (.inr ⟨hbare, untyped?_cut hd hu, rfl⟩)
  by_cases hb : isBlankText x = true
  · have hbare : ∀ r, trimStart x ≠ ':' :: r := by simp [trimStart_eq_nil.mpr hb]
    rcases afterName?_eq_some_iff.mp h with ⟨r, hr, hfound⟩ | ⟨-, hfound, rfl⟩
    · have hsuffix := trimStart_append_suffix hb y
      rw [hr] at hsuffix
      have hr' : trimStart r <:+ ' ' :: y :=
        (trimStart_suffix r).trans ((List.suffix_cons _ _).trans hsuffix)
      exact absurd (not_mem_of_typed? hfound).2 (not_suffix_of_suffix hd hr')
    · exact huntyped hbare hfound
  · have happ := trimStart_append_of_solid hb (' ' :: y)
    rcases afterName?_eq_some_iff.mp h with ⟨r, hr, hfound⟩ | ⟨hnone, hfound, rfl⟩
    · obtain ⟨r', hx, rfl⟩ := cons_of_append_space (by decide) (happ.symm.trans hr)
      exact afterName?_eq_some_iff.mpr (.inl ⟨r', hx, typed?_trimmed_cut id hd hfound⟩)
    · refine huntyped (fun r hr => hnone (r ++ ' ' :: y) ?_) hfound
      rw [happ, hr, List.cons_append]

/-- A description behind a name stands at the end of its text. -/
theorem afterName?_suffix {bare : Bool} {t : Text} {type? : Option Text}
    (h : afterName? bare t = some (type?, d)) : d <:+ t := by
  rcases afterName?_eq_some_iff.mp h with ⟨r, hr, hfound⟩ | ⟨-, hfound, -⟩
  · exact (not_mem_of_typed? hfound).2.trans (behindColon_suffix hr)
  · exact untyped?_suffix hfound

end Header

end DocContract
