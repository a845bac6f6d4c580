import DocContract.Proofs.Comment.CutSeparator

/-!
# Headers with a shorter description

When a header is cut at a space inside its description, what is left is a header of the same kind:
it has the same name, flag and type, and the description up to the space.
-/

namespace DocContract

open Text

namespace Header

variable {x y d : Text}

/-! ### Headers with a name -/

private theorem flag_append_space (x y : Text) :
    flag (x ++ ' ' :: y) = ((flag x).1, (flag x).2 ++ ' ' :: y) := by
  cases x with
  | nil => rfl
  | cons c r =>
    by_cases hc : c = '?'
    · subst hc
      rfl
    · simp [flag, hc]

/-- The description of a named header stands at the end of its text. -/
theorem ofNamed?_suffix {bare : Bool} {t : Text} {h : Header} (hh : ofNamed? bare t = some h) :
    h.description <:+ t := by
  obtain ⟨-, type?, d, hparts, rfl⟩ := ofNamed?_eq_some_iff.mp hh
  exact (afterName?_suffix hparts).trans (behindName_suffix t)

/-- A header with a name, when its description is cut at a space. -/
theorem ofNamed?_cut {bare : Bool} {h : Header} (hd : d ≠ [])
    (hh : ofNamed? bare (x ++ ' ' :: y) = some h) (hdesc : h.description = d ++ ' ' :: y) :
    ofNamed? bare x = some { h with description := d } := by
  have hchar : isNameChar ' ' = false := by decide
  obtain ⟨hname, type?, e, hparts, rfl⟩ := ofNamed?_eq_some_iff.mp hh
  obtain rfl : e = d ++ ' ' :: y := hdesc
  rw [takeWhile_append_space hchar] at hname
  rw [dropWhile_append_space hchar, flag_append_space] at hparts
  refine ofNamed?_eq_some_iff.mpr ⟨hname, type?, d, afterName?_cut hd hparts, ?_⟩
  rw [takeWhile_append_space hchar, dropWhile_append_space hchar, flag_append_space]

/-! ### The kinds of tags -/

private theorem returned?_suffix {t : Text} {h : Header} (hh : returned? t = some h) :
    h.description <:+ trim t := by
  rcases returned?_eq_some_iff.mp hh with
    ⟨r, type?, d, hr, hparts, rfl⟩ | ⟨r, d, hr, hd, rfl⟩ | ⟨-, -, hnamed⟩
  · rw [hr]
    exact (not_mem_of_typed? hparts).2.trans ((trimStart_suffix r).trans (List.suffix_cons _ _))
  · rw [hr]
    exact (afterDash?_eq_some hd).1.trans (List.suffix_cons _ _)
  · exact ofNamed?_suffix hnamed

private theorem returned?_cut {t t' : Text} {h : Header} (hd : d ≠ [])
    (ht : trim t = trim t' ++ ' ' :: y) (hh : returned? t = some h)
    (hdesc : h.description = d ++ ' ' :: y) : returned? t' = some { h with description := d } := by
  rcases returned?_eq_some_iff.mp hh with
    ⟨r, type?, e, hr, hparts, rfl⟩ | ⟨r, e, hr, he, rfl⟩ | ⟨hcolon, hdash, hnamed⟩
  · obtain rfl : e = d ++ ' ' :: y := hdesc
    obtain ⟨r', hr', rfl⟩ := cons_of_append_space (by decide) (ht.symm.trans hr)
    exact returned?_eq_some_iff.mpr
      (.inl ⟨r', type?, d, hr', typed?_trimmed_cut id hd hparts, rfl⟩)
  · obtain rfl : e = d ++ ' ' :: y := hdesc
    obtain ⟨r', hr', rfl⟩ := cons_of_append_space (by decide) (ht.symm.trans hr)
    exact returned?_eq_some_iff.mpr (.inr (.inl ⟨r', d, hr', afterDash?_cut hd he, rfl⟩))
  · have hgrown (c : Char) (h : ∀ r, trim t ≠ c :: r) (r : Text) : trim t' ≠ c :: r :=
      fun hr => h (r ++ ' ' :: y) (by rw [ht, hr, List.cons_append])
    rw [ht] at hnamed
    exact returned?_eq_some_iff.mpr
      (.inr (.inr ⟨hgrown ':' hcolon, hgrown '-' hdash, ofNamed?_cut hd hnamed hdesc⟩))

private theorem afterKind?_dash {t r : Text} (h : trimStart t = '-' :: r) :
    afterKind? t = (afterDash? r).or (afterDash? t) := by
  rw [afterKind?, h]
  cases hr : afterDash? r with
  | none =>
    rw [Option.none_or]
    split
    · next hd => cases hr.symm.trans hd
    · rfl
  | some d =>
    split
    · next hd => exact (hr.symm.trans hd).symm
    · next hd => cases hr.symm.trans hd

private theorem afterKind?_bare {t : Text} (h : ∀ r, trimStart t ≠ '-' :: r) :
    afterKind? t = afterDash? t := by
  rw [afterKind?]
  split
  · next hd =>
    split at hd
    · next r hr => exact absurd hr (h r)
    · cases hd
  · rfl

private theorem afterKind?_suffix {t : Text} (h : afterKind? t = some d) : d <:+ t := by
  by_cases hdash : ∃ r, trimStart t = '-' :: r
  · obtain ⟨r, hr⟩ := hdash
    rw [afterKind?_dash hr, Option.or_eq_some_iff] at h
    rcases h with h | ⟨-, h⟩
    · exact (afterDash?_eq_some h).1.trans
        ((List.suffix_cons '-' r).trans (hr ▸ trimStart_suffix t))
    · exact (afterDash?_eq_some h).1
  · rw [afterKind?_bare fun r hr => hdash ⟨r, hr⟩] at h
    exact (afterDash?_eq_some h).1

private theorem afterKind?_cut (hd : d ≠ [])
    (h : afterKind? (x ++ ' ' :: y) = some (d ++ ' ' :: y)) : afterKind? x = some d := by
  by_cases hb : isBlankText x = true
  · rw [afterKind?_bare fun r hr => by rw [trimStart_eq_nil.mpr hb] at hr; cases hr]
    by_cases hdash : ∃ r, trimStart (x ++ ' ' :: y) = '-' :: r
    · obtain ⟨r, hr⟩ := hdash
      have hsuffix := trimStart_append_suffix hb y
      rw [hr] at hsuffix
      rw [afterKind?_dash hr, Option.or_eq_some_iff] at h
      rcases h with h | ⟨-, h⟩
      · exact absurd (afterDash?_eq_some h).1
          (not_suffix_of_suffix hd ((List.suffix_cons '-' r).trans hsuffix))
      · exact afterDash?_cut hd h
    · rw [afterKind?_bare fun r hr => hdash ⟨r, hr⟩] at h
      exact afterDash?_cut hd h
  · have happ := trimStart_append_of_solid hb (' ' :: y)
    by_cases hdash : ∃ r, trimStart x = '-' :: r
    · obtain ⟨r, hr⟩ := hdash
      rw [hr, List.cons_append] at happ
      rw [afterKind?_dash happ, Option.or_eq_some_iff] at h
      rw [afterKind?_dash hr, Option.or_eq_some_iff]
      rcases h with h | ⟨hnone, h⟩
      · exact .inl (afterDash?_cut hd h)
      · -- No description stands behind the dash, so the dash begins the description itself.
        have hn : '\n' ∉ y := fun hm => (afterDash?_eq_some h).2.2.1
          (List.mem_append_right _ (List.mem_cons_of_mem _ hm))
        exact .inr ⟨eq_none_of_grown (afterDash?_append hn) hnone, afterDash?_cut hd h⟩
    · have hbare : ∀ r, trimStart (x ++ ' ' :: y) ≠ '-' :: r := by
        intro r hr
        obtain ⟨r', hx, -⟩ := cons_of_append_space (by decide) (happ.symm.trans hr)
        exact hdash ⟨r', hx⟩
      rw [afterKind?_bare hbare] at h
      rw [afterKind?_bare fun r hr => hdash ⟨r, hr⟩]
      exact afterDash?_cut hd h

private theorem thrown?_suffix {t : Text} {h : Header} (hh : thrown? t = some h) :
    h.description <:+ trim t := by
  obtain ⟨kind, rest, ht, -, -, -, d, hd, rfl⟩ := thrown?_eq_some_iff.mp hh
  rw [ht]
  exact (afterKind?_suffix hd).trans ((List.suffix_cons '}' rest).trans
    ((List.suffix_append kind _).trans (List.suffix_cons '{' _)))

/-- A text that is longer than what follows a cut begins in front of it. -/
theorem exists_of_append_eq {before rest : Text} (h : before ++ rest = x ++ ' ' :: y)
    (hrest : d ++ ' ' :: y <:+ rest) : ∃ r, rest = r ++ ' ' :: y ∧ x = before ++ r := by
  obtain ⟨r, rfl⟩ := (List.suffix_append d (' ' :: y)).trans hrest
  refine ⟨r, rfl, ?_⟩
  rw [← List.append_assoc] at h
  exact (List.append_cancel_right h).symm

private theorem thrown?_cut {t t' : Text} {h : Header} (hd : d ≠ [])
    (ht : trim t = trim t' ++ ' ' :: y) (hh : thrown? t = some h)
    (hdesc : h.description = d ++ ' ' :: y) : thrown? t' = some { h with description := d } := by
  obtain ⟨kind, rest, hbraces, hne, hopen, hclose, e, he, rfl⟩ := thrown?_eq_some_iff.mp hh
  obtain rfl : e = d ++ ' ' :: y := hdesc
  have hwhole : ('{' :: kind ++ ['}']) ++ rest = trim t' ++ ' ' :: y := by
    rw [← ht, hbraces]
    simp
  obtain ⟨r, rfl, hr⟩ := exists_of_append_eq hwhole (afterKind?_suffix he)
  refine thrown?_eq_some_iff.mpr ⟨kind, r, ?_, hne, hopen, hclose, d, afterKind?_cut hd he, rfl⟩
  rw [hr]
  simp

private theorem afterTemplate?_suffix {t : Text} {type? : Option Text}
    (h : afterTemplate? t = some (type?, d)) : d <:+ t := by
  rcases afterTemplate?_eq_some_iff.mp h with ⟨hd, -⟩ | ⟨-, -, r, hr, -, hfound⟩
  · exact separator?_suffix hd
  · exact (not_mem_of_typed? hfound).2.trans (behindExtends_suffix hr)

private theorem afterTemplate?_cut {type? : Option Text} (hd : d ≠ [])
    (h : afterTemplate? (x ++ ' ' :: y) = some (type?, d ++ ' ' :: y)) :
    afterTemplate? x = some (type?, d) := by
  rcases afterTemplate?_eq_some_iff.mp h with ⟨he, rfl⟩ | ⟨hnone, hlead, r, hr, hblanks, hfound⟩
  · exact afterTemplate?_eq_some_iff.mpr (.inl ⟨separator?_cut hd he, rfl⟩)
  · obtain ⟨hline, hsuffix⟩ := not_mem_of_typed? hfound
    have hn : '\n' ∉ y := fun hm => hline (List.mem_append_right _ (List.mem_cons_of_mem _ hm))
    by_cases hb : isBlankText x = true
    · have hr' : trimStart r <:+ ' ' :: y :=
        (trimStart_suffix r).trans ((after?_suffix hr).trans (trimStart_append_suffix hb y))
      exact absurd hsuffix (not_suffix_of_suffix hd hr')
    rw [leadingBlanks_append_of_solid hb] at hlead
    rw [trimStart_append_of_solid hb, after?_append_space (by decide)] at hr
    obtain ⟨r', hextends, rfl⟩ := Option.map_eq_some_iff.mp hr
    by_cases hbr : isBlankText r' = true
    · exact absurd hsuffix (not_suffix_of_suffix hd (trimStart_append_suffix hbr y))
    rw [leadingBlanks_append_of_solid hbr] at hblanks
    exact afterTemplate?_eq_some_iff.mpr (.inr ⟨eq_none_of_grown (separator?_append hn) hnone,
      hlead, r', hextends, hblanks, typed?_trimmed_cut List.tail hd hfound⟩)

private theorem getD_after?_append_space {start : Text} (hs : ' ' ∉ start) (x y : Text) :
    (after? start (x ++ ' ' :: y)).getD (x ++ ' ' :: y) = (after? start x).getD x ++ ' ' :: y := by
  rw [after?_append_space hs]
  cases after? start x <;> rfl

private theorem template?_suffix {t : Text} {h : Header} (hh : template? t = some h) :
    h.description <:+ trim t := by
  obtain ⟨-, type?, d, hparts, rfl⟩ := template?_eq_some_iff.mp hh
  exact (afterTemplate?_suffix hparts).trans (behindTemplate_suffix (trim t))

private theorem template?_cut {t t' : Text} {h : Header} (hd : d ≠ [])
    (ht : trim t = trim t' ++ ' ' :: y) (hh : template? t = some h)
    (hdesc : h.description = d ++ ' ' :: y) : template? t' = some { h with description := d } := by
  have htail : isIdentTail ' ' = false := by decide
  have hangle : ' ' ∉ ['<'] := by decide
  have hclose : ' ' ∉ ['>'] := by decide
  obtain ⟨hname, type?, e, hparts, rfl⟩ := template?_eq_some_iff.mp hh
  obtain rfl : e = d ++ ' ' :: y := hdesc
  rw [ht, getD_after?_append_space hangle, takeWhile_append_space htail] at hname
  rw [ht, getD_after?_append_space hangle, dropWhile_append_space htail,
    getD_after?_append_space hclose] at hparts
  refine template?_eq_some_iff.mpr ⟨hname, type?, d, afterTemplate?_cut hd hparts, ?_⟩
  rw [ht, getD_after?_append_space hangle, takeWhile_append_space htail]

/-! ### Nested fields -/

/-- What follows the braces of a line that ends solid has blanks at its start at most. -/
theorem trim_behind_braces {type rest t : Text} (ht : EndsSolid t)
    (hbraces : t = '{' :: (type ++ '}' :: rest)) : rest <:+ t ∧ trim rest = trimStart rest := by
  have hrest : rest <:+ t := by
    rw [hbraces]
    exact (List.suffix_cons '}' rest).trans
      ((List.suffix_append type _).trans (List.suffix_cons '{' _))
  exact ⟨hrest, trimEnd_solid ((ht.of_suffix hrest).of_suffix (trimStart_suffix rest))⟩

/-- The description behind a braced type stands at the end of its text. -/
theorem braced?_suffix {t : Text} {h : Header} (ht : EndsSolid t) (hh : braced? t = some h) :
    h.description <:+ t := by
  obtain ⟨type, rest, hbraces, -, -, d, hd, rfl⟩ := braced?_eq_some_iff.mp hh
  obtain ⟨hrest, htrim⟩ := trim_behind_braces ht hbraces
  have hname : d <:+ trim rest :=
    (untyped?_suffix hd).trans (behindName_suffix (trim rest))
  exact hname.trans (htrim ▸ (trimStart_suffix rest).trans hrest)

/-- A nested field with its type in braces, when its description is cut at a space. -/
theorem braced?_cut {h : Header} (hd : d ≠ []) (hx : EndsSolid x)
    (hwhole : EndsSolid (x ++ ' ' :: y)) (hh : braced? (x ++ ' ' :: y) = some h)
    (hdesc : h.description = d ++ ' ' :: y) : braced? x = some { h with description := d } := by
  have hchar : isNameChar ' ' = false := by decide
  obtain ⟨type, rest, hbraces, hbalanced, hname, e, he, rfl⟩ := braced?_eq_some_iff.mp hh
  obtain rfl : e = d ++ ' ' :: y := hdesc
  obtain ⟨-, htrim⟩ := trim_behind_braces hwhole hbraces
  have hsuffix : d ++ ' ' :: y <:+ trimStart rest := by
    rw [← htrim]
    exact (untyped?_suffix he).trans (behindName_suffix (trim rest))
  have hform : ('{' :: type ++ ['}']) ++ rest = x ++ ' ' :: y := by
    rw [hbraces]
    simp
  obtain ⟨r, rfl, rfl⟩ := exists_of_append_eq hform (hsuffix.trans (trimStart_suffix rest))
  have hbraces' : '{' :: type ++ ['}'] ++ r = '{' :: (type ++ '}' :: r) := by simp
  obtain ⟨-, htrim'⟩ := trim_behind_braces hx hbraces'
  by_cases hb : isBlankText r = true
  · exact absurd hsuffix (not_suffix_of_suffix hd (trimStart_append_suffix hb y))
  rw [htrim, trimStart_append_of_solid hb, ← htrim', takeWhile_append_space hchar] at hname
  rw [htrim, trimStart_append_of_solid hb, ← htrim', dropWhile_append_space hchar,
    flag_append_space] at he
  refine braced?_eq_some_iff.mpr ⟨type, r, hbraces', hbalanced, hname, d, untyped?_cut hd he, ?_⟩
  rw [htrim, trimStart_append_of_solid hb, ← htrim', takeWhile_append_space hchar,
    dropWhile_append_space hchar, flag_append_space]

end Header

/-- The description of a header stands at the end of its text. -/
theorem TagKind.header?_suffix {kind : TagKind} {rest : Text} {h : Header}
    (hh : kind.header? rest = some h) : h.description <:+ trim rest := by
  cases kind with
  | brief | usage => cases hh
  | param | property => exact Header.ofNamed?_suffix hh
  | «return» => exact Header.returned?_suffix hh
  | throws => exact Header.thrown?_suffix hh
  | template => exact Header.template?_suffix hh

/-- The header of a tag, when its description is cut at a space. -/
theorem TagKind.header?_cut {kind : TagKind} {rest rest' d y : Text} {h : Header} (hd : d ≠ [])
    (hrest : trim rest = trim rest' ++ ' ' :: y) (hh : kind.header? rest = some h)
    (hdesc : h.description = d ++ ' ' :: y) :
    kind.header? rest' = some { h with description := d } := by
  cases kind with
  | brief | usage => cases hh
  | param | property =>
    change Header.ofNamed? false (trim rest) = some h at hh
    rw [hrest] at hh
    exact Header.ofNamed?_cut hd hh hdesc
  | «return» => exact Header.returned?_cut hd hrest hh hdesc
  | throws => exact Header.thrown?_cut hd hrest hh hdesc
  | template => exact Header.template?_cut hd hrest hh hdesc

end DocContract
