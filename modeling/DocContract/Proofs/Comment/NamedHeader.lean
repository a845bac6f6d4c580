import DocContract.Proofs.Comment.ReadHeader
import DocContract.Proofs.Comment.WrittenHeader

/-!
# Headers with a name

The grammar of the headers of parameters and properties, given by the ways in which a header may be
written. What is read from a line was written in one of these ways, and each of them is read back.
A separator is there in all of them, and the first one behind the first character of the type ends
the type.
-/

namespace DocContract.Header

open Text

variable {type? : Option Text} {s t u blanks tail d : Text}

/-! ### The ways to write a header -/

/-- Behind the dash: nothing, or blanks and a description. -/
inductive BehindDash : Text → Text → Prop
  | nothing : BehindDash [] []
  | described {gap d : Text} (hgap : gap ≠ []) (hblank : ∀ c ∈ gap, isBlank c = true)
      (hne : d ≠ []) (htidy : IsTidy d) : BehindDash d (gap ++ d)

/-- The end of a header: blanks, a dash and what stands behind it. -/
inductive Ending : Text → Text → Prop
  | mk {gap tail d : Text} (hgap : gap ≠ []) (hblank : ∀ c ∈ gap, isBlank c = true)
      (hdash : BehindDash d tail) : Ending d (gap ++ '-' :: tail)

/-- Behind the name and its flag: the type, unless it is left out, and the end. A colon without a
type takes two blanks, since the type could begin with the dash otherwise, and no separator after
the dash, which would make what is between them the type. -/
inductive BehindName : Option Text → Text → Text → Prop
  | untyped {d ending : Text} (h : Ending d ending) : BehindName none d ending
  | typed {before behind type d ending : Text} (hbefore : ∀ c ∈ before, isBlank c = true)
      (hbehind : ∀ c ∈ behind, isBlank c = true) (htype : IsType type) (h : Ending d ending) :
      BehindName (some type) d (before ++ ':' :: (behind ++ (type ++ ending)))
  | bareColon {before gap tail d : Text} (hbefore : ∀ c ∈ before, isBlank c = true)
      (hblank : ∀ c ∈ gap, isBlank c = true) (hgap : 2 ≤ gap.length)
      (hdash : BehindDash d tail) (hfirst : ¬ HoldsSeparator tail) :
      BehindName none d (before ++ ':' :: (gap ++ '-' :: tail))

/-- The ways to write a header with a name. -/
inductive WrittenAs : Header → Text → Prop
  | mk {name d text : Text} {type? : Option Text} {optional : Bool} (hname : isName name = true)
      (h : BehindName type? d text) :
      WrittenAs ⟨some name, type?, optional, d⟩
        (name ++ ((if optional then ['?'] else []) ++ text))

/-! ### The end -/

private theorem BehindDash.startsBlank (h : BehindDash d t) : ∀ c ∈ t.head?, isBlank c = true := by
  cases h with
  | nothing => simp
  | described hgap hblank => exact startsBlank_append hgap hblank

private theorem BehindDash.afterDash? (h : BehindDash d t) : Header.afterDash? t = some d := by
  cases h with
  | nothing => rfl
  | described hgap hblank hne htidy =>
    obtain ⟨b, r, rfl⟩ := List.exists_cons_of_ne_nil hgap
    obtain ⟨hb, hr⟩ := List.forall_mem_cons.mp hblank
    have ht : trimStart (r ++ d) = d := by
      rw [trimStart_blanks_append hr, trimStart_solid htidy.startsSolid]
    rw [List.cons_append, afterDash?_blank hb (by rw [ht]; exact htidy.oneLine), ht]

/-- What stands behind the dash is the description, with the blanks that belong there. -/
theorem afterDash?_iff (hn : '\n' ∉ t) (he : EndsSolid t) :
    afterDash? t = some d ↔ BehindDash d t := by
  constructor
  · intro h
    have htidy := afterDash?_tidy hn he h
    cases t with
    | nil =>
      cases h
      exact .nothing
    | cons b r =>
      have hb : isBlank b = true := (afterDash?_eq_some h).2.2.2 b rfl
      have hr : '\n' ∉ trimStart r := fun hm =>
        hn (List.mem_cons_of_mem _ (mem_of_mem_trimStart hm))
      rw [afterDash?_blank hb hr] at h
      cases h
      have hgap : ∀ c ∈ b :: leadingBlanks r, isBlank c = true :=
        List.forall_mem_cons.mpr ⟨hb, fun c => isBlank_of_mem_leadingBlanks⟩
      have hsplit : b :: r = (b :: leadingBlanks r) ++ trimStart r := by
        rw [List.cons_append, leadingBlanks_append_trimStart]
      rw [hsplit]
      refine .described (by simp) hgap (fun hnil => ?_) htidy
      -- Without a description the line would end with the blanks.
      rw [hsplit, hnil, List.append_nil] at he
      exact not_endsSolid_of_blanks (by simp) hgap he
  · exact BehindDash.afterDash?

/-- An ending has its description behind its separator. -/
theorem Ending.separator? (h : Ending d t) : Header.separator? t = some d := by
  cases h with
  | mk hgap hblank hdash => rw [separator?_dash hgap hblank, hdash.afterDash?]

/-- The end of a header is a separator with its description. -/
theorem separator?_iff (hn : '\n' ∉ t) (he : EndsSolid t) :
    separator? t = some d ↔ Ending d t := by
  constructor
  · intro h
    obtain ⟨gap, tail, rfl, hgap, hblank, hd⟩ := separator?_eq_some h
    have hsuffix : tail <:+ gap ++ '-' :: tail :=
      (List.suffix_cons '-' tail).trans (List.suffix_append gap _)
    exact .mk hgap hblank
      ((afterDash?_iff (fun hm => hn (hsuffix.mem hm)) (he.of_suffix hsuffix)).mp hd)
  · exact Ending.separator?

private theorem Ending.holdsSeparator (h : Ending d t) : HoldsSeparator t := by
  cases h with
  | mk hgap hblank hdash => exact holdsSeparator_dash hgap hblank hdash.startsBlank

/-- An ending is not empty and ends solid. -/
theorem Ending.endsSolid (h : Ending d t) : t ≠ [] ∧ EndsSolid t := by
  cases h with
  | mk hgap hblank hdash =>
    refine ⟨by simp, (endsSolid_append (by simp)).mpr ?_⟩
    cases hdash with
    | nothing => exact endsSolid_singleton.mpr (by decide)
    | described hgap hblank hne htidy =>
      exact (endsSolid_cons (by simp [hne])).mpr ((endsSolid_append hne).mpr htidy.endsSolid)

private theorem Ending.startsBlank (h : Ending d t) : ∀ c ∈ t.head?, isBlank c = true := by
  cases h with
  | mk hgap hblank hdash => exact startsBlank_append hgap hblank

/-! ### Behind the name -/

/-- What is read behind the colon and the blanks that follow it. -/
theorem typed?_eq_some (hn : '\n' ∉ t) (he : EndsSolid t)
    (hs : StartsSolid t) (h : typed? false blanks t = some (type?, d)) :
    (∃ type ending, type? = some type ∧ IsType type ∧ Ending d ending ∧ t = type ++ ending)
      ∨ type? = none ∧ ∃ tail, t = '-' :: tail ∧ 2 ≤ blanks.length ∧ BehindDash d tail
        ∧ ¬ HoldsSeparator tail := by
  obtain ⟨htype, -⟩ := typed?_sound hn he hs h
  obtain ⟨c, r, rfl, hfound⟩ := typed?_eq_some_iff.mp h
  have hr : '\n' ∉ r := fun hm => hn (List.mem_cons_of_mem _ hm)
  have her : EndsSolid r := he.of_suffix (List.suffix_cons c r)
  rcases hfound with ⟨rest, hsplit, rfl⟩ | ⟨hnone, rfl, hany, hd, rfl⟩
  · obtain ⟨ending, rfl, hclose, -, -⟩ := splitSeparator?_sound hr her hsplit
    have hsep : separator? ending = some d := hclose.resolve_right fun h => by cases h.1
    have hsuffix := List.suffix_append rest ending
    exact .inl ⟨c :: rest, ending, rfl, htype _ rfl, (separator?_iff
      (fun hm => hr (hsuffix.mem hm)) (her.of_suffix hsuffix)).mp hsep, rfl⟩
  · have hlength : 2 ≤ blanks.length := by
      obtain ⟨b, hb, -⟩ := List.any_eq_true.mp hany
      have hpos := List.length_pos_of_mem hb
      rw [List.length_dropLast] at hpos
      omega
    exact .inr ⟨rfl, r, rfl, hlength, (afterDash?_iff hr her).mp hd,
      (splitSeparator?_eq_none_iff hr).mp hnone⟩

/-- A lone dash behind two blanks is not the type when no separator follows. -/
theorem typed?_bare (hblanks : '\n' ∉ blanks) (hlength : 2 ≤ blanks.length) (hn : '\n' ∉ tail)
    (he : EndsSolid tail) (hdash : BehindDash d tail) (hfirst : ¬ HoldsSeparator tail) :
    typed? false blanks ('-' :: tail) = some (none, d) := by
  have hany : blanks.dropLast.any (· != '\n') = true := by
    have hne : blanks.dropLast ≠ [] := by
      rw [← List.length_pos_iff, List.length_dropLast]
      omega
    obtain ⟨b, r, hb⟩ := List.exists_cons_of_ne_nil hne
    have hmem : b ∈ blanks.dropLast := hb ▸ List.mem_cons_self
    refine List.any_eq_true.mpr ⟨b, hmem, bne_iff_ne.mpr ?_⟩
    rintro rfl
    exact hblanks (List.mem_of_mem_dropLast hmem)
  rw [typed?, (splitSeparator?_eq_none_iff hn).mpr hfirst]
  simp only [hany, beq_self_eq_true, Bool.and_self, if_true,
    (afterDash?_iff hn he).mpr hdash, Option.map_some]

/-- The type and the description are read from what was written behind the name. -/
theorem afterName?_iff (hn : '\n' ∉ t) (he : EndsSolid t) :
    afterName? false t = some (type?, d) ↔ BehindName type? d t := by
  constructor
  · intro h
    rcases afterName?_eq_some_iff.mp h with ⟨r, hr, hfound⟩ | ⟨-, hfound, rfl⟩
    · have ht : t = leadingBlanks t ++ ':' :: (leadingBlanks r ++ trimStart r) := by
        rw [leadingBlanks_append_trimStart, ← hr, leadingBlanks_append_trimStart]
      have hbefore : ∀ c ∈ leadingBlanks t, isBlank c = true :=
        fun c => isBlank_of_mem_leadingBlanks
      have hbehind : ∀ c ∈ leadingBlanks r, isBlank c = true :=
        fun c => isBlank_of_mem_leadingBlanks
      have hsuffix := behindColon_suffix hr
      obtain ⟨type, ending, rfl, htype, hend, htail⟩ | ⟨rfl, tail, htail, hlength, hdash, hfirst⟩ :=
        typed?_eq_some (fun hm => hn (hsuffix.mem hm)) (he.of_suffix hsuffix)
          (startsSolid_trimStart r) hfound
      · rw [ht, htail]
        exact .typed hbefore hbehind htype hend
      · rw [ht, htail]
        exact .bareColon hbefore hbehind hlength hdash hfirst
    · exact .untyped ((separator?_iff hn he).mp hfound)
  · intro h
    cases h with
    | untyped h => exact afterName?_untyped (.inl ((separator?_iff hn he).mpr h))
    | typed hbefore hbehind htype h =>
      rename_i before behind type ending
      refine afterName?_typed hbefore hbehind htype (.inl ((separator?_iff ?_ ?_).mpr h))
      · exact fun hm => hn (by simp [hm])
      · refine he.of_suffix ⟨before ++ ':' :: (behind ++ type), by simp⟩
    | bareColon hbefore hblank hlength hdash hfirst =>
      rename_i before gap tail
      have hs : trimStart (before ++ ':' :: (gap ++ '-' :: tail))
          = ':' :: (gap ++ '-' :: tail) := by
        rw [trimStart_blanks_append hbefore, trimStart_cons_solid (by decide)]
      have hstart : StartsSolid ('-' :: tail) := startsSolid_cons.mpr (by decide)
      simp only [afterName?, hs]
      rw [leadingBlanks_blanks_append hblank hstart, trimStart_blanks_append hblank,
        trimStart_solid hstart]
      refine typed?_bare ?_ hlength ?_ ?_ hdash hfirst
      · exact fun hm => hn (by simp [hm])
      · exact fun hm => hn (by simp [hm])
      · exact he.of_suffix ⟨before ++ ':' :: (gap ++ ['-']), by simp⟩

private theorem BehindName.holdsSeparator (h : BehindName type? d t) : HoldsSeparator t := by
  cases h with
  | untyped h => exact h.holdsSeparator
  | typed hbefore hbehind htype h =>
    exact holdsSeparator_append _ (holdsSeparator_cons
      (holdsSeparator_append _ (holdsSeparator_append _ h.holdsSeparator)))
  | bareColon hbefore hblank hlength hdash hfirst =>
    have hgap := List.ne_nil_of_length_pos (Nat.lt_of_lt_of_le Nat.two_pos hlength)
    exact holdsSeparator_append _ (holdsSeparator_cons
      (holdsSeparator_dash hgap hblank hdash.startsBlank))

/-- A blank or a colon stands behind the name and its flag. -/
theorem BehindName.stops (h : BehindName type? d t) :
    ∀ c ∈ t.head?, isNameChar c = false ∧ c ≠ '?' := by
  have hcolon : ∀ before rest : Text, (∀ c ∈ before, isBlank c = true) →
      ∀ c ∈ (before ++ ':' :: rest).head?, isNameChar c = false ∧ c ≠ '?' := by
    intro before rest hbefore c hc
    cases before with
    | nil =>
      cases hc
      decide
    | cons b r => exact stops_of_blank (hbefore c (by cases hc; exact List.mem_cons_self))
  cases h with
  | untyped h => exact fun c hc => stops_of_blank (h.startsBlank c hc)
  | typed hbefore => exact hcolon _ _ hbefore
  | bareColon hbefore => exact hcolon _ _ hbefore

private theorem BehindName.endsSolid (h : BehindName type? d t) : t ≠ [] ∧ EndsSolid t := by
  have hcons : ∀ before rest : Text, EndsSolid rest → rest ≠ [] →
      before ++ ':' :: rest ≠ [] ∧ EndsSolid (before ++ ':' :: rest) := fun before rest he hne =>
    ⟨by simp, (endsSolid_append (by simp)).mpr ((endsSolid_cons hne).mpr he)⟩
  cases h with
  | untyped h => exact h.endsSolid
  | typed hbefore hbehind htype h =>
    obtain ⟨hne, he⟩ := h.endsSolid
    exact hcons _ _ ((endsSolid_append (by simp [hne])).mpr ((endsSolid_append hne).mpr he))
      (by simp [hne])
  | bareColon hbefore hblank hlength hdash hfirst =>
    have hgap := List.ne_nil_of_length_pos (Nat.lt_of_lt_of_le Nat.two_pos hlength)
    obtain ⟨hne, he⟩ := (Ending.mk hgap hblank hdash).endsSolid
    exact hcons _ _ he hne

/-! ### The whole header -/

/-- A question mark is the flag. -/
theorem flag_append (t : Text) : t = (if (flag t).1 then ['?'] else []) ++ (flag t).2 := by
  unfold flag
  split <;> rfl

private theorem ofNamed?_iff {h : Header} (hn : '\n' ∉ t) (he : EndsSolid t) :
    ofNamed? false t = some h ↔ WrittenAs h t := by
  constructor
  · intro hh
    obtain ⟨hname, type?, d, hparts, rfl⟩ := ofNamed?_eq_some_iff.mp hh
    have hsuffix := behindName_suffix t
    have hbehind := (afterName?_iff (fun hm => hn (hsuffix.mem hm))
      (he.of_suffix hsuffix)).mp hparts
    have hwritten : WrittenAs ⟨some (t.takeWhile isNameChar), type?,
        (flag (t.dropWhile isNameChar)).1, d⟩ _ := .mk hname hbehind
    rwa [← flag_append, List.takeWhile_append_dropWhile] at hwritten
  · rintro ⟨hname, h⟩
    rename_i name d text type? optional
    have hsuffix : text <:+ name ++ ((if optional then ['?'] else []) ++ text) :=
      (List.suffix_append _ text).trans (List.suffix_append name _)
    exact ofNamed?_written hname h.stops
      ((afterName?_iff (fun hm => hn (hsuffix.mem hm)) (he.of_suffix hsuffix)).mpr h)

private theorem WrittenAs.holdsSeparator {h : Header} (hw : WrittenAs h t) : HoldsSeparator t := by
  cases hw with
  | mk hname h => exact holdsSeparator_append _ (holdsSeparator_append _ h.holdsSeparator)

private theorem WrittenAs.trim_between {h : Header} (hw : WrittenAs h t)
    (hs : ∀ c ∈ s, isBlank c = true) (hu : ∀ c ∈ u, isBlank c = true) :
    trim (s ++ (t ++ u)) = t := by
  cases hw with
  | mk hname h =>
    rename_i name d text type? optional
    obtain ⟨hne, he⟩ := h.endsSolid
    have hstart := startsSolid_append_of (u := (if optional then ['?'] else []) ++ text)
      (name_ne_nil hname) (isTidy_name hname).startsSolid
    have hend : EndsSolid (name ++ ((if optional then ['?'] else []) ++ text)) :=
      (endsSolid_append (by simp [hne])).mpr ((endsSolid_append hne).mpr he)
    exact Text.trim_between hs hu (by simp [name_ne_nil hname]) hstart hend

/-- A header is read from a line exactly when the line, trimmed, is a way to write it; with any
blanks around it, what is written is read back, and a line without a separator is rejected. -/
theorem named?_exact (hn : '\n' ∉ s) :
    (∀ h, named? s = some h → WrittenAs h (trim s))
      ∧ (∀ h before t behind, (∀ c ∈ before, isBlank c = true) → (∀ c ∈ behind, isBlank c = true) →
          WrittenAs h t → s = before ++ (t ++ behind) → named? s = some h)
      ∧ (¬ HoldsSeparator s → named? s = none) := by
  have hread : ∀ h, named? s = some h ↔ WrittenAs h (trim s) :=
    fun h => ofNamed?_iff (not_mem_trim hn) (endsSolid_trim s)
  refine ⟨fun h => (hread h).mp, ?_, ?_⟩
  · rintro h before t behind hbefore hbehind hw rfl
    rw [hread, hw.trim_between hbefore hbehind]
    exact hw
  · intro hnone
    refine Option.eq_none_iff_forall_ne_some.mpr fun h hh => hnone ?_
    obtain ⟨bs, es, -, hes, heq⟩ := exists_trim_between s
    rw [heq]
    exact holdsSeparator_append bs (((hread h).mp hh).holdsSeparator.append_blanks hes)

/-- A type and a description that begin with a dash. -/
theorem named?_dashesExample :
    '\n' ∉ (" order? :-1 | 1  - -1 is last " : Text)
      ∧ named? " order? :-1 | 1  - -1 is last "
        = some ⟨some "order", some "-1 | 1", true, "-1 is last"⟩ := by
  have hline : '\n' ∉ (" order? :-1 | 1  - -1 is last " : Text) := by decide +kernel
  have hspace : ∀ c ∈ [' '], isBlank c = true := List.forall_mem_singleton.mpr rfl
  have hspaces : ∀ c ∈ [' ', ' '], isBlank c = true := List.forall_mem_cons.mpr ⟨rfl, hspace⟩
  have hend : Ending "-1 is last" ([' ', ' '] ++ '-' :: ([' '] ++ "-1 is last")) :=
    .mk (by simp) hspaces
      (.described (by simp) hspace (by decide) ⟨by decide +kernel, by decide +kernel⟩)
  have hbehind : BehindName (some "-1 | 1") "-1 is last"
      ([' '] ++ ':' :: ([] ++ (("-1 | 1" : Text)
        ++ ([' ', ' '] ++ '-' :: ([' '] ++ "-1 is last"))))) :=
    .typed hspace (List.forall_mem_nil _) (by decide +kernel) hend
  have hwritten : WrittenAs ⟨some "order", some "-1 | 1", true, "-1 is last"⟩ _ :=
    .mk (by decide +kernel) hbehind
  exact ⟨hline, (named?_exact hline).2.1 _ [' '] _ [' '] hspace hspace hwritten rfl⟩

end DocContract.Header
