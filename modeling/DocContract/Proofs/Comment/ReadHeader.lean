import DocContract.Proofs.Comment.Braces
import DocContract.Proofs.Text.Cut

/-!
# Headers that are read

A header that is read from one line is one that its tag, or its nested field, can express: names
and identifiers are of their shape, a type is tidy and holds no separator or has its braces
balanced, and a description is tidy.
-/

namespace DocContract

open Text

namespace Text

/-- A solid start inside a line that ends solid makes a tidy text. -/
theorem isTidy_of_suffix {t d : Text} (hn : '\n' ∉ t) (he : EndsSolid t) (hd : d <:+ t)
    (hs : StartsSolid d) : IsTidy d :=
  .of_ends hs (he.of_suffix hd) fun hm => hn (hd.mem hm)

private theorem trimmed?_eq_some {t u : Text} (h : trimmed? t = some u) : u = trim t ∧ u ≠ [] := by
  unfold trimmed? at h
  split at h
  · cases h
  · next c r hr =>
    cases h
    exact ⟨hr.symm, by simp⟩

/-- What stands behind a start stands at the end of the text. -/
theorem after?_suffix {start t rest : Text} (h : after? start t = some rest) : rest <:+ t :=
  ⟨start, (after?_eq_some_iff.mp h).symm⟩

end Text

namespace Header

/-! ### What the readers find -/

section Found

variable {bare : Bool} {t d : Text} {type? : Option Text} {h : Header}

/-- Behind a colon stands a type in front of a separator, or the dash of a separator alone. -/
theorem typed?_eq_some_iff {blanks : Text} : typed? bare blanks t = some (type?, d)
    ↔ ∃ c r, t = c :: r
      ∧ ((∃ rest, splitSeparator? bare r = some (rest, d) ∧ type? = some (c :: rest))
        ∨ splitSeparator? bare r = none ∧ c = '-' ∧ blanks.dropLast.any (· != '\n') = true
          ∧ afterDash? r = some d ∧ type? = none) := by
  constructor
  · intro hh
    cases t with
    | nil => cases hh
    | cons c r =>
      refine ⟨c, r, rfl, ?_⟩
      simp only [typed?] at hh
      split at hh
      · next rest e hsplit =>
        obtain ⟨rfl, rfl⟩ := Prod.mk.inj (Option.some.inj hh)
        exact .inl ⟨rest, hsplit, rfl⟩
      · next hnone =>
        split at hh
        · next hbare =>
          obtain ⟨hdash, hany⟩ := Bool.and_eq_true_iff.mp hbare
          obtain ⟨e, he, heq⟩ := Option.map_eq_some_iff.mp hh
          obtain ⟨rfl, rfl⟩ := Prod.mk.inj heq
          exact .inr ⟨hnone, beq_iff_eq.mp hdash, hany, he, rfl⟩
        · cases hh
  · rintro ⟨c, r, rfl, ⟨rest, hsplit, rfl⟩ | ⟨hnone, rfl, hany, hd, rfl⟩⟩
    · simp only [typed?, hsplit]
    · simp [typed?, hnone, hany, hd]

/-- Behind a name stands a colon with a type, or no type at all. -/
theorem afterName?_eq_some_iff : afterName? bare t = some (type?, d)
    ↔ (∃ r, trimStart t = ':' :: r ∧ typed? bare (leadingBlanks r) (trimStart r) = some (type?, d))
      ∨ (∀ r, trimStart t ≠ ':' :: r) ∧ untyped? bare t = some d ∧ type? = none := by
  unfold afterName?
  constructor
  · intro hh
    split at hh
    · next r hr => exact .inl ⟨r, hr, hh⟩
    · next hr =>
      obtain ⟨e, he, heq⟩ := Option.map_eq_some_iff.mp hh
      obtain ⟨rfl, rfl⟩ := Prod.mk.inj heq
      exact .inr ⟨hr, he, rfl⟩
  · rintro (⟨r, hr, hh⟩ | ⟨hr, he, rfl⟩)
    · rw [hr]
      exact hh
    · split
      · next r hr' => exact absurd hr' (hr r)
      · rw [he]
        rfl

/-- What a header with a name is made of. -/
theorem ofNamed?_eq_some_iff : ofNamed? bare t = some h
    ↔ isName (t.takeWhile isNameChar) = true
      ∧ ∃ type? d, afterName? bare (flag (t.dropWhile isNameChar)).2 = some (type?, d)
        ∧ h = ⟨some (t.takeWhile isNameChar), type?, (flag (t.dropWhile isNameChar)).1, d⟩ := by
  constructor
  · intro hh
    simp only [ofNamed?] at hh
    split at hh
    · next hname =>
      obtain ⟨⟨type?, d⟩, hparts, rfl⟩ := Option.map_eq_some_iff.mp hh
      exact ⟨hname, type?, d, hparts, rfl⟩
    · cases hh
  · rintro ⟨hname, type?, d, hparts, rfl⟩
    simp [ofNamed?, hname, hparts]

/-- A result begins with a colon and its type, or with a dash, or with a name. -/
theorem returned?_eq_some_iff : returned? t = some h
    ↔ (∃ r type? d, trim t = ':' :: r
        ∧ typed? false (leadingBlanks r) (trimStart r) = some (type?, d)
        ∧ h = ⟨none, type?, false, d⟩)
      ∨ (∃ r d, trim t = '-' :: r ∧ afterDash? r = some d ∧ h = ⟨none, none, false, d⟩)
      ∨ (∀ r, trim t ≠ ':' :: r) ∧ (∀ r, trim t ≠ '-' :: r) ∧ ofNamed? false (trim t) = some h := by
  unfold returned?
  constructor
  · intro hh
    split at hh
    · next r hr =>
      obtain ⟨⟨type?, d⟩, hparts, rfl⟩ := Option.map_eq_some_iff.mp hh
      exact .inl ⟨r, type?, d, hr, hparts, rfl⟩
    · next r hr =>
      obtain ⟨d, hd, rfl⟩ := Option.map_eq_some_iff.mp hh
      exact .inr (.inl ⟨r, d, hr, hd, rfl⟩)
    · next hcolon hdash => exact .inr (.inr ⟨hcolon, hdash, hh⟩)
  · rintro (⟨r, type?, d, hr, hparts, rfl⟩ | ⟨r, d, hr, hd, rfl⟩ | ⟨hcolon, hdash, hh⟩)
    · simp only [hr, hparts, Option.map_some]
    · simp only [hr, hd, Option.map_some]
    · split
      · next r hr => exact absurd hr (hcolon r)
      · next r hr => exact absurd hr (hdash r)
      · exact hh

/-- Behind the name of a template stands a separator, or its bound between blanks. -/
theorem afterTemplate?_eq_some_iff : afterTemplate? t = some (type?, d)
    ↔ (separator? t = some d ∧ type? = none)
      ∨ separator? t = none ∧ (leadingBlanks t).isEmpty = false
        ∧ ∃ r, after? "extends" (trimStart t) = some r ∧ (leadingBlanks r).isEmpty = false
          ∧ typed? false (leadingBlanks r).tail (trimStart r) = some (type?, d) := by
  unfold afterTemplate?
  constructor
  · intro hh
    split at hh
    · next e he =>
      obtain ⟨rfl, rfl⟩ := Prod.mk.inj (Option.some.inj hh)
      exact .inl ⟨he, rfl⟩
    · next hnone =>
      split at hh
      · cases hh
      next hlead =>
      split at hh
      · cases hh
      next r hr =>
      split at hh
      · cases hh
      next hblanks =>
      exact .inr ⟨hnone, Bool.eq_false_iff.mpr hlead, r, hr, Bool.eq_false_iff.mpr hblanks, hh⟩
  · rintro (⟨he, rfl⟩ | ⟨hnone, hlead, r, hr, hblanks, hh⟩)
    · simp only [he]
    · simp only [hnone, hlead, hr, hblanks, hh, Bool.false_eq_true, if_false]

/-- What the header of a template is made of, whose name may stand between angle brackets. -/
theorem template?_eq_some_iff : template? t = some h
    ↔ let u := (after? ['<'] (trim t)).getD (trim t)
      isIdentifier (u.takeWhile isIdentTail) = true
      ∧ ∃ type? d, afterTemplate? ((after? ['>'] (u.dropWhile isIdentTail)).getD
          (u.dropWhile isIdentTail)) = some (type?, d)
        ∧ h = ⟨some (u.takeWhile isIdentTail), type?, false, d⟩ := by
  constructor
  · intro hh
    simp only [template?] at hh
    split at hh
    · next hname =>
      obtain ⟨⟨type?, d⟩, hparts, rfl⟩ := Option.map_eq_some_iff.mp hh
      exact ⟨hname, type?, d, hparts, rfl⟩
    · cases hh
  · rintro ⟨hname, type?, d, hparts, rfl⟩
    simp only [template?, hname, if_true, hparts, Option.map_some]

end Found

/-! ### What stands behind what was read -/

private theorem flag_suffix (t : Text) : (flag t).2 <:+ t := by
  unfold flag
  split
  · exact List.suffix_cons _ _
  · exact List.suffix_refl _

/-- What stands behind a name stands at the end of the text. -/
theorem behindName_suffix (t : Text) : (flag (t.dropWhile isNameChar)).2 <:+ t :=
  (flag_suffix _).trans (List.dropWhile_suffix isNameChar)

/-- What stands behind a colon stands at the end of the text. -/
theorem behindColon_suffix {start : Char} {t r : Text} (h : trimStart t = start :: r) :
    trimStart r <:+ t :=
  (trimStart_suffix r).trans ((List.suffix_cons start r).trans (h ▸ trimStart_suffix t))

/-- What stands behind the word `extends` stands at the end of the text. -/
theorem behindExtends_suffix {start t r : Text} (h : after? start (trimStart t) = some r) :
    trimStart r <:+ t :=
  (trimStart_suffix r).trans ((after?_suffix h).trans (trimStart_suffix t))

/-- A text with or without a character in front. -/
theorem getD_after?_suffix (start t : Text) : (after? start t).getD t <:+ t := by
  cases h : after? start t with
  | none => exact List.suffix_refl _
  | some rest => exact after?_suffix h

/-- What stands behind a template name stands at the end of the text. -/
theorem behindTemplate_suffix (t : Text) :
    let u := (after? ['<'] t).getD t
    (after? ['>'] (u.dropWhile isIdentTail)).getD (u.dropWhile isIdentTail) <:+ t :=
  ((getD_after?_suffix ['>'] _).trans (List.dropWhile_suffix isIdentTail)).trans
    (getD_after?_suffix ['<'] t)

/-! ### Types and descriptions -/

private theorem holdsSeparator_of_cons {c : Char} {t : Text} (hc : isBlank c = false)
    (h : HoldsSeparator (c :: t)) : HoldsSeparator t := by
  obtain ⟨before, b, after, heq, hb, ha⟩ := h
  cases before with
  | nil =>
    rw [List.nil_append] at heq
    rw [(List.cons.inj heq).1, hb] at hc
    cases hc
  | cons x before => exact ⟨before, b, after, (List.cons.inj heq).2, hb, ha⟩

/-- What stands behind a dash is tidy. -/
theorem afterDash?_tidy {t d : Text} (hn : '\n' ∉ t) (he : EndsSolid t)
    (h : afterDash? t = some d) : IsTidy d := by
  obtain ⟨hd, hs, -, -⟩ := afterDash?_eq_some h
  exact isTidy_of_suffix hn he hd hs

private theorem Closes.tidy {bare : Bool} {tail d : Text} (hn : '\n' ∉ tail) (he : EndsSolid tail)
    (h : Closes bare tail d) : IsTidy d :=
  isTidy_of_suffix hn he h.suffix h.startsSolid

/-- The parts that are read behind a colon. -/
theorem typed?_sound {bare : Bool} {blanks t d : Text} {type? : Option Text} (hn : '\n' ∉ t)
    (he : EndsSolid t) (hs : StartsSolid t) (h : typed? bare blanks t = some (type?, d)) :
    (∀ type ∈ type?, IsType type) ∧ IsTidy d := by
  obtain ⟨c, r, rfl, hfound⟩ := typed?_eq_some_iff.mp h
  have hc : isBlank c = false := startsSolid_cons.mp hs
  have hnr : '\n' ∉ r := fun hm => hn (List.mem_cons_of_mem _ hm)
  have her : EndsSolid r := he.of_suffix (List.suffix_cons c r)
  rcases hfound with ⟨rest, hsplit, rfl⟩ | ⟨-, -, -, hd, rfl⟩
  · obtain ⟨tail, rfl, hclose, hsolid, hsep⟩ := splitSeparator?_sound hnr her hsplit
    constructor
    · rintro _ ⟨⟩
      refine ⟨by simp, .of_ends hs ?_ ?_, fun hh => hsep (holdsSeparator_of_cons hc hh)⟩
      · exact endsSolid_append_of (t := [c]) (by simpa using hc) hsolid
      · simp only [List.mem_cons, List.mem_append, not_or] at hn ⊢
        exact ⟨hn.1, hn.2.1⟩
    · apply hclose.tidy (fun hm => hnr (List.mem_append_right _ hm))
      exact her.of_suffix (List.suffix_append rest tail)
  · exact ⟨by simp, afterDash?_tidy hnr her hd⟩

private theorem untyped?_sound {bare : Bool} {t d : Text} (hn : '\n' ∉ t) (he : EndsSolid t)
    (h : untyped? bare t = some d) : IsTidy d := by
  unfold untyped? at h
  split at h
  · cases h
    exact isTidy_nil
  · have hclose : Closes bare t d := .inl h
    exact hclose.tidy hn he

private theorem afterName?_sound {bare : Bool} {t d : Text} {type? : Option Text} (hn : '\n' ∉ t)
    (he : EndsSolid t) (h : afterName? bare t = some (type?, d)) :
    (∀ type ∈ type?, IsType type) ∧ IsTidy d := by
  rcases afterName?_eq_some_iff.mp h with ⟨r, hr, hfound⟩ | ⟨-, hfound, rfl⟩
  · have hsuffix := behindColon_suffix hr
    exact typed?_sound (fun hm => hn (hsuffix.mem hm)) (he.of_suffix hsuffix)
      (startsSolid_trimStart r) hfound
  · exact ⟨by simp, untyped?_sound hn he hfound⟩

/-- The parts of a header with a name. -/
theorem ofNamed?_sound {bare : Bool} {t : Text} {h : Header} (hn : '\n' ∉ t) (he : EndsSolid t)
    (hh : ofNamed? bare t = some h) :
    (∃ name, h.name? = some name ∧ isName name = true) ∧ (∀ type ∈ h.type?, IsType type)
      ∧ IsTidy h.description := by
  obtain ⟨hname, type?, d, hparts, rfl⟩ := ofNamed?_eq_some_iff.mp hh
  have hsuffix := behindName_suffix t
  exact ⟨⟨_, rfl, hname⟩, afterName?_sound (fun hm => hn (hsuffix.mem hm))
    (he.of_suffix hsuffix) hparts⟩

/-! ### The kinds of tags -/

/-- Trimming a line without newline brings none in. -/
theorem not_mem_trim {t : Text} (hn : '\n' ∉ t) : '\n' ∉ trim t := fun hm => hn (mem_of_mem_trim hm)

private theorem returned?_sound {t : Text} {h : Header} (hn : '\n' ∉ t)
    (hh : returned? t = some h) : TagKind.return.Expresses h := by
  have hn' := not_mem_trim hn
  have he := endsSolid_trim t
  rcases returned?_eq_some_iff.mp hh with
    ⟨r, type?, d, hr, hparts, rfl⟩ | ⟨r, d, hr, hd, rfl⟩ | ⟨-, -, hnamed⟩
  · rw [hr] at hn' he
    have hsuffix : trimStart r <:+ ':' :: r := (trimStart_suffix r).trans (List.suffix_cons _ _)
    obtain ⟨htype, hd⟩ := typed?_sound (fun hm => hn' (hsuffix.mem hm)) (he.of_suffix hsuffix)
      (startsSolid_trimStart r) hparts
    exact ⟨⟨by simp, fun _ => rfl, htype⟩, hd⟩
  · rw [hr] at hn' he
    have htidy := afterDash?_tidy (fun hm => hn' (List.mem_cons_of_mem _ hm))
      (he.of_suffix (List.suffix_cons _ _)) hd
    exact ⟨⟨by simp, fun _ => rfl, by simp⟩, htidy⟩
  · obtain ⟨⟨name, hname, hn₁⟩, htype, hd⟩ := ofNamed?_sound hn' he hnamed
    refine ⟨⟨?_, ?_, htype⟩, hd⟩
    · intro name' hname'
      rw [hname] at hname'
      cases hname'
      exact hn₁
    · intro hnone
      rw [hname] at hnone
      cases hnone

private theorem afterKind?_sound {t d : Text} (hn : '\n' ∉ t) (he : EndsSolid t)
    (h : afterKind? t = some d) : IsTidy d := by
  simp only [afterKind?] at h
  split at h
  · next d' hd' =>
    cases h
    split at hd'
    · next r hr =>
      have hsuffix : r <:+ t := (List.suffix_cons '-' r).trans (hr ▸ trimStart_suffix t)
      exact afterDash?_tidy (fun hm => hn (hsuffix.mem hm)) (he.of_suffix hsuffix) hd'
    · cases hd'
  · exact afterDash?_tidy hn he h

/-- What the header of an error is made of. -/
theorem thrown?_eq_some_iff {t : Text} {h : Header} : thrown? t = some h
    ↔ ∃ kind rest, trim t = '{' :: (kind ++ '}' :: rest) ∧ kind ≠ [] ∧ '{' ∉ kind ∧ '}' ∉ kind
      ∧ ∃ d, afterKind? rest = some d ∧ h = ⟨trimmed? kind, none, false, d⟩ := by
  constructor
  · intro hh
    unfold thrown? at hh
    split at hh
    · next r hr =>
      simp only at hh
      split at hh
      · next rest hrest =>
        split at hh
        · cases hh
        · next hkind =>
          obtain ⟨d, hd, rfl⟩ := Option.map_eq_some_iff.mp hh
          simp only [Bool.or_eq_true, List.isEmpty_iff, decide_eq_true_eq, not_or] at hkind
          refine ⟨r.takeWhile (· != '}'), rest, ?_, hkind.1, hkind.2, ?_, d, hd, rfl⟩
          · rw [hr, ← hrest, List.takeWhile_append_dropWhile]
          · intro hm
            have hne := List.mem_takeWhile_imp hm
            simp at hne
      · cases hh
    · cases hh
  · rintro ⟨kind, rest, ht, hne, hopen, hclose, d, hd, rfl⟩
    have hsolid : ∀ c ∈ kind, (c != '}') = true := fun c hc =>
      bne_iff_ne.mpr fun he => hclose (he ▸ hc)
    have hstop : ∀ c ∈ ('}' :: rest).head?, (c != '}') = false := by simp
    have htake : (kind ++ '}' :: rest).takeWhile (· != '}') = kind := by
      rw [takeWhile_append_stop kind hstop, List.takeWhile_eq_self_iff.mpr hsolid]
    have hdrop : (kind ++ '}' :: rest).dropWhile (· != '}') = '}' :: rest := by
      rw [dropWhile_append_stop kind hstop, List.dropWhile_eq_nil_iff.mpr hsolid, List.nil_append]
    have hempty : kind.isEmpty = false := by simpa using hne
    rw [thrown?, ht]
    simp [htake, hdrop, hempty, hopen, hd]

private theorem thrown?_sound {t : Text} {h : Header} (hn : '\n' ∉ t) (hh : thrown? t = some h) :
    TagKind.throws.Expresses h := by
  obtain ⟨kind, rest, ht, -, hopen, hclose, d, hd, rfl⟩ := thrown?_eq_some_iff.mp hh
  have hline : '\n' ∉ '{' :: (kind ++ '}' :: rest) := ht ▸ not_mem_trim hn
  have hsuffix : rest <:+ '{' :: (kind ++ '}' :: rest) :=
    (List.suffix_cons '}' rest).trans ((List.suffix_append kind _).trans (List.suffix_cons '{' _))
  refine ⟨⟨?_, rfl, rfl⟩, afterKind?_sound (fun hm => hline (hsuffix.mem hm))
    ((ht ▸ endsSolid_trim t : EndsSolid _).of_suffix hsuffix) hd⟩
  intro kind' hkind
  obtain ⟨rfl, hne⟩ := trimmed?_eq_some hkind
  exact ⟨hne, isTidy_trim fun hm => hline (by simp [hm]), fun hm => hopen (mem_of_mem_trim hm),
    fun hm => hclose (mem_of_mem_trim hm)⟩

private theorem afterTemplate?_sound {t d : Text} {type? : Option Text} (hn : '\n' ∉ t)
    (he : EndsSolid t)
    (h : afterTemplate? t = some (type?, d)) : (∀ bound ∈ type?, IsType bound) ∧ IsTidy d := by
  rcases afterTemplate?_eq_some_iff.mp h with ⟨hd, rfl⟩ | ⟨-, -, r, hr, -, hfound⟩
  · have hclose : Closes false t d := .inl hd
    exact ⟨by simp, hclose.tidy hn he⟩
  · have hsuffix := behindExtends_suffix hr
    exact typed?_sound (fun hm => hn (hsuffix.mem hm)) (he.of_suffix hsuffix)
      (startsSolid_trimStart r) hfound

private theorem template?_sound {t : Text} {h : Header} (hn : '\n' ∉ t)
    (hh : template? t = some h) : TagKind.template.Expresses h := by
  obtain ⟨hname, type?, d, hparts, rfl⟩ := template?_eq_some_iff.mp hh
  have hsuffix := behindTemplate_suffix (trim t)
  obtain ⟨htype, hd⟩ := afterTemplate?_sound (fun hm => not_mem_trim hn (hsuffix.mem hm))
    ((endsSolid_trim t).of_suffix hsuffix) hparts
  exact ⟨⟨⟨_, rfl, hname⟩, rfl, htype⟩, hd⟩

end Header

/-- A header that is read can be expressed by tags of its kind. -/
theorem TagKind.header?_expresses {kind : TagKind} {rest : Text} {h : Header} (hn : '\n' ∉ rest)
    (hh : kind.header? rest = some h) : kind.Expresses h := by
  have hnamed : Header.named? rest = some h →
      (∃ name, h.name? = some name ∧ Header.isName name = true)
        ∧ (∀ type ∈ h.type?, Header.IsType type) ∧ IsTidy h.description :=
    Header.ofNamed?_sound (Header.not_mem_trim hn) (endsSolid_trim rest)
  cases kind with
  | brief => cases hh
  | usage => cases hh
  | param | property =>
    obtain ⟨hname, htype, hd⟩ := hnamed hh
    exact ⟨⟨hname, htype⟩, hd⟩
  | «return» => exact Header.returned?_sound hn hh
  | throws => exact Header.thrown?_sound hn hh
  | template => exact Header.template?_sound hn hh

/-! ### Nested fields -/

namespace Header

private theorem count_blanks {bs : Text} (h : ∀ b ∈ bs, isBlank b = true) {c : Char}
    (hc : isBlank c = false) : bs.count c = 0 := by
  rw [List.count_eq_zero]
  intro hm
  rw [h c hm] at hc
  cases hc

/-- Blanks at the ends do not matter to the balance of braces. -/
theorem isBalanced_trim {t : Text} (h : IsBalanced t) : IsBalanced (trim t) := by
  have hopen : isBlank '{' = false := by decide
  have hclose : isBlank '}' = false := by decide
  obtain ⟨bs, es, hbs, hes, heq⟩ := exists_trim_between t
  constructor
  · intro p hp
    have := h.1 (bs ++ p) (by
      conv => rhs; rw [heq]
      exact (List.prefix_append_right_inj bs).mpr (hp.trans (List.prefix_append _ _)))
    rwa [List.count_append, List.count_append, count_blanks hbs hopen, count_blanks hbs hclose,
      Nat.zero_add, Nat.zero_add] at this
  · have := h.2
    rw [heq] at this
    simpa only [List.count_append, count_blanks hbs hopen, count_blanks hbs hclose,
      count_blanks hes hopen, count_blanks hes hclose, Nat.zero_add, Nat.add_zero] using this

/-- What the header of a nested field with its type in braces is made of. -/
theorem braced?_eq_some_iff {t : Text} {h : Header} : braced? t = some h
    ↔ ∃ type rest, t = '{' :: (type ++ '}' :: rest) ∧ IsBalanced type
      ∧ isName ((trim rest).takeWhile isNameChar) = true
      ∧ ∃ d, untyped? true (flag ((trim rest).dropWhile isNameChar)).2 = some d
        ∧ h = ⟨some ((trim rest).takeWhile isNameChar), trimmed? type,
          (flag ((trim rest).dropWhile isNameChar)).1, d⟩ := by
  unfold braced?
  constructor
  · intro hh
    split at hh
    · cases hh
    · next type rest hsplit =>
      obtain ⟨ht, hbalanced⟩ := splitBraced?_eq_some_iff.mp hsplit
      simp only at hh
      split at hh
      · next hname =>
        obtain ⟨d, hd, rfl⟩ := Option.map_eq_some_iff.mp hh
        exact ⟨type, rest, ht, hbalanced, hname, d, hd, rfl⟩
      · cases hh
  · rintro ⟨type, rest, ht, hbalanced, hname, d, hd, rfl⟩
    rw [splitBraced?_eq_some_iff.mpr ⟨ht, hbalanced⟩]
    simp only [hname, if_true, hd, Option.map_some]

private theorem braced?_sound {t : Text} {h : Header} (hn : '\n' ∉ t) (hh : braced? t = some h) :
    Convention.braceTyped.Expresses h := by
  obtain ⟨type, rest, rfl, hbalanced, hname, d, hd, rfl⟩ := braced?_eq_some_iff.mp hh
  simp only [List.mem_cons, List.mem_append, not_or] at hn
  have hrest := not_mem_trim hn.2.2.2
  have hsuffix := behindName_suffix (trim rest)
  refine ⟨⟨_, rfl, hname⟩, ?_, untyped?_sound (fun hm => hrest (hsuffix.mem hm))
    ((endsSolid_trim rest).of_suffix hsuffix) hd⟩
  intro type' htype
  obtain ⟨rfl, hne⟩ := trimmed?_eq_some htype
  exact ⟨hne, isTidy_trim hn.2.1, isBalanced_trim hbalanced⟩

end Header

private theorem FieldLine.readContent_sound {content : Text} {h : Header} (hn : '\n' ∉ content)
    (he : EndsSolid content) (hh : (readContent content).2 = some h) :
    (readContent content).1.Expresses h := by
  unfold readContent at hh ⊢
  split at hh
  · exact Header.braced?_sound hn hh
  · obtain ⟨hname, htype, hd⟩ := Header.ofNamed?_sound hn he hh
    exact ⟨hname, htype, hd⟩

/-- What a nested field line is made of. -/
theorem FieldLine.parse?_eq_some_iff {line : Text} {field : FieldLine} : parse? line = some field
    ↔ ∃ c r marker, trimStart line = c :: r ∧ Marker.ofChar? c = some marker
      ∧ opensField r = true ∧ field = ⟨Text.indent line, marker, (readContent (trim r)).1,
        (readContent (trim r)).2⟩ := by
  unfold parse?
  constructor
  · intro h
    split at h
    · cases h
    · next c r hr =>
      split at h
      · cases h
      · next marker hm =>
        split at h
        · next ho => exact ⟨c, r, marker, hr, hm, ho, (Option.some.inj h).symm⟩
        · cases h
  · rintro ⟨c, r, marker, hr, hm, ho, rfl⟩
    rw [hr]
    simp only [hm, ho, if_true]

/-- A header that is read from a nested line can be expressed in the convention of the line. -/
theorem FieldLine.parse?_expresses {line : Text} {field : FieldLine} {h : Header}
    (hn : '\n' ∉ line) (hf : parse? line = some field) (hh : field.header? = some h) :
    field.convention.Expresses h := by
  obtain ⟨c, r, marker, hr, -, -, rfl⟩ := parse?_eq_some_iff.mp hf
  have hline : '\n' ∉ trimStart line := fun hm => hn (mem_of_mem_trimStart hm)
  have hcontent : '\n' ∉ trim r :=
    Header.not_mem_trim fun hm => hline (hr ▸ List.mem_cons_of_mem _ hm)
  exact readContent_sound hcontent (endsSolid_trim r) hh

end DocContract
