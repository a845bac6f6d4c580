import DocContract.Proofs.Comment.WrittenHeader

/-!
# Lines read from their written form

The header line of an expressible tag is a sigil line with the header that it was written from, and
the line of an expressible nested field is a field line with its header, its marker and its depth.
-/

namespace DocContract

open Text

/-! ### Sigil lines -/

namespace SigilLine

/-- A blank is no part of a tag name. -/
theorem not_isTagChar_of_isBlank {c : Char} (h : isBlank c = true) : isTagChar c = false := by
  rw [isTagChar, isWord_of_isBlank h, Bool.false_or, beq_eq_false_iff_ne]
  rintro rfl
  exact absurd h (by decide)

/-- What a sigil line is made of. -/
theorem parse?_eq_some_iff {t : Text} {sigil : SigilLine} : parse? t = some sigil
    ↔ ∃ c r, t = '@' :: c :: r ∧ c.isAlpha = true
      ∧ (∀ b ∈ (r.dropWhile isTagChar).head?, isBlank b = true)
      ∧ '\n' ∉ trimStart (r.dropWhile isTagChar)
      ∧ sigil = ⟨c :: r.takeWhile isTagChar, trimStart (r.dropWhile isTagChar)⟩ := by
  constructor
  · intro h
    unfold parse? at h
    split at h
    · next c r =>
      split at h
      · next hc =>
        refine ⟨c, r, rfl, hc, ?_⟩
        dsimp only at h
        split at h
        · next hd =>
          rw [hd]
          cases h
          simp
        · next b rest hd =>
          split at h
          · next hb =>
            obtain rfl := Option.some.inj h
            simp only [Bool.and_eq_true, Bool.not_eq_true', decide_eq_false_iff_not] at hb
            exact ⟨by rw [hd]; rintro _ ⟨⟩; exact hb.1, hb.2, rfl⟩
          · cases h
      · cases h
    · cases h
  · rintro ⟨c, r, rfl, hc, hblank, hn, rfl⟩
    simp only [parse?, hc, if_true]
    cases hd : r.dropWhile isTagChar with
    | nil => simp
    | cons b rest =>
      rw [hd] at hblank hn
      simp [hblank b rfl, hn]

/-- A text that is read as a sigil line begins with a sigil. -/
theorem isSigilText_of_parse? {t : Text} {l : SigilLine} (h : parse? t = some l) :
    IsSigilText t := by
  obtain ⟨c, r, rfl, hc, hblank, -, -⟩ := parse?_eq_some_iff.mp h
  refine ⟨c, r.takeWhile isTagChar, r.dropWhile isTagChar, ?_, hc,
    fun x hx => List.mem_takeWhile_imp hx, hblank⟩
  rw [List.takeWhile_append_dropWhile]

/-- What follows a sigil stands at the end of the text. -/
theorem rest_suffix {t : Text} {l : SigilLine} (h : parse? t = some l) : l.rest <:+ t := by
  obtain ⟨c, r, rfl, -, -, -, rfl⟩ := parse?_eq_some_iff.mp h
  exact (trimStart_suffix _).trans ((List.dropWhile_suffix _).trans
    ((List.suffix_cons c r).trans (List.suffix_cons _ _)))

/-- On one line, a text is a sigil line exactly when it looks like one. -/
theorem parse?_eq_none_iff {t : Text} (hn : '\n' ∉ t) : parse? t = none ↔ ¬ IsSigilText t := by
  constructor
  · rintro h ⟨c, word, rest, rfl, hc, hword, hrest⟩
    have hstop : ∀ x ∈ rest.head?, isTagChar x = false :=
      fun x hx => not_isTagChar_of_isBlank (hrest x hx)
    have htake := takeWhile_run hword hstop
    have hdrop := dropWhile_run hword hstop
    have hline : '\n' ∉ trimStart rest := fun hm =>
      hn (by simp [mem_of_mem_trimStart hm])
    simp only [parse?, hc, htake, hdrop, if_true] at h
    cases rest with
    | nil => cases h
    | cons b r => simp [hrest b rfl, hline] at h
  · intro h
    cases hp : parse? t with
    | none => rfl
    | some l => exact absurd (isSigilText_of_parse? hp) h

/-- A sigil with the name of a tag, and what stands behind it. -/
theorem parse?_written {c : Char} {word rest : Text} (hc : c.isAlpha = true)
    (hword : ∀ x ∈ word, isTagChar x = true) (hs : StartsSolid rest) (hn : '\n' ∉ rest) :
    parse? (withText ('@' :: c :: word) rest) = some ⟨c :: word, rest⟩ := by
  have hstop : ∀ x ∈ (' ' :: rest).head?, isTagChar x = false := by
    intro x hx
    cases hx
    decide
  cases rest with
  | nil =>
    have htake : word.takeWhile isTagChar = word := List.takeWhile_eq_self_iff.mpr hword
    have hdrop : word.dropWhile isTagChar = [] := List.dropWhile_eq_nil_iff.mpr hword
    simp [withText, parse?, hc, htake, hdrop]
  | cons d r =>
    have htake := takeWhile_run hword hstop
    have hdrop := dropWhile_run hword hstop
    have ht : trimStart (' ' :: d :: r) = d :: r := by
      rw [trimStart_space, trimStart_solid hs]
    have hb : isBlank ' ' = true := by decide
    simp [Tag.withText_cons, parse?, hc, htake, hdrop, ht, hb, hn]

end SigilLine

namespace TagKind

/-- Every kind but the brief is found by the sigil that it is written with. -/
theorem ofSigil?_name {kind : TagKind} (h : kind ≠ .brief) : ofSigil? kind.name = some kind := by
  cases kind <;> first | exact absurd rfl h | decide

/-- The name of a kind is one that can stand behind a sigil, and not that of the marker. -/
theorem name_cons (kind : TagKind) :
    ∃ c word, kind.name = c :: word ∧ c.isAlpha = true
      ∧ (∀ x ∈ word, SigilLine.isTagChar x = true) := by
  cases kind <;> exact ⟨_, _, rfl, by decide, forall_mem_of_all (by decide)⟩

/-- No kind of tag is called `async`. -/
theorem name_ne_async (kind : TagKind) : kind.name ≠ "async".toList := by
  cases kind <;> decide

end TagKind

/-! ### The header of each kind -/

namespace Header

private theorem returned?_named {t : Text} {c : Char} {r : Text} (ht : trim t = c :: r)
    (hc : isNameChar c = true) : returned? t = ofNamed? false (c :: r) := by
  unfold returned?
  rw [ht]
  split
  · next heq => cases heq; exact absurd hc (by decide)
  · next heq => cases heq; exact absurd hc (by decide)
  · rfl

/-- The type of a result without a name is written tidily. -/
theorem isTidy_colonTyped {type d : Text} (ht : IsType type) (hd : IsTidy d) :
    IsTidy (':' :: ' ' :: (type ++ ' ' :: dashed d)) := by
  have hrest := join_dashed_tidy ht.tidy ht.nonempty hd
  exact (isTidy_singleton (by decide)).join_space hrest (by simp) (by simp)

/-- The type of a result without a name is read behind its colon. -/
theorem returned?_typed {type d : Text} (ht : IsType type) (hd : IsTidy d) :
    returned? (':' :: ' ' :: (type ++ ' ' :: dashed d)) = some ⟨none, some type, false, d⟩ := by
  have htrim := (isTidy_colonTyped ht hd).trimmed
  have hstart : StartsSolid (type ++ ' ' :: dashed d) :=
    startsSolid_append_of ht.nonempty ht.tidy.startsSolid
  have htyped : typed? false [' '] (type ++ ' ' :: dashed d) = some (some type, d) :=
    typed?_written ht (closes_dashed hd)
  have hblank : ∀ c ∈ [' '], isBlank c = true := List.forall_mem_singleton.mpr rfl
  have hlead : leadingBlanks (' ' :: (type ++ ' ' :: dashed d)) = [' '] :=
    leadingBlanks_blanks_append hblank hstart
  have hrest : trimStart (' ' :: (type ++ ' ' :: dashed d)) = type ++ ' ' :: dashed d := by
    rw [trimStart_space, trimStart_solid hstart]
  simp [returned?, htrim, hlead, hrest, htyped]

/-- A result with neither a name nor a type is read from its description. -/
theorem returned?_dashed {d : Text} (hd : IsTidy d) :
    returned? (dashed d) = some ⟨none, none, false, d⟩ := by
  obtain ⟨r, hr, ha⟩ := afterDash?_dashed hd
  have htrim := (dashed_tidy hd).trimmed
  rw [hr] at htrim ⊢
  simp [returned?, htrim, ha]

/-- The error kind and the description behind it; a lone dash in front of the description goes. -/
theorem thrown?_written {kind d : Text} (hk : IsErrorKind kind) (hd : IsTidy d) :
    thrown? (withText ('{' :: (kind ++ ['}'])) d) = some ⟨some kind, none, false, undashed d⟩ := by
  have htidy : IsTidy (withText ('{' :: (kind ++ ['}'])) d) :=
    withText_tidy (by simp) (.cons (by decide) (hk.tidy.append (isTidy_singleton (by decide)))) hd
  have hkind : ∀ c ∈ kind, (c != '}') = true := fun c hc => by
    simpa using fun e : c = '}' => hk.unclosed (e ▸ hc)
  have hempty : kind.isEmpty = false := by simpa using hk.nonempty
  obtain ⟨tail, htail, hafter⟩ : ∃ tail, withText ('{' :: (kind ++ ['}'])) d
      = '{' :: (kind ++ '}' :: tail) ∧ afterKind? tail = some (undashed d) := by
    cases d with
    | nil => exact ⟨[], by simp [withText], rfl⟩
    | cons c r =>
      refine ⟨' ' :: c :: r, by simp [Tag.withText_cons], ?_⟩
      have hdesc := afterDash?_space hd
      have hstart : trimStart (' ' :: c :: r) = c :: r := by
        rw [trimStart_space, trimStart_solid hd.startsSolid]
      unfold afterKind? undashed
      rw [hstart]
      by_cases hc : c = '-'
      · subst hc
        cases hr : afterDash? r with
        | none => simp [hr, hdesc]
        | some d' => simp [hr]
      · split
        · next h => simp_all
        · simp_all
  have hstop : ∀ c ∈ ('}' :: tail).head?, (c != '}') = false := by simp
  unfold thrown?
  rw [htidy.trimmed, htail]
  simp [takeWhile_run hkind hstop, dropWhile_run hkind hstop, hempty, hk.unopened, hafter,
    trimmed?_tidy hk.nonempty hk.tidy]

/-- Braces with nothing between them are no error kind. -/
theorem thrown?_empty {d : Text} (hd : IsTidy d) :
    thrown? (withText ['{', '}'] d) = none := by
  have htidy : IsTidy (withText ['{', '}'] d) :=
    withText_tidy (by simp) (by decide) hd
  unfold thrown?
  rw [htidy.trimmed]
  cases d with
  | nil => rfl
  | cons c r => simp [Tag.withText_cons]

/-- The name of a template is not followed by more of a name or by a bracket. -/
theorem template?_written {name tail d : Text} {type? : Option Text}
    (hname : isIdentifier name = true) (htidy : IsTidy (name ++ ' ' :: tail))
    (h : afterTemplate? (' ' :: tail) = some (type?, d)) :
    template? (name ++ ' ' :: tail) = some ⟨some name, type?, false, d⟩ := by
  have hstop : ∀ c ∈ (' ' :: tail).head?, isIdentTail c = false := by
    intro c hc
    cases hc
    decide
  have htake := takeWhile_run (fun c hc => isIdentTail_of_mem hname hc) hstop
  have hdrop := dropWhile_run (fun c hc => isIdentTail_of_mem hname hc) hstop
  obtain ⟨c, r, rfl, hc⟩ := exists_identHead hname
  have hangle : after? ['<'] (c :: r ++ ' ' :: tail) = none := by
    have : ¬ '<' = c := by
      rintro rfl
      exact absurd hc (by decide)
    simp [after?, this]
  have hclose : after? ['>'] (' ' :: tail) = none := by simp [after?]
  unfold template?
  rw [htidy.trimmed]
  simp only [hangle, Option.getD_none, htake, hname, if_true, hdrop, hclose, h]
  rfl

private theorem afterTemplate?_plain {d : Text} (hd : IsTidy d) :
    afterTemplate? (' ' :: dashed d) = some (none, d) := by
  simp [afterTemplate?, separator?_dashed hd]

/-- The bound of a template stands behind a word and is read like a type. -/
theorem afterTemplate?_bound {bound tail d : Text} (hb : IsType bound)
    (h : Closes false tail d) :
    afterTemplate? (' ' :: ("extends".toList ++ ' ' :: (bound ++ tail)))
      = some (some bound, d) := by
  have hstart : StartsSolid (bound ++ tail) :=
    startsSolid_append_of hb.nonempty hb.tidy.startsSolid
  have hbe : isBlank 'e' = false := by decide
  have hbs : isBlank ' ' = true := by decide
  have hblank : ∀ c ∈ [' '], isBlank c = true := List.forall_mem_singleton.mpr rfl
  have hlead : leadingBlanks (' ' :: (bound ++ tail)) = [' '] :=
    leadingBlanks_blanks_append hblank hstart
  have hsep : separator? (' ' :: ("extends".toList ++ ' ' :: (bound ++ tail))) = none := by
    simp [separator?, trimStart, hbe, hbs]
  have hword : after? "extends" (trimStart (' ' :: ("extends".toList ++ ' ' :: (bound ++ tail))))
      = some (' ' :: (bound ++ tail)) := by
    simp [trimStart, hbe, hbs, after?]
  unfold afterTemplate?
  rw [hsep]
  simp only [hword, hlead]
  rw [trimStart_space, trimStart_solid hstart]
  exact typed?_written hb h

end Header

namespace Tag

/-- A type between braces is tidy. -/
theorem typeClause_tidy {t : Tag} (h : ∀ type ∈ t.type?, Header.IsType type) :
    IsTidy t.typeClause := by
  unfold typeClause
  split
  · exact isTidy_nil
  · next type ht =>
    have htype := h type ht
    exact (isTidy_singleton (by decide)).join_space htype.tidy (by simp) htype.nonempty

/-- The header that is read from the header line of a tag. -/
def reheader? (t : Tag) : Option Header :=
  match t.kind with
  | .brief | .usage => none
  | .throws => t.name?.map fun _ => { t.header with description := undashed t.description }
  | _ => some t.header

/-- A tag that can have fields is read with its header. -/
theorem reheader?_of_acceptsChildren {t : Tag} (h : t.kind.acceptsChildren = true) :
    t.reheader? = some t.header := by
  unfold reheader?
  cases hk : t.kind <;> simp [hk, TagKind.acceptsChildren] at h ⊢

/-- A name with the parts that follow it is written tidily. -/
theorem parts_tidy {t : Tag} {name : Text} (hn : t.name? = some name)
    (hname : Header.isName name = true) (ht : ∀ type ∈ t.type?, Header.IsType type)
    (hd : IsTidy t.description) :
    IsTidy (t.flaggedName ++ (t.typeClause ++ ' ' :: dashed t.description)) := by
  have hhead := (flaggedName_tidy hn hname).append (typeClause_tidy ht)
  rw [← List.append_assoc]
  refine join_dashed_tidy hhead ?_ hd
  simp [flaggedName, nameText, hn, Header.name_ne_nil hname]

/-- The bound of a template is written tidily. -/
theorem bound_tidy {bound d : Text} (hb : Header.IsType bound) (hd : IsTidy d) :
    IsTidy ("extends".toList ++ ' ' :: (bound ++ ' ' :: dashed d)) := by
  have hrest := join_dashed_tidy hb.tidy hb.nonempty hd
  have hword : IsTidy "extends".toList := by decide
  exact hword.join_space hrest (by decide) (by simp)

/-- What stands behind the sigil of an expressible tag is tidy. -/
theorem sigilRest_tidy {t : Tag} (h : t.kind.Expresses t.header) : IsTidy t.sigilRest := by
  have hd : IsTidy t.description := h.description
  have hp := h.places
  unfold sigilRest
  cases hk : t.kind with
  | brief => exact isTidy_nil
  | usage => exact hd
  | param | property =>
    rw [hk] at hp
    obtain ⟨⟨name, hn, hname⟩, ht⟩ := hp
    exact parts_tidy hn hname ht hd
  | «return» =>
    rw [hk] at hp
    obtain ⟨hname, -, ht⟩ := hp
    cases hn : t.name? with
    | some name => exact parts_tidy hn (hname name hn) ht hd
    | none =>
      cases hty : t.type? with
      | none => exact dashed_tidy hd
      | some type => exact Header.isTidy_colonTyped (ht type hty) hd
  | throws =>
    rw [hk] at hp
    obtain ⟨hkind, -, -⟩ := hp
    have hname : IsTidy t.nameText := by
      unfold nameText
      cases hn : t.name? with
      | none => exact isTidy_nil
      | some kind => exact (hkind kind hn).tidy
    exact withText_tidy (by simp)
      (.cons (by decide) (hname.append (isTidy_singleton (by decide)))) hd
  | template =>
    rw [hk] at hp
    obtain ⟨⟨name, hn, hname⟩, -, ht⟩ := hp
    have hn' : t.nameText = name := by
      have hn : t.name? = some name := hn
      rw [nameText, hn, Option.getD_some]
    have hident : IsTidy t.nameText := hn' ▸ Header.isTidy_identifier hname
    have hnn : t.nameText ≠ [] := by
      obtain ⟨c, r, rfl, -⟩ := Header.exists_identHead hname
      simp [hn']
    cases hty : t.type? with
    | none => exact join_dashed_tidy hident hnn hd
    | some bound => exact hident.join_space (bound_tidy (ht bound hty) hd) hnn (by simp)

/-- A result with a name is read like a parameter. -/
theorem returned?_flaggedName {t : Tag} {name rest : Text} (hn : t.name? = some name)
    (hname : Header.isName name = true) (htidy : IsTidy (t.flaggedName ++ rest)) :
    Header.returned? (t.flaggedName ++ rest) = Header.ofNamed? false (t.flaggedName ++ rest) := by
  obtain ⟨c, r, hcons, hc⟩ := Header.name_head hname
  obtain ⟨r', hr'⟩ : ∃ r', t.flaggedName ++ rest = c :: r' := by
    simp [flaggedName, nameText, hn, hcons]
  have hchar : Header.isNameChar c = true :=
    Header.isNameChar_of_mem hname (by rw [hcons]; exact List.mem_cons_self)
  rw [Header.returned?_named (htidy.trimmed.trans hr') hchar, hr']

/-- The header of a tag with a sigil is read as it was, apart from that of an error. -/
theorem header?_sigilRest {t : Tag} (h : t.kind.Expresses t.header) :
    t.kind.header? t.sigilRest = t.reheader? := by
  have hd : IsTidy t.description := h.description
  have hp := h.places
  have htidy := sigilRest_tidy h
  have hdash : Header.Closes false (' ' :: dashed t.description) t.description :=
    Header.closes_dashed hd
  have hparts : ∀ name, t.name? = some name → Header.isName name = true →
      (∀ type ∈ t.type?, Header.IsType type) →
      Header.ofNamed? false (t.flaggedName ++ (t.typeClause ++ ' ' :: dashed t.description))
        = some t.header :=
    fun name hn hname ht => ofNamed?_parts hn hname ht hdash
  unfold TagKind.header? reheader?
  unfold sigilRest at htidy ⊢
  cases hk : t.kind with
  | brief | usage => rfl
  | param | property =>
    rw [hk] at hp htidy
    obtain ⟨⟨name, hn, hname⟩, ht⟩ := hp
    dsimp only at htidy ⊢
    rw [Header.named?, htidy.trimmed]
    exact hparts name hn hname ht
  | «return» =>
    rw [hk] at hp htidy
    obtain ⟨hname, hflag, ht⟩ := hp
    cases hn : t.name? with
    | some name =>
      rw [hn] at htidy
      dsimp only at htidy ⊢
      rw [returned?_flaggedName hn (hname name hn) htidy]
      exact hparts name hn (hname name hn) ht
    | none =>
      have ho : t.optional = false := hflag hn
      cases hty : t.type? with
      | none => simp [Header.returned?_dashed hd, header, hn, hty, ho]
      | some type => simp [Header.returned?_typed (ht type hty) hd, header, hn, hty, ho]
  | throws =>
    rw [hk] at hp
    obtain ⟨hkind, ht, ho⟩ := hp
    cases hn : t.name? with
    | none =>
      simp only [nameText, hn, Option.getD_none, List.nil_append, Option.map_none]
      exact Header.thrown?_empty hd
    | some kind =>
      simp only [nameText, hn, Option.getD_some, Option.map_some]
      rw [Header.thrown?_written (hkind kind hn) hd]
      have ht' : t.type? = none := ht
      have ho' : t.optional = false := ho
      simp [header, hn, ht', ho']
  | template =>
    rw [hk] at hp htidy
    obtain ⟨⟨name, hn, hname⟩, ho, ht⟩ := hp
    have hn' : t.name? = some name := hn
    have ho' : t.optional = false := ho
    cases hty : t.type? with
    | none =>
      simp only [hty, nameText, hn', Option.getD_some] at htidy ⊢
      rw [Header.template?_written hname htidy (Header.afterTemplate?_plain hd)]
      simp [header, hn', hty, ho']
    | some bound =>
      simp only [hty, nameText, hn', Option.getD_some] at htidy ⊢
      rw [Header.template?_written hname htidy (Header.afterTemplate?_bound (ht bound hty) hdash)]
      simp [header, hn', hty, ho']

end Tag

end DocContract
