import DocContract.Comment.Header
import DocContract.Proofs.Text.Trim

/-!
# Separators

The first separator of a header ends its type, and what follows is the description. A type without
a separator is read whole from the written form, and every type that is read has none.
-/

namespace DocContract.Header

open Text

/-- Somewhere in the text stands a dash with a blank in front of it and a blank or the end of the
text behind it. -/
def HoldsSeparator (t : Text) : Prop :=
  ∃ before b after, t = before ++ b :: '-' :: after ∧ isBlank b = true ∧
    ∀ c ∈ after.head?, isBlank c = true

/-- A type that stands between a colon and a separator. -/
structure IsType (t : Text) : Prop where
  nonempty : t ≠ []
  tidy : IsTidy t
  unseparated : ¬ HoldsSeparator t

/-- The end of a header: a separator with its description, or nothing at all in a bare header. -/
def Closes (bare : Bool) (tail description : Text) : Prop :=
  separator? tail = some description ∨ (bare = true ∧ tail = [] ∧ description = [])

/-- A dash in front, with a blank or the end behind it. -/
def opensWithDash : Text → Bool
  | '-' :: after => after.head?.all isBlank
  | _ => false

/-- The check for a separator, from each character on. -/
def holdsSeparator : Text → Bool
  | [] => false
  | b :: r => isBlank b && opensWithDash r || holdsSeparator r

/-- A text opens with a dash when a blank or nothing follows its dash. -/
theorem opensWithDash_iff {t : Text} :
    opensWithDash t = true ↔ ∃ after, t = '-' :: after ∧ ∀ c ∈ after.head?, isBlank c = true := by
  unfold opensWithDash
  split
  · next after => simp [Option.all_eq_true]
  · next h => simpa using fun after hafter => absurd hafter (h after)

private theorem holdsSeparator_iff {t : Text} : holdsSeparator t = true ↔ HoldsSeparator t := by
  induction t with
  | nil => simp [holdsSeparator, HoldsSeparator]
  | cons b r ih =>
    rw [holdsSeparator, Bool.or_eq_true, Bool.and_eq_true, opensWithDash_iff, ih]
    constructor
    · rintro (⟨hb, after, rfl, ha⟩ | ⟨before, b', after, rfl, hb, ha⟩)
      · exact ⟨[], b, after, rfl, hb, ha⟩
      · exact ⟨b :: before, b', after, rfl, hb, ha⟩
    · rintro ⟨before, b', after, heq, hb, ha⟩
      cases before with
      | nil =>
        obtain ⟨rfl, rfl⟩ := List.cons.inj heq
        exact .inl ⟨hb, after, rfl, ha⟩
      | cons x before =>
        obtain ⟨rfl, rfl⟩ := List.cons.inj heq
        exact .inr ⟨before, b', after, rfl, hb, ha⟩

instance (t : Text) : Decidable (HoldsSeparator t) := decidable_of_iff _ holdsSeparator_iff

instance (t : Text) : Decidable (IsType t) :=
  decidable_of_iff (t ≠ [] ∧ IsTidy t ∧ ¬ HoldsSeparator t)
    ⟨fun h => ⟨h.1, h.2.1, h.2.2⟩, fun h => ⟨h.nonempty, h.tidy, h.unseparated⟩⟩

/-- A separator stays behind a further character. -/
theorem holdsSeparator_cons {c : Char} {t : Text} (h : HoldsSeparator t) :
    HoldsSeparator (c :: t) := by
  obtain ⟨before, b, after, rfl, hb, ha⟩ := h
  exact ⟨c :: before, b, after, rfl, hb, ha⟩

/-- A separator stays behind a further text. -/
theorem holdsSeparator_append {t : Text} (u : Text) (h : HoldsSeparator t) :
    HoldsSeparator (u ++ t) := by
  obtain ⟨before, b, after, rfl, hb, ha⟩ := h
  exact ⟨u ++ before, b, after, by rw [List.append_assoc], hb, ha⟩

/-- A separator stays in front of further blanks. -/
theorem HoldsSeparator.append_blanks {t bs : Text} (h : HoldsSeparator t)
    (hbs : ∀ c ∈ bs, isBlank c = true) : HoldsSeparator (t ++ bs) := by
  obtain ⟨before, b, after, rfl, hb, ha⟩ := h
  refine ⟨before, b, after ++ bs, by simp, hb, ?_⟩
  cases after with
  | nil => exact fun c hc => hbs c (List.mem_of_mem_head? hc)
  | cons c r => exact ha

/-- A dash behind blanks and in front of a blank or the end is a separator. -/
theorem holdsSeparator_dash {bs after : Text} (hne : bs ≠ []) (hbs : ∀ c ∈ bs, isBlank c = true)
    (ha : ∀ c ∈ after.head?, isBlank c = true) : HoldsSeparator (bs ++ '-' :: after) := by
  refine ⟨bs.dropLast, bs.getLast hne, after, ?_, hbs _ (List.getLast_mem hne), ha⟩
  rw [List.append_cons bs.dropLast, List.dropLast_concat_getLast]

/-! ### Behind the dash -/

/-- Behind a dash and a blank the text is taken without its leading blanks. -/
theorem afterDash?_blank {b : Char} {r : Text} (hb : isBlank b = true) (hr : '\n' ∉ trimStart r) :
    afterDash? (b :: r) = some (trimStart r) := by
  simp [afterDash?, hb, hr]

private theorem afterDash?_solid {c : Char} {r : Text} (hc : isBlank c = false) :
    afterDash? (c :: r) = none := by
  simp [afterDash?, hc]

/-- On one line, a dash is followed by a description when it stands alone. -/
theorem afterDash?_isSome {t : Text} (hn : '\n' ∉ t) (h : ∀ c ∈ t.head?, isBlank c = true) :
    (afterDash? t).isSome := by
  cases t with
  | nil => rfl
  | cons c r =>
    have hr : '\n' ∉ trimStart r := fun hm => hn (List.mem_cons_of_mem _ (mem_of_mem_trimStart hm))
    rw [afterDash?_blank (h c rfl) hr]
    rfl

/-- What is taken behind a dash stands at the end of the text, starts solid and holds no newline,
and a blank or nothing follows the dash. -/
theorem afterDash?_eq_some {t d : Text} (h : afterDash? t = some d) :
    d <:+ t ∧ StartsSolid d ∧ '\n' ∉ d ∧ ∀ c ∈ t.head?, isBlank c = true := by
  cases t with
  | nil =>
    cases h
    simp
  | cons c r =>
    by_cases hc : isBlank c = true
    · by_cases hn : '\n' ∈ trimStart r
      · simp [afterDash?, hc, hn] at h
      · rw [afterDash?_blank hc hn] at h
        cases h
        exact ⟨(trimStart_suffix r).trans (List.suffix_cons c r), startsSolid_trimStart r, hn,
          by simpa using hc⟩
    · rw [afterDash?_solid (Bool.eq_false_iff.mpr hc)] at h
      cases h

/-! ### One separator -/

/-- A separator that starts with blanks is read from its dash. -/
theorem separator?_dash {bs after : Text} (hne : bs ≠ []) (hbs : ∀ c ∈ bs, isBlank c = true) :
    separator? (bs ++ '-' :: after) = afterDash? after := by
  obtain ⟨b, r, rfl⟩ := List.exists_cons_of_ne_nil hne
  obtain ⟨hb, hr⟩ := List.forall_mem_cons.mp hbs
  have ht : trimStart (r ++ '-' :: after) = '-' :: after := by
    rw [trimStart_blanks_append hr]
    exact trimStart_cons_solid (by decide)
  simp [separator?, hb, ht]

/-- A text behind blanks starts with one. -/
theorem startsBlank_append {bs t : Text} (hne : bs ≠ []) (hbs : ∀ c ∈ bs, isBlank c = true) :
    ∀ c ∈ (bs ++ t).head?, isBlank c = true := by
  obtain ⟨b, r, rfl⟩ := List.exists_cons_of_ne_nil hne
  rintro c ⟨⟩
  exact hbs b List.mem_cons_self

private theorem separator?_solid {t : Text} (h : StartsSolid t) : separator? t = none := by
  cases t with
  | nil => rfl
  | cons c r => simp [separator?, startsSolid_cons.mp h]

/-- A separator is one blank or more, a dash and what a dash leaves. -/
theorem separator?_eq_some {t d : Text} (h : separator? t = some d) :
    ∃ bs after, t = bs ++ '-' :: after ∧ bs ≠ [] ∧ (∀ c ∈ bs, isBlank c = true) ∧
      afterDash? after = some d := by
  cases t with
  | nil => cases h
  | cons b r =>
    by_cases hb : isBlank b = true
    · simp only [separator?, hb, if_true] at h
      split at h
      · next after ha =>
        refine ⟨b :: leadingBlanks r, after, ?_, by simp, ?_, h⟩
        · rw [List.cons_append, ← ha, leadingBlanks_append_trimStart]
        · exact List.forall_mem_cons.mpr ⟨hb, fun c hc => isBlank_of_mem_leadingBlanks hc⟩
      · cases h
    · rw [separator?_solid (startsSolid_cons.mpr (Bool.eq_false_iff.mpr hb))] at h
      cases h

/-- What stands behind a separator stands at the end of the text. -/
theorem separator?_suffix {t d : Text} (h : separator? t = some d) : d <:+ t := by
  obtain ⟨bs, after, rfl, -, -, hd⟩ := separator?_eq_some h
  exact (afterDash?_eq_some hd).1.trans ⟨bs ++ ['-'], by simp⟩

/-- A text of blanks has no solid end. -/
theorem not_endsSolid_of_blanks {bs : Text} (hne : bs ≠ []) (hbs : ∀ c ∈ bs, isBlank c = true) :
    ¬ EndsSolid bs := by
  intro h
  have hl := List.getLast?_eq_some_getLast hne
  have hb := hbs _ (List.getLast_mem hne)
  rw [h _ hl] at hb
  cases hb

/-- No separator begins inside a text that ends solid and holds none, whatever follows. -/
theorem separator?_append_eq_none {t u : Text} (hne : t ≠ []) (he : EndsSolid t)
    (h : ¬ HoldsSeparator t) : separator? (t ++ u) = none := by
  cases hs : separator? (t ++ u) with
  | none => rfl
  | some d =>
    exfalso
    obtain ⟨bs, after, ht, hb, hbs, hd⟩ := separator?_eq_some hs
    -- The dash lies in `t`, because the blanks in front of it cannot reach the end of `t`.
    rcases List.append_eq_append_iff.mp ht with ⟨rest, hr, -⟩ | ⟨rest, rfl, hr⟩
    · refine not_endsSolid_of_blanks hne (fun c hc => hbs c ?_) he
      rw [hr]
      exact List.mem_append_left rest hc
    · cases rest with
      | nil => exact not_endsSolid_of_blanks hb hbs (by simpa using he)
      | cons x rest =>
        obtain ⟨rfl, rfl⟩ := List.cons.inj hr
        refine h (holdsSeparator_dash hb hbs fun c hc => ?_)
        apply (afterDash?_eq_some hd).2.2.2
        cases rest with
        | nil => cases hc
        | cons y r => exact hc

/-! ### The first separator -/

private theorem splitSeparator?_nil (bare : Bool) :
    splitSeparator? bare [] = if bare then some ([], []) else none := by
  with_unfolding_all rfl

/-- A text is split at its first separator, which must stand in its first line. -/
theorem splitSeparator?_cons (bare : Bool) (c : Char) (r : Text) :
    splitSeparator? bare (c :: r) =
      match separator? (c :: r) with
      | some d => some ([], d)
      | none =>
        if c == '\n' then none
        else (splitSeparator? bare r).map fun p => (c :: p.1, p.2) := by
  with_unfolding_all rfl

private theorem splitSeparator?_closes {bare : Bool} {tail d : Text} (h : Closes bare tail d) :
    splitSeparator? bare tail = some ([], d) := by
  rcases h with h | ⟨rfl, rfl, rfl⟩
  · cases tail with
    | nil => cases h
    | cons c r => simp [splitSeparator?_cons, h]
  · rfl

/-- What stands in front of the end of a header is split off whole. -/
theorem splitSeparator?_append {bare : Bool} {t tail d : Text} (hn : '\n' ∉ t) (he : EndsSolid t)
    (ht : ¬ HoldsSeparator t) (h : Closes bare tail d) :
    splitSeparator? bare (t ++ tail) = some (t, d) := by
  induction t with
  | nil => exact splitSeparator?_closes h
  | cons c r ih =>
    have hs := separator?_append_eq_none (u := tail) (by simp) he ht
    have hc : c ≠ '\n' := fun e => hn (e ▸ List.mem_cons_self)
    have hr : EndsSolid r := he.of_suffix (List.suffix_cons c r)
    rw [List.cons_append] at hs ⊢
    simp [splitSeparator?_cons, hs, hc,
      ih (fun hm => hn (List.mem_cons_of_mem _ hm)) hr fun hh => ht (holdsSeparator_cons hh)]

/-- The text in front of the first separator, and that no separator begins earlier. -/
theorem splitSeparator?_eq_some {bare : Bool} {t p d : Text}
    (h : splitSeparator? bare t = some (p, d)) :
    ∃ tail, t = p ++ tail ∧ Closes bare tail d ∧ '\n' ∉ p ∧
      ∀ u v, p = u ++ v → v ≠ [] → separator? (v ++ tail) = none := by
  induction t generalizing p with
  | nil =>
    cases bare with
    | false => simp [splitSeparator?_nil] at h
    | true =>
      simp only [splitSeparator?_nil, if_true, Option.some.injEq, Prod.mk.injEq] at h
      obtain ⟨rfl, rfl⟩ := h
      exact ⟨[], rfl, .inr ⟨rfl, rfl, rfl⟩, by simp, by simp⟩
  | cons c r ih =>
    rw [splitSeparator?_cons] at h
    split at h
    · next d' hs =>
      cases h
      exact ⟨c :: r, rfl, .inl hs, by simp, by simp⟩
    · next hs =>
      split at h
      · cases h
      · next hc =>
        obtain ⟨⟨q, d'⟩, hq, he⟩ := Option.map_eq_some_iff.mp h
        cases he
        obtain ⟨tail, rfl, hclose, hn, hfirst⟩ := ih hq
        have hcn : c ≠ '\n' := by simpa using hc
        refine ⟨tail, rfl, hclose, by simp [hn, Ne.symm hcn], ?_⟩
        intro u v huv hv
        cases u with
        | nil =>
          rw [List.nil_append] at huv
          rw [← huv]
          exact hs
        | cons x u =>
          obtain ⟨rfl, hq⟩ := List.cons.inj huv
          exact hfirst u v hq hv

/-- What closes a header starts with a blank or is empty. -/
theorem Closes.startsBlank {bare : Bool} {tail d : Text} (h : Closes bare tail d) :
    ∀ c ∈ tail.head?, isBlank c = true := by
  rcases h with h | ⟨-, rfl, -⟩
  · obtain ⟨bs, after, rfl, hb, hbs, -⟩ := separator?_eq_some h
    exact startsBlank_append hb hbs
  · simp

/-- The description that a header closes with stands at its end. -/
theorem Closes.suffix {bare : Bool} {tail d : Text} (h : Closes bare tail d) : d <:+ tail := by
  rcases h with h | ⟨-, rfl, rfl⟩
  · exact separator?_suffix h
  · exact List.suffix_refl _

/-- The description that a header closes with starts solid. -/
theorem Closes.startsSolid {bare : Bool} {tail d : Text} (h : Closes bare tail d) :
    StartsSolid d := by
  rcases h with h | ⟨-, rfl, rfl⟩
  · obtain ⟨bs, after, rfl, -, -, hd⟩ := separator?_eq_some h
    exact (afterDash?_eq_some hd).2.1
  · exact startsSolid_nil

/-- The first separator of a line splits off a text that holds none and ends solid, as long as the
line itself ends solid. -/
theorem splitSeparator?_sound {bare : Bool} {t p d : Text} (hn : '\n' ∉ t) (he : EndsSolid t)
    (h : splitSeparator? bare t = some (p, d)) :
    ∃ tail, t = p ++ tail ∧ Closes bare tail d ∧ EndsSolid p ∧ ¬ HoldsSeparator p := by
  obtain ⟨tail, rfl, hclose, -, hfirst⟩ := splitSeparator?_eq_some h
  have hne : ∀ v, separator? (v ++ tail) = none → ∀ b after, v ++ tail = b :: '-' :: after →
      isBlank b = true → (∀ c ∈ after.head?, isBlank c = true) → '\n' ∉ after → False := by
    intro v hv b after hva hb ha hna
    rw [hva] at hv
    have hd : separator? (b :: '-' :: after) = afterDash? after :=
      separator?_dash (List.cons_ne_nil b []) (by simpa using hb)
    have hs := afterDash?_isSome hna ha
    rw [← hd, hv] at hs
    cases hs
  refine ⟨tail, rfl, hclose, ?_, ?_⟩
  · intro c hc
    -- A blank in front of the separator would belong to it.
    cases hb : isBlank c with
    | false => rfl
    | true =>
      exfalso
      obtain ⟨init, rfl⟩ := List.getLast?_eq_some_iff.mp hc
      have hs := hfirst init [c] rfl (by simp)
      rcases hclose with hsep | ⟨-, rfl, -⟩
      · obtain ⟨bs, after, rfl, hbs, hblank, hd⟩ := separator?_eq_some hsep
        have hall : ∀ x ∈ c :: bs, isBlank x = true := List.forall_mem_cons.mpr ⟨hb, hblank⟩
        have heq : separator? (c :: bs ++ '-' :: after) = afterDash? after :=
          separator?_dash (List.cons_ne_nil c bs) hall
        rw [List.singleton_append, ← List.cons_append, heq, hd] at hs
        cases hs
      · have := he c (by simp)
        rw [hb] at this
        cases this
  · rintro ⟨before, b, after, rfl, hb, ha⟩
    have hs := hfirst before (b :: '-' :: after) rfl (by simp)
    refine hne _ hs b (after ++ tail) rfl hb ?_ ?_
    · intro c hc
      cases after with
      | nil => exact hclose.startsBlank c hc
      | cons x r => exact ha c hc
    · intro hm
      apply hn
      rcases List.mem_append.mp hm with hm | hm
      · exact List.mem_append_left _ (by simp [hm])
      · exact List.mem_append_right _ hm

/-! ### Lines without a separator -/

private theorem holdsSeparator_of_separator? {t d : Text} (h : separator? t = some d) :
    HoldsSeparator t := by
  obtain ⟨bs, after, rfl, hne, hbs, hd⟩ := separator?_eq_some h
  exact holdsSeparator_dash hne hbs (afterDash?_eq_some hd).2.2.2

/-- A line that does not begin with a separator holds those of the line behind its first
character. -/
theorem holdsSeparator_cons_iff {c : Char} {t : Text} (hn : '\n' ∉ t)
    (h : separator? (c :: t) = none) : HoldsSeparator (c :: t) ↔ HoldsSeparator t := by
  refine ⟨?_, holdsSeparator_cons⟩
  rintro ⟨before, b, after, heq, hb, ha⟩
  cases before with
  | nil =>
    exfalso
    obtain ⟨rfl, rfl⟩ := List.cons.inj heq
    have hsome := afterDash?_isSome (fun hm => hn (List.mem_cons_of_mem _ hm)) ha
    rw [← separator?_dash (List.cons_ne_nil c []) (List.forall_mem_singleton.mpr hb),
      List.singleton_append, h] at hsome
    cases hsome
  | cons x before => exact ⟨before, b, after, (List.cons.inj heq).2, hb, ha⟩

/-- No separator is found in a line exactly when the line holds none. -/
theorem splitSeparator?_eq_none_iff {t : Text} (hn : '\n' ∉ t) :
    splitSeparator? false t = none ↔ ¬ HoldsSeparator t := by
  induction t with
  | nil => exact iff_of_true rfl (by decide)
  | cons c r ih =>
    obtain ⟨hc, hr⟩ := not_or.mp (fun h => hn (List.mem_cons.mpr h))
    rw [splitSeparator?_cons]
    cases hs : separator? (c :: r) with
    | some d => exact iff_of_false (by simp) (not_not.mpr (holdsSeparator_of_separator? hs))
    | none =>
      rw [holdsSeparator_cons_iff hr hs, ← ih hr]
      simp [Ne.symm hc]

end DocContract.Header
