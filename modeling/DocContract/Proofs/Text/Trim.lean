import DocContract.Text
import DocContract.Proofs.Lists

/-!
# Trimmed texts

A text is trimmed when neither end of it is blank. Trimming gives such a text, leaves such a text
alone and takes nothing but blanks away. A tidy text is trimmed and lies on one line; names, types,
descriptions and paragraphs are kept in that form.
-/

namespace DocContract.Text

/-- What holds of every character of a given text is computed. -/
theorem forall_mem_of_all {t : Text} {p : Char → Prop} [DecidablePred p]
    (h : (t.all fun c => decide (p c)) = true) : ∀ c ∈ t, p c := by
  simpa using h

/-- The text does not begin with a blank. -/
def StartsSolid (t : Text) : Prop := ∀ c ∈ t.head?, isBlank c = false

/-- The text does not end with a blank. -/
def EndsSolid (t : Text) : Prop := ∀ c ∈ t.getLast?, isBlank c = false

/-- A trimmed text on one line. -/
structure IsTidy (t : Text) : Prop where
  trimmed : trim t = t
  oneLine : '\n' ∉ t

instance (t : Text) : Decidable (EndsSolid t) :=
  decidable_of_iff (t.getLast?.all fun c => !isBlank c)
    (by simp [EndsSolid, Option.all_eq_true])

instance (t : Text) : Decidable (IsTidy t) :=
  decidable_of_iff (trim t = t ∧ '\n' ∉ t) ⟨fun h => ⟨h.1, h.2⟩, fun h => ⟨h.trimmed, h.oneLine⟩⟩

/-! ### The two ends of a text -/

/-- The empty text starts solid. -/
@[simp] theorem startsSolid_nil : StartsSolid [] := by simp [StartsSolid]

/-- The empty text ends solid. -/
@[simp] theorem endsSolid_nil : EndsSolid [] := by simp [EndsSolid]

/-- A text starts solid when its first character is not blank. -/
@[simp] theorem startsSolid_cons {c : Char} {t : Text} :
    StartsSolid (c :: t) ↔ isBlank c = false := by
  simp [StartsSolid]

private theorem endsSolid_reverse {t : Text} : EndsSolid t.reverse ↔ StartsSolid t := by
  simp [EndsSolid, StartsSolid]

private theorem startsSolid_reverse {t : Text} : StartsSolid t.reverse ↔ EndsSolid t := by
  simp [EndsSolid, StartsSolid]

/-- A character ends solid when it is not blank. -/
@[simp] theorem endsSolid_singleton {c : Char} : EndsSolid [c] ↔ isBlank c = false := by
  simp [EndsSolid]

/-- A joined text ends as its last part does. -/
theorem endsSolid_append {t u : Text} (hu : u ≠ []) : EndsSolid (t ++ u) ↔ EndsSolid u := by
  cases h : u.getLast? with
  | none => exact absurd (List.getLast?_eq_none_iff.mp h) hu
  | some c => simp [EndsSolid, List.getLast?_append, h]

/-- A character in front does not change how a text ends. -/
theorem endsSolid_cons {c : Char} {t : Text} (ht : t ≠ []) : EndsSolid (c :: t) ↔ EndsSolid t :=
  endsSolid_append (t := [c]) ht

/-- A part of a text at its end has the same last character. -/
theorem EndsSolid.of_suffix {t u : Text} (h : EndsSolid t) (hu : u <:+ t) : EndsSolid u := by
  obtain ⟨s, rfl⟩ := hu
  by_cases hn : u = []
  · subst hn; exact endsSolid_nil
  · exact (endsSolid_append hn).mp h

/-- Texts that end solid do so when joined. -/
theorem endsSolid_append_of {t u : Text} (ht : EndsSolid t) (hu : EndsSolid u) :
    EndsSolid (t ++ u) := by
  by_cases hn : u = []
  · subst hn; simpa using ht
  · exact (endsSolid_append hn).mpr hu

/-- A joined text starts as its first part does. -/
theorem startsSolid_append_of {t u : Text} (ht : t ≠ []) (h : StartsSolid t) :
    StartsSolid (t ++ u) := by
  cases t with
  | nil => exact absurd rfl ht
  | cons c r => simpa using h

/-! ### Trimming at the start -/

private theorem trimStart_eq_self {t : Text} : trimStart t = t ↔ StartsSolid t := by
  cases t with
  | nil => simp [trimStart]
  | cons c r =>
    by_cases h : isBlank c = true
    · have hlen : (r.dropWhile isBlank).length ≤ r.length :=
        (List.dropWhile_suffix isBlank).length_le
      simp only [trimStart, List.dropWhile_cons_of_pos h, startsSolid_cons, h]
      constructor
      · intro he
        rw [he, List.length_cons] at hlen
        omega
      · intro he; cases he
    · simp [trimStart, h]

/-- A text that starts solid has no leading blanks to trim. -/
theorem trimStart_solid {t : Text} (h : StartsSolid t) : trimStart t = t := trimStart_eq_self.mpr h

/-- The empty text has nothing to trim. -/
@[simp] theorem trimStart_nil : trimStart [] = [] := rfl

/-- A leading blank is trimmed. -/
theorem trimStart_cons_blank {c : Char} {t : Text} (h : isBlank c = true) :
    trimStart (c :: t) = trimStart t := by
  simp [trimStart, h]

/-- Trimming stops at a solid character. -/
theorem trimStart_cons_solid {c : Char} {t : Text} (h : isBlank c = false) :
    trimStart (c :: t) = c :: t := by
  simp [trimStart, h]

/-- Leading blanks are trimmed. -/
theorem trimStart_blanks_append {bs t : Text} (h : ∀ b ∈ bs, isBlank b = true) :
    trimStart (bs ++ t) = trimStart t :=
  List.dropWhile_append_of_pos h

/-- A trimmed text starts solid. -/
theorem startsSolid_trimStart (t : Text) : StartsSolid (trimStart t) := by
  intro c hc
  have h := List.head?_dropWhile_not isBlank t
  rw [trimStart] at hc
  rw [Option.mem_def] at hc
  simpa [hc] using h

/-- A text trimmed at its start stands at the end of the text. -/
theorem trimStart_suffix (t : Text) : trimStart t <:+ t := List.dropWhile_suffix isBlank

/-- The leading blanks and what is left make up the text. -/
theorem leadingBlanks_append_trimStart (t : Text) : leadingBlanks t ++ trimStart t = t :=
  List.takeWhile_append_dropWhile

/-- Leading blanks are blank. -/
theorem isBlank_of_mem_leadingBlanks {t : Text} {c : Char} (h : c ∈ leadingBlanks t) :
    isBlank c = true :=
  List.mem_takeWhile_imp h

/-- The blanks in front of a solid start are the leading ones. -/
theorem leadingBlanks_blanks_append {bs t : Text} (h : ∀ b ∈ bs, isBlank b = true)
    (ht : StartsSolid t) : leadingBlanks (bs ++ t) = bs :=
  takeWhile_run h ht

/-- A text is blank exactly when nothing is left of it. -/
theorem trimStart_eq_nil {t : Text} : trimStart t = [] ↔ isBlankText t = true := by
  simp [trimStart, isBlankText, List.dropWhile_eq_nil_iff]

/-! ### Trimming at the end -/

private theorem trimEnd_eq_self {t : Text} : trimEnd t = t ↔ EndsSolid t := by
  rw [← startsSolid_reverse, ← trimStart_eq_self, trimEnd, trimStart]
  constructor
  · intro h; rw [← List.reverse_inj, List.reverse_reverse]; exact h
  · intro h; rw [h, List.reverse_reverse]

/-- A text that ends solid has no blanks to trim at its end. -/
theorem trimEnd_solid {t : Text} (h : EndsSolid t) : trimEnd t = t := trimEnd_eq_self.mpr h

/-- A text trimmed at its end ends solid. -/
theorem endsSolid_trimEnd (t : Text) : EndsSolid (trimEnd t) :=
  endsSolid_reverse.mpr (startsSolid_trimStart t.reverse)

/-- A text trimmed at its end stands at the start of the text. -/
theorem trimEnd_isPrefixOf (t : Text) : trimEnd t <+: t := by
  rw [← List.reverse_suffix]
  simpa [trimEnd, trimStart] using trimStart_suffix t.reverse

/-- Nothing is left of blank texts only. -/
theorem trimEnd_eq_nil {t : Text} : trimEnd t = [] ↔ isBlankText t = true := by
  simp [trimEnd, isBlankText]

/-- Blanks at the end are trimmed. -/
theorem trimEnd_append_blanks {t bs : Text} (h : ∀ b ∈ bs, isBlank b = true) :
    trimEnd (t ++ bs) = trimEnd t := by
  have hr : ∀ b ∈ bs.reverse, isBlank b = true := by simpa using h
  simp only [trimEnd, List.reverse_append]
  rw [List.dropWhile_append_of_pos hr]

/-- What is taken from the end is blank. -/
theorem exists_trimEnd_append (t : Text) :
    ∃ bs, (∀ b ∈ bs, isBlank b = true) ∧ t = trimEnd t ++ bs := by
  refine ⟨(t.reverse.takeWhile isBlank).reverse, fun b hb => ?_, ?_⟩
  · exact List.mem_takeWhile_imp (List.mem_reverse.mp hb)
  · rw [trimEnd, ← List.reverse_append, List.takeWhile_append_dropWhile, List.reverse_reverse]

private theorem startsSolid_trimEnd {t : Text} (h : StartsSolid t) : StartsSolid (trimEnd t) := by
  obtain ⟨s, hs⟩ := trimEnd_isPrefixOf t
  cases ht : trimEnd t with
  | nil => exact startsSolid_nil
  | cons c r =>
    rw [ht] at hs
    rw [← hs] at h
    simpa using h

/-! ### Trimming at both ends -/

private theorem trim_solid {t : Text} (hs : StartsSolid t) (he : EndsSolid t) : trim t = t := by
  rw [trim, trimStart_solid hs, trimEnd_solid he]

/-- A trimmed text ends solid. -/
theorem endsSolid_trim (t : Text) : EndsSolid (trim t) := endsSolid_trimEnd _

/-- A trimmed text starts solid. -/
theorem startsSolid_trim (t : Text) : StartsSolid (trim t) :=
  startsSolid_trimEnd (startsSolid_trimStart t)

/-- Trimming twice is trimming once. -/
@[simp] theorem trim_trim (t : Text) : trim (trim t) = trim t :=
  trim_solid (startsSolid_trim t) (endsSolid_trim t)

/-- A text with solid ends is already trimmed, and no other is. -/
theorem trim_eq_self {t : Text} : trim t = t ↔ StartsSolid t ∧ EndsSolid t := by
  constructor
  · intro h; rw [← h]; exact ⟨startsSolid_trim t, endsSolid_trim t⟩
  · rintro ⟨hs, he⟩; exact trim_solid hs he

/-- Trimming the start brings in no characters. -/
theorem mem_of_mem_trimStart {t : Text} {c : Char} (h : c ∈ trimStart t) : c ∈ t :=
  (trimStart_suffix t).mem h

/-- Trimming the end brings in no characters. -/
theorem mem_of_mem_trimEnd {t : Text} {c : Char} (h : c ∈ trimEnd t) : c ∈ t :=
  List.IsPrefix.mem h (trimEnd_isPrefixOf t)

/-- Trimming brings in no characters. -/
theorem mem_of_mem_trim {t : Text} {c : Char} (h : c ∈ trim t) : c ∈ t :=
  mem_of_mem_trimStart (mem_of_mem_trimEnd h)

/-- Only a blank text is trimmed away. -/
theorem trim_eq_nil {t : Text} : trim t = [] ↔ isBlankText t = true := by
  rw [trim, trimEnd_eq_nil, ← trimStart_eq_nil, trimStart_eq_self.mpr (startsSolid_trimStart t),
    trimStart_eq_nil]

private theorem isBlankText_trimEnd (t : Text) : isBlankText (trimEnd t) = isBlankText t := by
  rw [Bool.eq_iff_iff, ← trimEnd_eq_nil, trimEnd_eq_self.mpr (endsSolid_trimEnd t), trimEnd_eq_nil]

/-- Of a text between blanks, the text is left. -/
theorem trim_between {s t u : Text} (hs : ∀ c ∈ s, isBlank c = true)
    (hu : ∀ c ∈ u, isBlank c = true) (hne : t ≠ []) (hstart : StartsSolid t) (hend : EndsSolid t) :
    trim (s ++ (t ++ u)) = t := by
  rw [trim, trimStart_blanks_append hs, trimStart_solid (startsSolid_append_of hne hstart),
    trimEnd_append_blanks hu, trimEnd_solid hend]

/-- A text is what is left of it between blanks. -/
theorem exists_trim_between (t : Text) : ∃ bs es, (∀ b ∈ bs, isBlank b = true)
    ∧ (∀ b ∈ es, isBlank b = true) ∧ t = bs ++ (trim t ++ es) := by
  obtain ⟨es, hes, heq⟩ := exists_trimEnd_append (trimStart t)
  refine ⟨leadingBlanks t, es, fun b hb => isBlank_of_mem_leadingBlanks hb, hes, ?_⟩
  rw [trim, ← heq, leadingBlanks_append_trimStart]

/-- Taking blanks from the end first makes no difference to what is left. -/
theorem trim_trimEnd (t : Text) : trim (trimEnd t) = trim t := by
  by_cases hb : isBlankText t = true
  · rw [trimEnd_eq_nil.mpr hb, trim_eq_nil.mpr hb]
    rfl
  · obtain ⟨bs, hbs, heq⟩ := exists_trimEnd_append t
    have hne : trimStart (trimEnd t) ≠ [] := by
      rw [ne_eq, trimStart_eq_nil, isBlankText_trimEnd]
      exact hb
    have hstart : trimStart t = trimStart (trimEnd t) ++ bs := by
      conv => lhs; rw [heq, trimStart, List.dropWhile_append]
      rw [if_neg]
      · rfl
      · simpa [trimStart] using hne
    rw [trim, trim, hstart, trimEnd_append_blanks hbs]

/-! ### Tidy texts -/

/-- The empty text is tidy. -/
theorem isTidy_nil : IsTidy [] := ⟨rfl, by simp⟩

/-- A tidy text starts solid. -/
theorem IsTidy.startsSolid {t : Text} (h : IsTidy t) : StartsSolid t :=
  (trim_eq_self.mp h.trimmed).1

/-- A tidy text ends solid. -/
theorem IsTidy.endsSolid {t : Text} (h : IsTidy t) : EndsSolid t :=
  (trim_eq_self.mp h.trimmed).2

/-- A text with solid ends and without newlines is tidy. -/
theorem IsTidy.of_ends {t : Text} (hs : StartsSolid t) (he : EndsSolid t) (hn : '\n' ∉ t) :
    IsTidy t :=
  ⟨trim_solid hs he, hn⟩

/-- A text without newlines is tidy when trimmed. -/
theorem isTidy_trim {t : Text} (h : '\n' ∉ t) : IsTidy (trim t) :=
  ⟨trim_trim t, fun hc => h (mem_of_mem_trim hc)⟩

/-- Tidy texts with a space between them make a tidy text. -/
theorem IsTidy.join_space {t u : Text} (ht : IsTidy t) (hu : IsTidy u) (hnt : t ≠ [])
    (hnu : u ≠ []) : IsTidy (t ++ ' ' :: u) := by
  refine .of_ends (startsSolid_append_of hnt ht.startsSolid) ?_ ?_
  · rw [endsSolid_append (by simp), endsSolid_cons hnu]
    exact hu.endsSolid
  · simp [ht.oneLine, hu.oneLine]

end DocContract.Text
