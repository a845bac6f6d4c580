import DocContract.Proofs.Comment.CutHeader
import DocContract.Proofs.Comment.WrittenLine

/-!
# Lines with a shorter description

A sigil line or a nested field line that is cut at a space inside its description is a line of the
same tag, or of the same field, with the description up to the space.
-/

namespace DocContract

open Text

variable {x y d : Text}

private theorem trimStart_ne_nil (hx : EndsSolid x) (hne : x ≠ []) : trimStart x ≠ [] := by
  intro he
  have hblank := trimEnd_eq_nil.mpr (trimStart_eq_nil.mp he)
  exact hne ((trimEnd_solid hx).symm.trans hblank)

/-- A text that ends solid and is not empty is not blank. -/
theorem not_blank_of_endsSolid (hx : EndsSolid x) (hne : x ≠ []) : isBlankText x ≠ true :=
  fun hb => trimStart_ne_nil hx hne (trimStart_eq_nil.mpr hb)

/-- Trimming the end of a text takes nothing from what stands before a solid part. -/
theorem trimEnd_append_of_solid (x : Text) {u : Text} (hu : isBlankText u ≠ true) :
    trimEnd (x ++ u) = x ++ trimEnd u := by
  obtain ⟨bs, hbs, heq⟩ := exists_trimEnd_append u
  have hne : trimEnd u ≠ [] := fun he => hu (trimEnd_eq_nil.mp he)
  conv_lhs => rw [heq, ← List.append_assoc, trimEnd_append_blanks hbs]
  exact trimEnd_solid ((endsSolid_append hne).mpr (endsSolid_trimEnd u))

/-- The pieces of a text that is cut at a space are trimmed where the text is. -/
theorem trim_cut (hx : EndsSolid x) (hne : x ≠ []) (hs : StartsSolid y)
    (hy : isBlankText y ≠ true) : trim (x ++ ' ' :: y) = trim x ++ ' ' :: trim y := by
  have hspace : isBlankText (' ' :: y) ≠ true := fun hb => hy (List.all_eq_true.mpr fun c hc =>
    List.all_eq_true.mp hb c (List.mem_cons_of_mem _ hc))
  have htrim : trim x = trimStart x := trimEnd_solid (hx.of_suffix (trimStart_suffix x))
  have hend : trimEnd (' ' :: y) = ' ' :: trimEnd y := trimEnd_append_of_solid [' '] hy
  rw [trim, trimStart_append_of_solid (not_blank_of_endsSolid hx hne),
    trimEnd_append_of_solid _ hspace, hend, htrim, trim, trimStart_solid hs]

/-- A sigil line that is cut behind its tag name. -/
theorem SigilLine.parse?_cut {sigil : SigilLine} (hx : isBlankText x ≠ true)
    (h : parse? (trimStart (x ++ ' ' :: y)) = some sigil) (hlong : ¬ sigil.rest <:+ y) :
    ∃ rest, parse? (trimStart x) = some ⟨sigil.tag, rest⟩ ∧ sigil.rest = rest ++ ' ' :: y := by
  have hchar : isTagChar ' ' = false := by decide
  obtain ⟨c, r, ht, hc, hblank, hn, rfl⟩ := parse?_eq_some_iff.mp h
  rw [trimStart_append_of_solid hx] at ht
  obtain ⟨a, u, hu⟩ := List.exists_cons_of_ne_nil fun he => hx (trimStart_eq_nil.mp he)
  rw [hu, List.cons_append, List.cons.injEq] at ht
  obtain ⟨rfl, ht⟩ := ht
  cases u with
  | nil =>
    rw [← (List.cons.inj ht).1] at hc
    exact absurd hc (by decide)
  | cons b w =>
    rw [List.cons_append, List.cons.injEq] at ht
    obtain ⟨rfl, rfl⟩ := ht
    dsimp only at hlong ⊢
    rw [dropWhile_append_space hchar] at hblank hn hlong ⊢
    rw [takeWhile_append_space hchar]
    by_cases hb : isBlankText (w.dropWhile isTagChar) = true
    · rw [trimStart_append_of_blank hb] at hlong
      exact absurd (trimStart_suffix y) hlong
    rw [trimStart_append_of_solid hb] at hn ⊢
    refine ⟨trimStart (w.dropWhile isTagChar), parse?_eq_some_iff.mpr ⟨b, w, hu, hc, ?_, ?_, rfl⟩,
      rfl⟩
    · cases hw : w.dropWhile isTagChar with
      | nil => simp
      | cons e rest =>
        rw [hw] at hblank
        exact hblank
    · exact fun hm => hn (List.mem_append_left _ hm)

private theorem FieldLine.readContent_suffix {content : Text} {h : Header} (ht : EndsSolid content)
    (hh : (readContent content).2 = some h) : h.description <:+ content := by
  unfold readContent at hh
  split at hh
  · exact Header.braced?_suffix ht hh
  · exact Header.ofNamed?_suffix hh

private theorem FieldLine.readContent_cut {h : Header} (hd : d ≠ []) (hx : EndsSolid x)
    (hwhole : EndsSolid (x ++ ' ' :: y)) (hh : (readContent (x ++ ' ' :: y)).2 = some h)
    (hdesc : h.description = d ++ ' ' :: y) :
    readContent x = ((readContent (x ++ ' ' :: y)).1, some { h with description := d }) := by
  cases x with
  | nil =>
    have hsuffix := readContent_suffix hwhole hh
    rw [hdesc] at hsuffix
    exact absurd hsuffix (not_suffix_of_suffix hd (List.suffix_refl _))
  | cons c r =>
    by_cases hc : c = '{'
    · subst hc
      exact congrArg (Prod.mk Convention.braceTyped) (Header.braced?_cut hd hx hwhole hh hdesc)
    · have hbare : ∀ u, readContent (c :: u) = (.dashPlus, Header.ofNamed? true (c :: u)) := by
        intro u
        unfold readContent
        split
        · next heq => exact absurd (List.cons.inj heq).1 hc
        · rfl
      rw [List.cons_append, hbare] at hh ⊢
      rw [hbare]
      exact congrArg (Prod.mk Convention.dashPlus) (Header.ofNamed?_cut hd hh hdesc)

/-- A nested field line, when the description is cut at a space. -/
theorem FieldLine.parse?_cut {field : FieldLine} {h : Header} (hd : d ≠ []) (hx : EndsSolid x)
    (hne : x ≠ []) (hs : StartsSolid y) (hy : isBlankText y ≠ true)
    (hf : parse? (x ++ ' ' :: y) = some field) (hh : field.header? = some h)
    (hdesc : h.description = d ++ ' ' :: trim y) :
    parse? x = some { field with header? := some { h with description := d } } := by
  have hsolid := not_blank_of_endsSolid hx hne
  obtain ⟨c, r, marker, ht, hm, ho, rfl⟩ := parse?_eq_some_iff.mp hf
  dsimp only at hh ⊢
  obtain ⟨a, w, hw⟩ := List.exists_cons_of_ne_nil fun he => hsolid (trimStart_eq_nil.mp he)
  rw [trimStart_append_of_solid hsolid, hw, List.cons_append, List.cons.injEq] at ht
  obtain ⟨rfl, rfl⟩ := ht
  have hwend : EndsSolid w := by
    apply hx.of_suffix
    exact (List.suffix_cons a w).trans (hw ▸ trimStart_suffix x)
  have hwne : w ≠ [] := by
    rintro rfl
    have hsuffix := readContent_suffix (endsSolid_trim _) hh
    rw [hdesc, List.nil_append, show trim (' ' :: y) = trim y from rfl] at hsuffix
    exact not_suffix_of_suffix hd (List.suffix_cons _ _) hsuffix
  have hcut := trim_cut hwend hwne hs hy
  have hend : EndsSolid (trim w ++ ' ' :: trim y) := hcut ▸ endsSolid_trim _
  rw [hcut] at hh ⊢
  have hcontent := readContent_cut hd (endsSolid_trim w) hend hh hdesc
  refine parse?_eq_some_iff.mpr ⟨a, w, marker, hw, hm, ?_, ?_⟩
  · cases w with
    | nil => exact absurd rfl hwne
    | cons e w => exact ho
  · rw [hcontent, Text.indent, Text.indent, leadingBlanks_append_of_solid hsolid]

end DocContract
