import DocContract.Proofs.Comment.Braces
import DocContract.Proofs.Comment.WrittenLine
import DocContract.Proofs.Text.Column

/-!
# Nested fields read from their written form

The line of an expressible nested field is a field line with its header, the marker of its depth and
an indentation of two blanks for each level. A type in braces is read up to the brace that closes
the first one, so it may hold any text whose braces are balanced.
-/

namespace DocContract

open Text

namespace Header

/-- A name with its marks ends solid when what follows it does. -/
theorem endsSolid_named {name ending : Text} {optional : Bool} (hname : isName name = true)
    (h : EndsSolid ending) : EndsSolid (name ++ ((if optional then ['?'] else []) ++ ending)) := by
  refine endsSolid_append_of (isTidy_name hname).endsSolid (endsSolid_append_of ?_ h)
  cases optional <;> decide

/-- The type in braces, then the name with its flag and the end of the header. -/
theorem braced?_append {type gap name ending d : Text} {optional : Bool} (htype : IsBalanced type)
    (hgap : ∀ c ∈ gap, isBlank c = true) (hname : isName name = true) (hend : Closes true ending d)
    (hsolid : EndsSolid ending) :
    braced? ('{' :: (type ++ '}'
        :: (gap ++ (name ++ ((if optional then ['?'] else []) ++ ending)))))
      = some ⟨some name, trimmed? type, optional, d⟩ := by
  have htrim : trim (gap ++ (name ++ ((if optional then ['?'] else []) ++ ending)))
      = name ++ ((if optional then ['?'] else []) ++ ending) := by
    have hstart := startsSolid_append_of (u := (if optional then ['?'] else []) ++ ending)
      (name_ne_nil hname) (isTidy_name hname).startsSolid
    rw [trim, trimStart_blanks_append hgap, trimStart_solid hstart,
      trimEnd_solid (endsSolid_named hname hsolid)]
  have hstop : ∀ c ∈ ending.head?, isNameChar c = false ∧ c ≠ '?' :=
    fun c hc => stops_of_blank (hend.startsBlank c hc)
  have hnext : ∀ c ∈ ((if optional then ['?'] else []) ++ ending).head?, isNameChar c = false :=
    head?_flag fun c hc => (hstop c hc).1
  have hchars : ∀ c ∈ name, isNameChar c = true := fun c hc => isNameChar_of_mem hname hc
  unfold braced?
  rw [splitBraced?_eq_some_iff.mpr ⟨rfl, htype⟩]
  dsimp only
  rw [htrim, takeWhile_run hchars hnext, dropWhile_run hchars hnext, if_pos hname,
    flag_written fun c hc => (hstop c hc).2]
  simp [untyped?_closes hend]

end Header

namespace Tag

/-- The description of a nested field behind its head; without one the dash is left out. -/
def fieldEnd (d : Text) : Text := if d.isEmpty then [] else ' ' :: dashed d

/-- What the line of a nested field holds behind the marker. -/
def fieldContent (c : Convention) (t : Tag) : Text :=
  match c, t.type? with
  | .braceTyped, some type =>
    '{' :: (type ++ '}' :: ' ' :: (t.flaggedName ++ fieldEnd t.description))
  | _, _ => t.flaggedName ++ (t.typeClause ++ fieldEnd t.description)

/-- The convention that the line of a nested field follows: a field without a type is written in the
same way in both. -/
def fieldConvention (c : Convention) (t : Tag) : Convention :=
  match c, t.type? with
  | .braceTyped, some _ => .braceTyped
  | _, _ => .dashPlus

/-- A field is written as an indent of two blanks for each depth, its marker and its content. -/
theorem fieldLine_eq (c : Convention) (depth : Nat) (t : Tag) :
    fieldLine c depth t = List.replicate (2 * depth) ' '
      ++ (Marker.ofDepth depth).symbol :: ' ' :: t.fieldContent c := by
  unfold fieldLine fieldContent fieldEnd
  simp only [withDash_eq]
  cases c <;> cases t.type? <;> dsimp only <;> split <;> simp

private theorem closes_fieldEnd {d : Text} (hd : IsTidy d) : Header.Closes true (fieldEnd d) d := by
  unfold fieldEnd
  split
  · next h => exact .inr ⟨rfl, rfl, List.isEmpty_iff.mp h⟩
  · exact Header.closes_dashed hd

private theorem append_fieldEnd_tidy {t d : Text} (hne : t ≠ []) (ht : IsTidy t) (hd : IsTidy d) :
    IsTidy (t ++ fieldEnd d) := by
  unfold fieldEnd
  split
  · rw [List.append_nil]
    exact ht
  · exact join_dashed_tidy ht hne hd

private theorem fieldContent_tidy {c : Convention} {t : Tag} (h : c.Expresses t.header) :
    IsTidy (t.fieldContent c) := by
  obtain ⟨name, hn, hname⟩ := h.name
  have hd : IsTidy t.description := h.description
  have hflagged : IsTidy t.flaggedName := flaggedName_tidy hn hname
  have hne : t.flaggedName ≠ [] := by
    have hn : t.name? = some name := hn
    simp [flaggedName, nameText, hn, Header.name_ne_nil hname]
  have hnamed := append_fieldEnd_tidy hne hflagged hd
  have hplain : (∀ type ∈ t.type?, Header.IsType type) →
      IsTidy (t.flaggedName ++ (t.typeClause ++ fieldEnd t.description)) := by
    intro ht
    rw [← List.append_assoc]
    exact append_fieldEnd_tidy (by simp [hne]) (hflagged.append (typeClause_tidy ht)) hd
  unfold fieldContent
  cases c with
  | dashPlus => exact hplain h.type
  | braceTyped =>
    cases hty : t.type? with
    | none => exact hplain (by simp [hty])
    | some type =>
      have htype := h.type type hty
      have hbraced : IsTidy ('{' :: (type ++ ['}'])) :=
        .cons (by decide) (htype.2.1.append (isTidy_singleton (by decide)))
      have := hbraced.join_space hnamed (by simp) (by simp [hne])
      simpa using this

/-- The header in braces is read as it was written. -/
theorem braced?_written {t : Tag} (h : Convention.braceTyped.Expresses t.header) {type : Text}
    (hty : t.type? = some type) :
    Header.braced? ('{' :: (type ++ '}' :: ' ' :: (t.flaggedName ++ fieldEnd t.description)))
      = some t.header := by
  obtain ⟨name, hn, hname⟩ := h.name
  have hn : t.name? = some name := hn
  have hd : IsTidy t.description := h.description
  obtain ⟨hne, htidy, hbal⟩ := h.type type hty
  have hblank : ∀ c ∈ [' '], isBlank c = true := List.forall_mem_singleton.mpr rfl
  have hsolid : EndsSolid (fieldEnd t.description) := by
    unfold fieldEnd
    split
    · exact endsSolid_nil
    · exact (endsSolid_cons (dashed_ne_nil _)).mpr (dashed_tidy hd).endsSolid
  have hread := @Header.braced?_append type [' '] name _ _ t.optional hbal hblank hname
    (closes_fieldEnd hd) hsolid
  simpa [flaggedName, nameText, hn, trimmed?_tidy hne htidy, header, hty] using hread

private theorem readContent_written {c : Convention} {t : Tag} (h : c.Expresses t.header) :
    FieldLine.readContent (t.fieldContent c) = (t.fieldConvention c, some t.header) := by
  obtain ⟨name, hn, hname⟩ := h.name
  have hclose := closes_fieldEnd (d := t.description) h.description
  have hplain : (∀ type ∈ t.type?, Header.IsType type) →
      FieldLine.readContent (t.flaggedName ++ (t.typeClause ++ fieldEnd t.description))
        = (.dashPlus, some t.header) := by
    intro ht
    obtain ⟨d, r, hcons, hd⟩ := Header.name_head hname
    unfold FieldLine.readContent
    split
    · next heq =>
      have hn : t.name? = some name := hn
      simp only [flaggedName, nameText, hn, hcons, Option.getD_some, List.cons_append] at heq
      rw [(List.cons.inj heq).1] at hd
      exact absurd hd (by decide)
    · rw [ofNamed?_parts hn hname ht hclose]
      rfl
  unfold fieldContent fieldConvention
  cases c with
  | dashPlus => exact hplain h.type
  | braceTyped =>
    cases hty : t.type? with
    | none => exact hplain (by simp [hty])
    | some type =>
      rw [← braced?_written h hty]
      rfl

/-! ### The line of a nested field -/

/-- A run of spaces is blank. -/
theorem isBlank_of_mem_replicate {n : Nat} {c : Char} (h : c ∈ List.replicate n ' ') :
    isBlank c = true := by
  rw [List.eq_of_mem_replicate h]
  decide

private theorem symbol_solid (m : Marker) : isBlank m.symbol = false := by cases m <;> decide

private theorem ofChar?_symbol (m : Marker) : Marker.ofChar? m.symbol = some m := by
  cases m <;> decide

/-- Behind the blanks and the marker of a line, what is left of the rest is its content. -/
theorem parse?_marked {before after : Text} {marker : Marker}
    (hbefore : ∀ c ∈ before, isBlank c = true) (hopen : FieldLine.opensField after = true) :
    FieldLine.parse? (before ++ marker.symbol :: after)
      = some ⟨width before, marker, (FieldLine.readContent (trim after)).1,
        (FieldLine.readContent (trim after)).2⟩ := by
  have hsymbol := symbol_solid marker
  have htrim : trimStart (before ++ marker.symbol :: after) = marker.symbol :: after := by
    rw [trimStart_blanks_append hbefore, trimStart_cons_solid hsymbol]
  have hindent : Text.indent (before ++ marker.symbol :: after) = width before := by
    rw [Text.indent, leadingBlanks_blanks_append hbefore (startsSolid_cons.mpr hsymbol)]
  unfold FieldLine.parse?
  rw [htrim]
  simp only [ofChar?_symbol, hopen, if_true, hindent]

private theorem trimStart_fieldLine (c : Convention) (depth : Nat) (t : Tag) :
    trimStart (fieldLine c depth t)
      = (Marker.ofDepth depth).symbol :: ' ' :: t.fieldContent c := by
  rw [fieldLine_eq, trimStart_blanks_append fun c hc => isBlank_of_mem_replicate hc,
    trimStart_cons_solid (symbol_solid _)]

/-- The line of a nested field is read as what it was written from. -/
theorem parse?_fieldLine {c : Convention} {t : Tag} (depth : Nat) (h : c.Expresses t.header) :
    FieldLine.parse? (fieldLine c depth t)
      = some ⟨2 * depth, Marker.ofDepth depth, t.fieldConvention c, some t.header⟩ := by
  have hopen : FieldLine.opensField (' ' :: t.fieldContent c) = true := by
    simp [FieldLine.opensField, isBlank]
  have htrim : trim (' ' :: t.fieldContent c) = t.fieldContent c := by
    rw [trim, trimStart_space, ← trim, (fieldContent_tidy h).trimmed]
  rw [fieldLine_eq, parse?_marked (fun _ => isBlank_of_mem_replicate) hopen, htrim,
    readContent_written h, width_replicate_space]

/-- The line of a field that can be written ends solid. -/
theorem fieldLine_endsSolid {c : Convention} {t : Tag} (depth : Nat) (h : c.Expresses t.header) :
    EndsSolid (fieldLine c depth t) := by
  have hne : t.fieldContent c ≠ [] := by
    intro he
    have hr := congrArg Prod.snd (readContent_written h)
    rw [he] at hr
    cases hr
  rw [fieldLine_eq, endsSolid_append (by simp), endsSolid_cons (by simp), endsSolid_cons hne]
  exact (fieldContent_tidy h).endsSolid

/-- The line of a field that can be written holds no newline. -/
theorem fieldLine_oneLine {c : Convention} {t : Tag} (depth : Nat) (h : c.Expresses t.header) :
    '\n' ∉ fieldLine c depth t := by
  rw [fieldLine_eq, List.mem_append, List.mem_cons, List.mem_cons]
  rintro (hm | hm | hm | hm)
  · cases List.eq_of_mem_replicate hm
  · have := symbol_solid (Marker.ofDepth depth)
    rw [← hm] at this
    exact absurd this (by decide)
  · cases hm
  · exact (fieldContent_tidy h).oneLine hm

/-- The line of a nested field is no sigil line. -/
theorem sigil?_fieldLine (c : Convention) (depth : Nat) (t : Tag) :
    SigilLine.parse? (trimStart (fieldLine c depth t)) = none := by
  rw [trimStart_fieldLine]
  cases Marker.ofDepth depth <;> rfl

/-- The line of a field is not blank. -/
theorem isBlankText_fieldLine (c : Convention) (depth : Nat) (t : Tag) :
    isBlankText (fieldLine c depth t) = false := by
  rw [Bool.eq_false_iff, ne_eq, ← trimStart_eq_nil, trimStart_fieldLine]
  simp

end Tag

end DocContract
