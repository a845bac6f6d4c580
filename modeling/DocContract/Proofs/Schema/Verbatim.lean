import DocContract.Proofs.Schema.Documentation
import DocContract.Proofs.Schema.Hidden
import DocContract.Proofs.Schema.Removal

/-!
# Names that are repeated in the comment

The name of a parameter or a field loses the element markers at its end only; the name of an entry
loses those of all its segments. So an entry that repeats the name of a dotted parameter has its key
exactly when no segment but the last one carries a marker. Then the two match. Any other name is
reported twice when it is repeated: the entry is unknown, and the parameter is missing.
-/

namespace DocContract

open Text

/-! ### The two keys of a name -/

/-- Behind any text, a segment loses its element marker and nothing else. -/
theorem dropElementMarks_append_segment (front : Text) {segment : Text}
    (h : Header.isSegment segment = true) :
    dropElementMarks (front ++ segment) = front ++ dropElementMarks segment := by
  have hident : ∀ ident : Text, Header.isIdentifier ident = true →
      dropElementMarks (front ++ ident) = front ++ ident := by
    intro ident hi
    have hmark : ']' ∉ ident := not_mem_identifier hi (by decide)
    have hne : ident.reverse ≠ [] := by
      obtain ⟨c, r, rfl, -⟩ := Header.exists_identHead hi
      simp
    obtain ⟨c, r, hr⟩ := List.exists_cons_of_ne_nil hne
    have hc : c ≠ ']' := by
      rintro rfl
      exact hmark (List.mem_reverse.mp (hr ▸ List.mem_cons_self))
    have hgo : dropElementMarks.go (c :: r ++ front.reverse) = (c :: r ++ front.reverse).reverse :=
      dropElementMarks.go.eq_2 _ fun s hs => hc (List.cons.inj hs).1
    rw [dropElementMarks, List.reverse_append, hr, hgo, ← hr, ← List.reverse_append,
      List.reverse_reverse]
  obtain ⟨hi, he | he⟩ := isSegment_cases h
  · rw [← he]
    exact hident segment (he ▸ hi)
  · conv_lhs => rw [he]
    rw [← List.append_assoc, dropElementMarks_append]
    exact hident _ hi

/-- A segment carries a marker exactly when dropping markers changes it. -/
theorem mark_suffix_iff {segment : Text} (h : Header.isSegment segment = true) :
    ['[', ']'] <:+ segment ↔ dropElementMarks segment ≠ segment := by
  obtain ⟨hi, he⟩ := isSegment_cases h
  constructor
  · rintro ⟨front, rfl⟩ hsame
    apply not_mem_identifier hi (c := ']') (by decide)
    rw [hsame]
    simp
  · intro hne
    rw [he.resolve_left hne.symm]
    exact List.suffix_append _ _

section Name

variable {name : Text} (h : Header.isName name = true)

include h

private theorem isSegment_of_mem_splitOn {segment : Text} (hs : segment ∈ splitOn '.' name) :
    Header.isSegment segment = true :=
  List.all_eq_true.mp h segment hs

/-- Every segment of a name counts in its key. -/
theorem pathSegments_name : pathSegments name = (splitOn '.' name).map dropElementMarks := by
  refine List.filter_eq_self.mpr (List.forall_mem_map.mpr fun segment hs => ?_)
  obtain ⟨hident, -⟩ := isSegment_cases (isSegment_of_mem_splitOn h hs)
  obtain ⟨c, r, hc, -⟩ := Header.exists_identHead hident
  rw [hc]
  rfl

/-- The key of an entry with a name holds no marker. -/
theorem mark_not_mem_ownKey : ']' ∉ ownKey name := by
  rw [ownKey, pathSegments_name h]
  intro hm
  rcases of_mem_join hm with hdot | ⟨piece, hp, hc⟩
  · exact absurd hdot (by decide)
  · obtain ⟨segment, hs, rfl⟩ := List.mem_map.mp hp
    exact not_mem_identifier (isSegment_cases (isSegment_of_mem_splitOn h hs)).1 (by decide) hc

/-- The key of a parameter: the segments with their markers, the last one without. -/
theorem dropElementMarks_name {front : List Text} {last : Text}
    (hsplit : splitOn '.' name = front ++ [last]) :
    dropElementMarks name = join ['.'] (front ++ [dropElementMarks last]) := by
  have hlast : Header.isSegment last = true :=
    isSegment_of_mem_splitOn h (by rw [hsplit]; exact List.mem_append_right _ List.mem_cons_self)
  rw [← join_splitOn '.' name, hsplit]
  by_cases hf : front = []
  · rw [hf]
    exact dropElementMarks_append_segment [] hlast
  · rw [join_append hf (List.cons_ne_nil _ _), join_append hf (List.cons_ne_nil _ _)]
    exact dropElementMarks_append_segment _ hlast

/-- The markers of all segments but the last stay in the key of a parameter. -/
theorem mark_mem_dropElementMarks {segment : Text} (hs : segment ∈ (splitOn '.' name).dropLast)
    (hmark : ['[', ']'] <:+ segment) : ']' ∈ dropElementMarks name := by
  have hsplit := List.dropLast_append_getLast (splitOn_ne_nil '.' name)
  rw [dropElementMarks_name h hsplit.symm]
  exact mem_join (List.mem_append_left _ hs) (hmark.subset (by simp))

/-- The two keys of a name agree when no segment but the last carries a marker. -/
theorem ownKey_eq_iff : ownKey name = dropElementMarks name
    ↔ ∀ segment ∈ (splitOn '.' name).dropLast, ¬ ['[', ']'] <:+ segment := by
  constructor
  · intro heq segment hs hmark
    apply mark_not_mem_ownKey h
    rw [heq]
    exact mark_mem_dropElementMarks h hs hmark
  · intro hbare
    have hsplit := List.dropLast_append_getLast (splitOn_ne_nil '.' name)
    have hfront : (splitOn '.' name).dropLast.map dropElementMarks
        = (splitOn '.' name).dropLast := by
      refine List.map_congr_left (fun segment hs => ?_) |>.trans (List.map_id _)
      by_contra hne
      have hmem : segment ∈ splitOn '.' name := List.dropLast_subset _ hs
      exact hbare segment hs ((mark_suffix_iff (isSegment_of_mem_splitOn h hmem)).mpr hne)
    rw [dropElementMarks_name h hsplit.symm, ownKey, pathSegments_name h]
    conv_lhs => rw [← hsplit, List.map_append, hfront]
    rfl

end Name

/-! ### Entries that repeat a name -/

/-- An entry at the top has a path of its own. -/
theorem mem_docPaths {tags : List Tag} {t : Tag} {key : Text} (ht : t ∈ tags)
    (hkey : t.key? = some key) : ⟨key, t⟩ ∈ docPaths tags := by
  obtain ⟨front, back, rfl⟩ := List.append_of_mem ht
  rw [docPaths, docPathsBelow_append, docPathsBelow]
  refine List.mem_append_right _ (List.mem_append_left _ ?_)
  obtain ⟨name, hname, rfl⟩ := Option.map_eq_some_iff.mp hkey
  rw [docPathsOf_eq hname]
  exact List.mem_cons_self

/-- A field at the root has a path of its own. -/
theorem ofName_mem_fieldPaths {fs : List Field} {f : Field} (hf : f ∈ fs) :
    SignaturePath.ofName none f.segment f.type? f.optional ∈ fieldPaths fs := by
  have hfrom : ∀ start, SignaturePath.ofName none f.segment f.type? f.optional
      ∈ pathsOfFields start none [] fs := by
    induction fs with
    | nil => cases hf
    | cons g gs ih =>
      intro start
      rcases List.mem_cons.mp hf with rfl | hf
      · obtain ⟨name, type, optional⟩ := f
        exact List.mem_append_left _ List.mem_cons_self
      · exact List.mem_append_right _ (ih hf _)
  exact hfrom 0

namespace SchemaCheck

/-- An entry documents a field at the root of a family: both have one path with the same key, which
is not reported unknown, nor missing when no two paths share a key. -/
structure Matches (c : SchemaCheck) (family : PathFamily) (f : Field) (t : Tag) : Prop where
  path : SignaturePath.ofName none f.segment f.type? f.optional ∈ c.signatureOf family
  entry : ⟨f.segment, t⟩ ∈ docPaths (c.entriesOf family)
  known : ∀ file, ¬ c.Reports file (.pathUnknown family f.segment)
  found : ((c.signatureOf family).map SignaturePath.key).Nodup →
    ∀ file, ¬ c.Reports file (.pathMissing family f.segment)

variable {c : SchemaCheck} {family : PathFamily} {f : Field} {t : Tag}

/-- A field and an entry whose names have one key match. -/
theorem matches_of_key (hf : f ∈ c.fieldsOf family) (ht : t ∈ c.entriesOf family)
    (hkey : t.key? = some f.segment) : c.Matches family f t where
  path := ofName_mem_fieldPaths hf
  entry := mem_docPaths ht hkey
  known := by
    intro file
    rw [reports_unknown_iff (List.ne_nil_of_mem hf)]
    rintro ⟨-, hnone, -⟩
    exact lastPlace?_eq_none.mp hnone _ (ofName_mem_fieldPaths hf) rfl
  found := fun hd _ =>
    not_reports_documented hd (List.mem_map.mpr ⟨_, mem_docPaths ht hkey, rfl⟩)

/-- A function with a single parameter, whose name the comment repeats. -/
def repeating (name : Text) : SchemaCheck where
  language := .typescript
  symbol :=
    { kind := .function
      name := "f"
      parameters := [⟨name, none, false⟩]
      declarationLine := 5 }
  block :=
    { startLine := 1
      tags :=
        [{ Tag.ofKind .brief 2 4 with description := "Does it." },
          { Tag.ofKind .param 3 4 with name? := some name, description := "a value" }] }

section Repeating

variable {name : Text} (h : Header.isName name = true)

include h

/-- When a segment in front carries a marker, the repeated name is unknown and missing at once. -/
theorem repeating_reports {segment : Text} (hs : segment ∈ (splitOn '.' name).dropLast)
    (hmark : ['[', ']'] <:+ segment) (file : Path) :
    (repeating name).Reports file (.pathUnknown .parameter (ownKey name))
      ∧ (repeating name).Reports file (.pathMissing .parameter (dropElementMarks name)) := by
  have hin : ']' ∈ dropElementMarks name := mark_mem_dropElementMarks h hs hmark
  have hout : ']' ∉ ownKey name := mark_not_mem_ownKey h
  have hsignature : (repeating name).signatureOf .parameter
      = [SignaturePath.ofName none (dropElementMarks name) none false] := rfl
  have hkeys : (repeating name).keysOf .parameter = [ownKey name] := rfl
  -- The only key of the signature holds a marker, so no key without one is that key.
  have hnone : ∀ key : Text, ']' ∉ key →
      lastPlace? ((repeating name).signatureOf .parameter) key = none := by
    intro key hkey
    rw [hsignature, lastPlace?_eq_none]
    refine List.forall_mem_singleton.mpr fun heq => hkey ?_
    rwa [← heq]
  have hne : (repeating name).fieldsOf .parameter ≠ [] := List.cons_ne_nil _ _
  constructor
  · rw [reports_unknown_iff hne]
    refine ⟨hkeys ▸ List.mem_singleton_self _, hnone _ hout, ?_⟩
    have habove : (keysAbove (ownKey name)).findSome?
        (lastPlace? ((repeating name).signatureOf .parameter)) = none := by
      refine List.findSome?_eq_none_iff.mpr fun up hup => hnone up fun hm => hout ?_
      obtain ⟨rest, hrest⟩ := ((keysAbove_spec _).1 up).mp hup
      rw [hrest]
      exact List.mem_append_left _ hm
    rw [isUnderOpaque, habove]
  · have hp : ((repeating name).signatureOf .parameter)[0]?
        = some (SignaturePath.ofName none (dropElementMarks name) none false) := rfl
    refine reports_missing_iff.mpr ⟨rfl, 0, _, hp, rfl, ?_, rfl, rfl⟩
    rw [mem_documentedPlaces_iff hp]
    rintro ⟨hmem, -⟩
    have heq : dropElementMarks name = ownKey name := List.mem_singleton.mp (hkeys ▸ hmem)
    exact hout (heq ▸ hin)

/-- An entry that repeats the name of a field matches it, in any signature and any comment, exactly
when no segment of the name but the last carries an element marker. -/
theorem verbatim_iff :
    (∀ (c : SchemaCheck) (family : PathFamily), ∀ f ∈ c.fieldsOf family,
        ∀ t ∈ c.entriesOf family, f.name = name → t.name? = some name → c.Matches family f t)
      ↔ ∀ segment ∈ (splitOn '.' name).dropLast, ¬ ['[', ']'] <:+ segment := by
  constructor
  · intro hall segment hs hmark
    obtain ⟨-, hmissing⟩ := repeating_reports h hs hmark []
    have hmatches := hall (repeating name) .parameter ⟨name, none, false⟩ List.mem_cons_self _
      List.mem_cons_self rfl rfl
    exact hmatches.found (List.nodup_singleton _) [] hmissing
  · intro hbare c family f hf t ht hfname htname
    refine matches_of_key hf ht ?_
    rw [Tag.key?, htname, Field.segment, hfname, Option.map_some, (ownKey_eq_iff h).mpr hbare]

end Repeating

/-- A list of numbers is documented by its own name, marker and all. -/
theorem verbatim_rows : Header.isName "rows.ids[]" = true
    ∧ ∀ (c : SchemaCheck) (family : PathFamily), ∀ f ∈ c.fieldsOf family,
      ∀ t ∈ c.entriesOf family, f.name = "rows.ids[]".toList →
        t.name? = some "rows.ids[]".toList → c.Matches family f t := by
  have hname : Header.isName "rows.ids[]" = true := by decide +kernel
  exact ⟨hname, (verbatim_iff hname).mpr (by decide +kernel)⟩

/-- A parameter inside the elements of a list cannot: its own name is unknown, and it is missing. -/
theorem not_verbatim_items : Header.isName "items[].id" = true
    ∧ ownKey "items[].id" ≠ dropElementMarks "items[].id"
    ∧ (repeating "items[].id").run []
      = [(Diagnostic.ofCode .unknownParam [] 3 4
            "parameter `items.id` does not exist on `f`").about "f@5",
          (Diagnostic.ofCode .unresolvedType [] 3 4
            "type of parameter `items.id` is elided and no signature path provides it").about "f@5",
          (Diagnostic.ofCode .paramMissing [] 1 1
            "parameter `items[].id` of `f` is not documented").about "f@5"] := by
  refine ⟨by decide +kernel, by decide +kernel, by decide +kernel⟩

end SchemaCheck

end DocContract
