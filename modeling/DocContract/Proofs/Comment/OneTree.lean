import DocContract.Proofs.Comment.Fields
import DocContract.Proofs.Comment.Unwarned

/-!
# One tree for all settings

The settings bear on what is reported about a comment and not on what is read from it. Under any
two of them the reader goes through the same groups, so it meets the same sigils and the same nested
fields at the same places. The extra tags decide which of the unknown sigils are errors, and the
convention decides which of the nested fields are written in the wrong style; nothing else differs.
-/

namespace DocContract

open Text

/-- Is it the error that a sigil names no known tag? -/
def ParseError.isUnknownTag : ParseError → Bool
  | .unknownTag _ => true
  | _ => false

/-- Is it the warning that a field is written in the other convention? -/
def ParseWarning.isConvention : ParseWarning → Bool
  | .convention _ _ => true
  | _ => false

/-- Is the tag an error: neither known nor the asynchronous marker nor an extra tag? -/
def Settings.rejects (s : Settings) (tag : Text) : Bool :=
  tag != "async" && (TagKind.ofSigil? tag).isNone && !s.isExtraTag tag

/-! ### Tags and errors -/

/-- Outputs that differ in warnings and in errors about unknown tags only. -/
structure Output.Alike (a b : Output) : Prop where
  asyncMarker : a.asyncMarker = b.asyncMarker
  tags : a.tags = b.tags
  errors : a.errors.filter (!·.value.isUnknownTag) = b.errors.filter (!·.value.isUnknownTag)

private theorem Output.Alike.append {a a' b b' : Output} (h : a.Alike b) (h' : a'.Alike b') :
    (a ++ a').Alike (b ++ b') where
  asyncMarker := by rw [asyncMarker_append, asyncMarker_append, h.asyncMarker, h'.asyncMarker]
  tags := by rw [tags_append, tags_append, h.tags, h'.tags]
  errors := by
    rw [errors_append, errors_append, List.filter_append, List.filter_append, h.errors, h'.errors]

namespace Group

variable {s s' : Settings}

private theorem alike_opened (sigil : SigilLine) (line column : Nat) :
    (opened s sigil line column).2.Alike (opened s' sigil line column).2 := by
  unfold opened
  split
  · exact ⟨rfl, rfl, rfl⟩
  · split
    · split <;> split <;> exact ⟨rfl, rfl, rfl⟩
    · exact ⟨rfl, rfl, rfl⟩
    · exact ⟨rfl, rfl, rfl⟩

private theorem alike_continued (g : Group) (l : InteriorLine) :
    (continued s l g).2.Alike (continued s' l g).2 := by
  cases g with
  | entry branch swallow =>
    simp only [continued, addField]
    split
    · exact ⟨rfl, rfl, rfl⟩
    · split
      · split <;> exact ⟨rfl, rfl, rfl⟩
      · exact ⟨rfl, rfl, rfl⟩
  | _ => exact ⟨rfl, rfl, rfl⟩

private theorem alike_step (g : Group) (l : InteriorLine) :
    (step s g l).2.Alike (step s' g l).2 := by
  unfold step
  split
  · exact Output.Alike.append ⟨rfl, rfl, rfl⟩ (alike_opened _ _ _)
  · exact alike_continued g l

/-- Two runs under different settings go through the same groups, so what they give out is alike
line by line. -/
theorem alike_run (g : Group) (ls : List InteriorLine) : (run s g ls).Alike (run s' g ls) := by
  induction ls generalizing g with
  | nil => exact ⟨rfl, rfl, rfl⟩
  | cons l ls ih =>
    rw [run_cons, run_cons, step_group, step_group]
    exact (alike_step g l).append (ih _)

/-! ### Unknown tags -/

private theorem unknown_finish (g : Group) :
    g.finish.errors.filter (·.value.isUnknownTag) = [] := by
  cases g <;> rfl

private theorem unknown_opened (sigil : SigilLine) (line column : Nat) :
    (opened s sigil line column).2.errors.filter (·.value.isUnknownTag)
      = if s.rejects sigil.tag then [⟨line, column, .unknownTag sigil.tag⟩] else [] := by
  generalize h : opened s sigil line column = next
  unfold Settings.rejects
  cases Opens.of_eq h with
  | marker marker => simp [marker]
  | extra plain unknown extra => simp [unknown, extra]
  | unknown plain unknown strange =>
    rw [unknown, strange, bne_iff_ne.mpr plain]
    rfl
  | usage known => simp [known]
  | entry known read => simp [known]
  | badHeader known other unread =>
    rw [known, Option.isNone_some, Bool.and_false]
    rfl

private theorem unknown_continued (g : Group) (l : InteriorLine) :
    (continued s l g).2.errors.filter (·.value.isUnknownTag) = [] := by
  generalize h : continued s l g = next
  cases Continues.of_eq h <;> rfl

/-- The errors about unknown tags are those about the sigils that open a group. -/
theorem unknown_run (g : Group) (ls : List InteriorLine) :
    (run s g ls).errors.filter (·.value.isUnknownTag)
      = ((g.openings ls).filter fun o => s.rejects o.value.tag).map fun o =>
          ⟨o.line, o.column, .unknownTag o.value.tag⟩ := by
  induction ls generalizing g with
  | nil => exact unknown_finish g
  | cons l ls ih =>
    have hline : (step s g l).2.errors.filter (·.value.isUnknownTag)
        = (((g.opening? l).map fun sigil => (⟨l.line, l.contentColumn, sigil⟩ :
            Located SigilLine)).toList.filter fun o => s.rejects o.value.tag).map fun o =>
          ⟨o.line, o.column, .unknownTag o.value.tag⟩ := by
      unfold step
      cases g.opening? l with
      | none => exact unknown_continued g l
      | some sigil =>
        simp only [Output.errors_append, List.filter_append, unknown_finish, List.nil_append,
          unknown_opened, Option.map_some, Option.toList_some, List.filter_cons, List.filter_nil]
        split <;> rfl
    rw [run_cons, step_group, Output.errors_append, List.filter_append, hline, ih, openings,
      List.filter_append, List.map_append]

/-! ### Warnings -/

private theorem warnings_continued {g : Group} {l : InteriorLine} (h : g.opening? l = none) :
    (continued s l g).2.warnings = (g.field? l).toList.flatMap fun f =>
      (fieldWarnings s f.1 f.2).map fun w => ⟨l.line, l.column + f.1.indent, w⟩ := by
  generalize hnext : continued s l g = next
  cases Continues.of_eq hnext with
  | blank blank => simp [field?, blank]
  | field solid adds read grows =>
    subst grows
    simp [field?_of_read h solid adds read, Branch.depth, Branch.length_path_push]
  | badField solid adds unread => simp [field?, adds, unread, Option.filter_some, Output.ofError]
  | dropped solid plain => simp [field?, plain]
  | text solid plain => simp [field?, plain]
  | _ => rfl

/-- The warnings are those about the nested fields, each at its depth. -/
theorem warnings_run (g : Group) (ls : List InteriorLine) :
    (run s g ls).warnings = (g.fields ls).flatMap fun f =>
      (fieldWarnings s f.value.1 f.value.2).map fun w => ⟨f.line, f.column, w⟩ := by
  induction ls generalizing g with
  | nil => exact warnings_finish g
  | cons l ls ih =>
    have hline : (step s g l).2.warnings = (g.field? l).toList.flatMap fun f =>
        (fieldWarnings s f.1 f.2).map fun w => ⟨l.line, l.column + f.1.indent, w⟩ := by
      unfold step
      cases ho : g.opening? l with
      | none => exact warnings_continued ho
      | some sigil => simp [warnings_finish, warnings_opened, field?_of_opening ho]
    rw [run_cons, step_group, Output.warnings_append, hline, ih, fields, List.flatMap_append]
    cases g.field? l <;> rfl

private theorem convention_fieldWarnings (field : FieldLine) (depth : Nat) :
    (fieldWarnings s field depth).filter ParseWarning.isConvention
      = if field.convention = s.markerConvention then []
        else [.convention field.convention s.markerConvention] := by
  have hmarker : (if field.marker = Marker.ofDepth depth then []
      else [ParseWarning.marker depth field.marker]).filter ParseWarning.isConvention = [] := by
    split <;> rfl
  have hdepth : ∀ limit, (if depth > limit then [ParseWarning.depth depth limit]
      else []).filter ParseWarning.isConvention = [] := by
    intro limit
    split <;> rfl
  unfold fieldWarnings
  cases s.maxTagDepth? <;>
    simp only [List.filter_append, hmarker, hdepth, List.nil_append, List.append_nil] <;>
    split <;> rfl

private theorem other_fieldWarnings (h : s.maxTagDepth? = s'.maxTagDepth?) (field : FieldLine)
    (depth : Nat) : (fieldWarnings s field depth).filter (!·.isConvention)
      = (fieldWarnings s' field depth).filter (!·.isConvention) := by
  have hconvention : ∀ t : Settings, (if field.convention = t.markerConvention then []
      else [ParseWarning.convention field.convention t.markerConvention]).filter
        (!·.isConvention) = [] := by
    intro t
    split <;> rfl
  simp only [fieldWarnings, List.filter_append, hconvention, h]

end Group

/-! ### Whole comments -/

/-- The warnings that nested fields are written in one convention instead of another one. -/
def misplacedFields (found configured : Convention) (ls : List InteriorLine) :
    List (Located ParseWarning) :=
  ((nestedFields ls).filter fun f => f.value.1.convention = found).map fun f =>
    ⟨f.line, f.column, .convention found configured⟩

/-- Of two conventions a field is in the one or in the other. -/
theorem Convention.eq_iff_ne {c d : Convention} (h : c ≠ d) (e : Convention) : e = c ↔ e ≠ d := by
  cases c <;> cases d <;> cases e <;> simp_all

section Settings

variable (s s' : Settings) (ls : List InteriorLine)

private theorem warnings_parseLines :
    (parseLines s ls).warnings = (nestedFields ls).flatMap fun f =>
    (Group.fieldWarnings s f.value.1 f.value.2).map fun w => ⟨f.line, f.column, w⟩ :=
  Group.warnings_run .skip (groupLines ls)

/-- The warnings of one sort, when each field gives at most one of them. -/
theorem filter_warnings (p : ParseWarning → Bool) (about : FieldLine × Nat → Bool)
    (warning : FieldLine × Nat → ParseWarning)
    (h : ∀ field depth, (Group.fieldWarnings s field depth).filter p
      = if about (field, depth) then [warning (field, depth)] else []) :
    (parseLines s ls).warnings.filter (fun w => p w.value)
      = ((nestedFields ls).filter fun f => about f.value).map fun f =>
          ⟨f.line, f.column, warning f.value⟩ := by
  rw [warnings_parseLines]
  induction nestedFields ls with
  | nil => rfl
  | cons f fs ih =>
    have hcomp : (fun w : Located ParseWarning => p w.value)
        ∘ (fun w => ⟨f.line, f.column, w⟩) = p := rfl
    rw [List.flatMap_cons, List.filter_append, ih, List.filter_map, List.filter_cons, hcomp, h]
    split <;> rfl

/-- The fields that are flagged for their convention are those in the other one. -/
theorem convention_parseLines {other : Convention} (h : other ≠ s.markerConvention) :
    (parseLines s ls).warnings.filter (·.value.isConvention)
      = misplacedFields other s.markerConvention ls := by
  refine filter_warnings s ls ParseWarning.isConvention (fun f => f.1.convention = other)
    (fun _ => .convention other s.markerConvention) fun field depth => ?_
  rw [Group.convention_fieldWarnings]
  by_cases hc : field.convention = other
  · rw [if_neg ((Convention.eq_iff_ne h _).mp hc), if_pos (decide_eq_true hc), hc]
  · rw [if_pos (Decidable.not_not.mp fun hn => hc ((Convention.eq_iff_ne h _).mpr hn)),
      if_neg (by simpa using hc)]

private theorem other_parseLines (h : s.maxTagDepth? = s'.maxTagDepth?) :
    (parseLines s ls).warnings.filter (!·.value.isConvention)
      = (parseLines s' ls).warnings.filter (!·.value.isConvention) := by
  rw [warnings_parseLines, warnings_parseLines]
  induction nestedFields ls with
  | nil => rfl
  | cons f fs ih =>
    have hcomp : (fun w : Located ParseWarning => !w.value.isConvention)
        ∘ (fun w => ⟨f.line, f.column, w⟩) = fun w => !w.isConvention := rfl
    rw [List.flatMap_cons, List.flatMap_cons, List.filter_append, List.filter_append, ih,
      List.filter_map, List.filter_map, hcomp, Group.other_fieldWarnings h]

private theorem alike_parseLines : (parseLines s ls).block = (parseLines s' ls).block
    ∧ (parseLines s ls).errors.filter (!·.value.isUnknownTag)
      = (parseLines s' ls).errors.filter (!·.value.isUnknownTag) := by
  have h : Output.Alike (Group.run s .skip (groupLines ls)) (Group.run s' .skip (groupLines ls)) :=
    Group.alike_run .skip (groupLines ls)
  refine ⟨?_, h.errors⟩
  have hasync := h.asyncMarker
  have htags := h.tags
  unfold groupLines at hasync htags
  unfold parseLines
  dsimp only
  rw [hasync, htags]

end Settings

/-- Under any two settings the same block is read from a comment, with the same errors apart from
those about unknown tags: such an error stands at each sigil that opens a group, names no known tag
and is not an extra tag of the settings. With the same limit of the depth, the warnings are the same
too apart from those about conventions: of two settings with different conventions, each one flags
just the nested fields of the tree that are written in the convention of the other. -/
theorem parseLines_settings (s s' : Settings) (ls : List InteriorLine) :
    (parseLines s ls).block = (parseLines s' ls).block
      ∧ (parseLines s ls).errors.filter (!·.value.isUnknownTag)
        = (parseLines s' ls).errors.filter (!·.value.isUnknownTag)
      ∧ (∀ t ∈ [s, s'], (parseLines t ls).errors.filter (·.value.isUnknownTag)
        = ((openSigils ls).filter fun o => t.rejects o.value.tag).map fun o =>
            ⟨o.line, o.column, .unknownTag o.value.tag⟩)
      ∧ (parseLines s ls).block.tags.flatMap Tag.fieldPlaces
        = (nestedFields ls).map (fun f => (f.line, f.column))
      ∧ (s.maxTagDepth? = s'.maxTagDepth? → s.markerConvention ≠ s'.markerConvention →
        (parseLines s ls).warnings.filter (!·.value.isConvention)
            = (parseLines s' ls).warnings.filter (!·.value.isConvention)
          ∧ (parseLines s ls).warnings.filter (·.value.isConvention)
            = misplacedFields s'.markerConvention s.markerConvention ls
          ∧ (parseLines s' ls).warnings.filter (·.value.isConvention)
            = misplacedFields s.markerConvention s'.markerConvention ls) := by
  obtain ⟨hblock, herrors⟩ := alike_parseLines s s' ls
  refine ⟨hblock, herrors, fun t _ => Group.unknown_run .skip (groupLines ls),
    fieldPlaces_parseLines s ls, fun hdepth hconvention => ⟨other_parseLines s s' ls hdepth,
      convention_parseLines s ls hconvention.symm, convention_parseLines s' ls hconvention⟩⟩

/-- Settings that differ from the defaults in the convention and in the extra tags. -/
def bracedSettings : Settings where
  markerConvention := .braceTyped
  extraTags := ["foo"]

/-- A comment with a field in each convention and with tags that are known to one of two settings
only. -/
def mixedExample : Text :=
  "Adds.\n@param a - one\n  - x - two\n  - {T} y - three\n  @foo inside\n@foo bar\n@see baz"

/-- Each settings flag the field that is written as the others ask for, and the tag that only the
others know. -/
theorem parseLines_mixedExample :
    ({} : Settings).maxTagDepth? = bracedSettings.maxTagDepth?
      ∧ ({} : Settings).markerConvention ≠ bracedSettings.markerConvention
      ∧ (parseLines {} (textLines mixedExample)).block
        = (parseLines bracedSettings (textLines mixedExample)).block
      ∧ (parseLines {} (textLines mixedExample)).errors.filter (·.value.isUnknownTag)
        = [⟨6, 1, .unknownTag "foo"⟩]
      ∧ (parseLines bracedSettings (textLines mixedExample)).errors.filter (·.value.isUnknownTag)
        = [⟨7, 1, .unknownTag "see"⟩]
      ∧ (parseLines {} (textLines mixedExample)).warnings.filter (·.value.isConvention)
        = [⟨4, 3, .convention .braceTyped .dashPlus⟩]
      ∧ (parseLines bracedSettings (textLines mixedExample)).warnings.filter
          (·.value.isConvention) = [⟨3, 3, .convention .dashPlus .braceTyped⟩] := by
  have hdepth : ({} : Settings).maxTagDepth? = bracedSettings.maxTagDepth? := rfl
  have hconvention : ({} : Settings).markerConvention ≠ bracedSettings.markerConvention := by
    decide
  obtain ⟨hblock, -, hunknown, -, hwarnings⟩ :=
    parseLines_settings {} bracedSettings (textLines mixedExample)
  obtain ⟨-, hplain, hbraced⟩ := hwarnings hdepth hconvention
  refine ⟨hdepth, hconvention, hblock, ?_, ?_, ?_, ?_⟩
  · rw [hunknown {} (by simp)]
    decide +kernel
  · rw [hunknown bracedSettings (by simp)]
    decide +kernel
  · rw [hplain]
    decide +kernel
  · rw [hbraced]
    decide +kernel

end DocContract
