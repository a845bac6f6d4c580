import DocContract.Comment.Group

/-!
# Runs over some lines

The reader of groups goes on from the group that earlier lines leave open: the output of a run is
the output of its first lines, followed by that of the rest.
-/

namespace DocContract

open Text

namespace Output

/-- An empty output in front of another one adds nothing. -/
theorem empty_append (o : Output) : ({} : Output) ++ o = o := by
  cases o
  rfl

/-- An empty output behind another one adds nothing. -/
theorem append_empty (o : Output) : o ++ ({} : Output) = o := by
  obtain ⟨m, ts, es, ws⟩ := o
  change Output.mk (m || false) (ts ++ []) (es ++ []) (ws ++ []) = _
  simp

/-- The marker is set in a joined output when it is in one of the two. -/
@[simp] theorem asyncMarker_append (a b : Output) :
    (a ++ b).asyncMarker = (a.asyncMarker || b.asyncMarker) := rfl

/-- The tags of a joined output are those of the two in turn. -/
@[simp] theorem tags_append (a b : Output) : (a ++ b).tags = a.tags ++ b.tags := rfl

/-- The errors of a joined output are those of the two in turn. -/
@[simp] theorem errors_append (a b : Output) : (a ++ b).errors = a.errors ++ b.errors := rfl

/-- The warnings of a joined output are those of the two in turn. -/
@[simp] theorem warnings_append (a b : Output) : (a ++ b).warnings = a.warnings ++ b.warnings := rfl

/-- Outputs are joined in any grouping. -/
theorem append_assoc (a b c : Output) : a ++ b ++ c = a ++ (b ++ c) := by
  change append (append a b) c = append a (append b c)
  simp only [append, Bool.or_assoc, List.append_assoc]

/-- Warnings at most. -/
structure IsQuiet (o : Output) : Prop where
  asyncMarker : o.asyncMarker = false
  tags : o.tags = []
  errors : o.errors = []

/-- The empty output is quiet. -/
theorem isQuiet_empty : IsQuiet {} := ⟨rfl, rfl, rfl⟩

/-- Two quiet outputs are quiet together. -/
theorem IsQuiet.append {a b : Output} (ha : a.IsQuiet) (hb : b.IsQuiet) : (a ++ b).IsQuiet :=
  ⟨by simp [ha.asyncMarker, hb.asyncMarker], by simp [ha.tags, hb.tags],
    by simp [ha.errors, hb.errors]⟩

end Output

/-! ### Kinds with a header -/

/-- A brief is not opened by a header. -/
theorem TagKind.ne_brief_of_header? {kind : TagKind} {rest : Text} {header : Header}
    (h : kind.header? rest = some header) : kind ≠ .brief := by
  rintro rfl
  cases h

/-- A usage example is not opened by a header. -/
theorem TagKind.ne_usage_of_header? {kind : TagKind} {rest : Text} {header : Header}
    (h : kind.header? rest = some header) : kind ≠ .usage := by
  rintro rfl
  cases h

namespace Group

/-- The group that some lines leave open, and their output. -/
def advance (s : Settings) (g : Group) : List InteriorLine → Group × Output
  | [] => (g, {})
  | l :: ls =>
    let (next, out) := step s g l
    let (last, rest) := advance s next ls
    (last, out ++ rest)

/-- Over no lines nothing happens. -/
theorem advance_nil (s : Settings) (g : Group) : advance s g [] = (g, {}) := rfl

/-- A group goes over the first line and then over the others. -/
theorem advance_cons (s : Settings) (g : Group) (l : InteriorLine) (ls : List InteriorLine) :
    advance s g (l :: ls) = ((advance s (step s g l).1 ls).1,
      (step s g l).2 ++ (advance s (step s g l).1 ls).2) := rfl

/-- A group goes over joined lines by going over the first ones and then over the others. -/
theorem advance_append (s : Settings) (g : Group) (ls ms : List InteriorLine) :
    advance s g (ls ++ ms) = ((advance s (advance s g ls).1 ms).1,
      (advance s g ls).2 ++ (advance s (advance s g ls).1 ms).2) := by
  induction ls generalizing g with
  | nil => rw [List.nil_append, advance_nil, Output.empty_append]
  | cons l ls ih => rw [List.cons_append, advance_cons, ih, advance_cons, Output.append_assoc]

/-- The output of a run is that of its first step and of the run from there. -/
theorem run_cons (s : Settings) (g : Group) (l : InteriorLine) (ls : List InteriorLine) :
    run s g (l :: ls) = (step s g l).2 ++ run s (step s g l).1 ls := rfl

/-- A run goes on from the group that its first lines leave open. -/
theorem run_append (s : Settings) (g : Group) (ls ms : List InteriorLine) :
    run s g (ls ++ ms) = (advance s g ls).2 ++ run s (advance s g ls).1 ms := by
  induction ls generalizing g with
  | nil => rw [List.nil_append, advance_nil, Output.empty_append]
  | cons l ls ih =>
    rw [List.cons_append, run_cons, advance_cons, ih, Output.append_assoc]

/-- A run is what its lines give out, followed by the end of the group that they leave open. -/
theorem run_eq_advance (s : Settings) (g : Group) (ls : List InteriorLine) :
    run s g ls = (advance s g ls).2 ++ (advance s g ls).1.finish := by
  have h := run_append s g ls []
  rwa [List.append_nil] at h

/-! ### What a line does -/

/-- The async marker is no sigil of a kind. -/
theorem ne_async_of_ofSigil? {tag : Text} {kind : TagKind}
    (h : TagKind.ofSigil? tag = some kind) : tag ≠ "async" := by
  rintro rfl
  cases h

/-- A line adds a field when the tag of its group takes children and the line is read as a field. -/
theorem fieldOf?_eq_some_iff {branch : Branch} {l : InteriorLine} {field : FieldLine} :
    fieldOf? branch l = some field
      ↔ branch.root.kind.acceptsChildren = true ∧ FieldLine.parse? l.text = some field := by
  unfold fieldOf?
  split <;> simp [*]

/-- What a sigil line opens, and what it gives out. -/
inductive Opens (s : Settings) (sigil : SigilLine) (line column : Nat) : Group × Output → Prop
  | marker (marker : sigil.tag = "async") :
      Opens s sigil line column (.skip, { asyncMarker := true })
  | extra (plain : sigil.tag ≠ "async") (unknown : TagKind.ofSigil? sigil.tag = none)
      (extra : s.isExtraTag sigil.tag = true) : Opens s sigil line column (.skip, {})
  | unknown (plain : sigil.tag ≠ "async") (unknown : TagKind.ofSigil? sigil.tag = none)
      (strange : s.isExtraTag sigil.tag = false) :
      Opens s sigil line column (.skip, Output.ofError line column (.unknownTag sigil.tag))
  | usage (known : TagKind.ofSigil? sigil.tag = some .usage) :
      Opens s sigil line column
        (.awaitFence ((Tag.ofKind .usage line column).extend sigil.rest), {})
  | entry {kind : TagKind} {header : Header} (known : TagKind.ofSigil? sigil.tag = some kind)
      (read : kind.header? sigil.rest = some header) :
      Opens s sigil line column
        (.entry ⟨(Tag.ofKind kind line column).withHeader header, []⟩ false, {})
  | badHeader {kind : TagKind} (known : TagKind.ofSigil? sigil.tag = some kind)
      (other : kind ≠ .usage) (unread : kind.header? sigil.rest = none) :
      Opens s sigil line column
        (.skip, Output.ofError line column (.badHeader kind sigil.tag sigil.rest))

/-- What opening a group gives is one of the cases of `Opens`. -/
theorem Opens.of_eq {s : Settings} {sigil : SigilLine} {line column : Nat} {r : Group × Output}
    (h : opened s sigil line column = r) : Opens s sigil line column r := by
  subst h
  unfold opened
  split
  · next marker => exact .marker marker
  · next plain =>
    split
    · next unknown =>
      cases known : s.isExtraTag sigil.tag with
      | true => exact .extra plain unknown known
      | false => exact .unknown plain unknown known
    · next known => exact .usage known
    · next kind other known =>
      cases read : kind.header? sigil.rest with
      | some header => exact .entry known read
      | none => exact .badHeader known other read

/-- The cases of `Opens` fix what opening a group gives. -/
theorem Opens.eq {s : Settings} {sigil : SigilLine} {line column : Nat} {r : Group × Output}
    (h : Opens s sigil line column r) : opened s sigil line column = r := by
  cases h with
  | marker marker => rw [opened, if_pos marker]
  | extra plain unknown extra =>
    rw [opened, if_neg plain, unknown]
    exact if_pos extra
  | unknown plain unknown strange =>
    rw [opened, if_neg plain, unknown]
    exact if_neg (Bool.eq_false_iff.mp strange)
  | usage known => rw [opened, if_neg (ne_async_of_ofSigil? known), known]
  | @entry kind header known read =>
    rw [opened, if_neg (ne_async_of_ofSigil? known), known]
    cases kind with
    | usage | brief => cases read
    | _ => simp only [read]
  | @badHeader kind known other unread =>
    rw [opened, if_neg (ne_async_of_ofSigil? known), known]
    cases kind with
    | usage => exact absurd rfl other
    | _ => simp only [unread]

/-- What a line does that opens no group, and what it gives out. -/
inductive Continues (s : Settings) (l : InteriorLine) : Group → Group × Output → Prop
  | skip : Continues s l .skip (.skip, {})
  | blank {branch : Branch} {swallow : Bool} (blank : l.isBlank = true) :
      Continues s l (.entry branch swallow) (.entry branch swallow, {})
  | field {branch grown : Branch} {swallow : Bool} {field : FieldLine} {header : Header}
      (solid : l.isBlank = false) (adds : fieldOf? branch l = some field)
      (read : field.header? = some header)
      (grows : branch.push field.indent ((Tag.ofKind .property l.line
        (l.column + field.indent)).withHeader header) = grown) :
      Continues s l (.entry branch swallow) (.entry grown false,
        { warnings := (fieldWarnings s field grown.depth).map fun w =>
            ⟨l.line, l.column + field.indent, w⟩ })
  | badField {branch : Branch} {swallow : Bool} {field : FieldLine} (solid : l.isBlank = false)
      (adds : fieldOf? branch l = some field) (unread : field.header? = none) :
      Continues s l (.entry branch swallow)
        (.entry branch true, Output.ofError l.line (l.column + field.indent) (.badField l.text))
  | dropped {branch : Branch} (solid : l.isBlank = false) (plain : fieldOf? branch l = none) :
      Continues s l (.entry branch true) (.entry branch true, {})
  | text {branch : Branch} (solid : l.isBlank = false) (plain : fieldOf? branch l = none) :
      Continues s l (.entry branch false) (.entry (branch.extend l.text) false, {})
  | waits {tag : Tag} (plain : after? fenceMark (trimStart l.text) = none) :
      Continues s l (.awaitFence tag) (.awaitFence (tag.extend l.text), {})
  | fence {tag : Tag} {language : Text}
      (mark : after? fenceMark (trimStart l.text) = some language) :
      Continues s l (.awaitFence tag) (.fence tag (trim language) [], {})
  | code {tag : Tag} {language : Text} {body : List Text} (plain : trim l.text ≠ fenceMark) :
      Continues s l (.fence tag language body) (.fence tag language (l.text :: body), {})
  | closed {tag : Tag} {language : Text} {body : List Text} (mark : trim l.text = fenceMark) :
      Continues s l (.fence tag language body)
        (.entry ⟨{ tag with snippet? := some ⟨language, dedent body.reverse⟩ }, []⟩ false, {})

/-- What going on with a group gives is one of the cases of `Continues`. -/
theorem Continues.of_eq {s : Settings} {l : InteriorLine} {g : Group} {r : Group × Output}
    (h : continued s l g = r) : Continues s l g r := by
  subst h
  cases g with
  | skip => exact .skip
  | entry branch swallow =>
    simp only [continued]
    split
    · next blank => exact .blank blank
    · next solid =>
      rw [Bool.not_eq_true] at solid
      split
      · next field adds =>
        unfold addField
        cases read : field.header? with
        | none => exact .badField solid adds read
        | some header => exact .field solid adds read rfl
      · next plain =>
        cases swallow with
        | true => exact .dropped solid plain
        | false => exact .text solid plain
  | awaitFence tag =>
    simp only [continued]
    split
    · next language mark => exact .fence mark
    · next plain => exact .waits plain
  | fence tag language body =>
    simp only [continued]
    split
    · next mark => exact .closed mark
    · next plain => exact .code plain

/-- The cases of `Continues` fix what going on with a group gives. -/
theorem Continues.eq {s : Settings} {l : InteriorLine} {g : Group} {r : Group × Output}
    (h : Continues s l g r) : continued s l g = r := by
  cases h with
  | skip => rfl
  | blank blank => simp only [continued, blank, if_true]
  | field solid adds read grows => simp [continued, solid, adds, addField, read, ← grows]
  | badField solid adds unread => simp [continued, solid, adds, addField, unread]
  | dropped solid plain => simp [continued, solid, plain]
  | text solid plain => simp [continued, solid, plain]
  | waits plain => simp only [continued, plain]
  | fence mark => simp only [continued, mark]
  | code plain => exact if_neg plain
  | closed mark => exact if_pos mark

/-! ### One line -/

/-- A sigil line that opens a group ends the one before. -/
theorem step_opened {s : Settings} {g : Group} {l : InteriorLine} {sigil : SigilLine}
    (h : g.opening? l = some sigil) : step s g l = ((opened s sigil l.line l.contentColumn).1,
      g.finish ++ (opened s sigil l.line l.contentColumn).2) := by
  rw [step, h]

/-- A line that opens no group goes on with the one before. -/
theorem step_stays {s : Settings} {g : Group} {l : InteriorLine} (h : g.opening? l = none) :
    step s g l = continued s l g := by
  rw [step, h]

/-- A line that is no sigil line goes on with every group. -/
theorem step_continued {s : Settings} {g : Group} {l : InteriorLine} (h : l.sigil? = none) :
    step s g l = continued s l g := by
  apply step_stays
  cases g <;> simp only [opening?, h, ite_self]

/-- A group that a sigil line at the column ends. -/
def EndsAt (column : Nat) : Group → Prop
  | .entry branch _ => column ≤ branch.root.column
  | .fence _ _ _ => False
  | _ => True

instance (column : Nat) (g : Group) : Decidable (g.EndsAt column) :=
  match g with
  | .entry branch _ => inferInstanceAs (Decidable (column ≤ branch.root.column))
  | .fence _ _ _ => inferInstanceAs (Decidable False)
  | .skip => inferInstanceAs (Decidable True)
  | .awaitFence _ => inferInstanceAs (Decidable True)

/-- Every sigil line opens a group behind one that it ends. -/
theorem step_sigil {s : Settings} {g : Group} {l : InteriorLine} {sigil : SigilLine}
    (hg : g.EndsAt l.contentColumn) (h : l.sigil? = some sigil) :
    step s g l = ((opened s sigil l.line l.contentColumn).1,
      g.finish ++ (opened s sigil l.line l.contentColumn).2) := by
  refine step_opened ?_
  cases g with
  | skip => simp [opening?, nests, h]
  | entry branch swallow =>
    have hn : ¬ l.contentColumn > branch.root.column := Nat.not_lt.mpr hg
    simp [opening?, nests, hn, h]
  | awaitFence tag => simp [opening?, nests, h]
  | fence tag language body => exact hg.elim

/-- A nested field with a header goes below the open tag. -/
theorem step_field {s : Settings} {branch : Branch} {swallow : Bool} {l : InteriorLine}
    {field : FieldLine} {header : Header} (hk : branch.root.kind.acceptsChildren = true)
    (hs : l.sigil? = none) (hb : l.isBlank = false) (hf : FieldLine.parse? l.text = some field)
    (hh : field.header? = some header) {grown : Branch}
    (hg : branch.push field.indent ((Tag.ofKind .property l.line
      (l.column + field.indent)).withHeader header) = grown) :
    step s (.entry branch swallow) l = (.entry grown false,
      { warnings := (fieldWarnings s field grown.depth).map fun w =>
          ⟨l.line, l.column + field.indent, w⟩ }) := by
  rw [step_continued hs]
  exact (Continues.field hb (fieldOf?_eq_some_iff.mpr ⟨hk, hf⟩) hh hg).eq

end Group

end DocContract
