import DocContract.Proofs.Comment.Advance
import DocContract.Proofs.Comment.Branch
import DocContract.Proofs.Comment.WrittenField

/-!
# Nested fields read below a tag

The written lines of nested fields are read as these fields, to any depth. The reader keeps a branch
of open fields, so what reading some lines does is said of the branch with the fields at their depth
and below closed: the new fields are at the end of the entry that remains.
-/

namespace DocContract

open Text

/-- At depth `n`, the written lines are read as the fields. -/
def ReadsFields (s : Settings) (n : Nat) (written : List Text) (ts : List Tag) : Prop :=
  ∀ ls : List InteriorLine, ls.map InteriorLine.text = written →
  ∀ b : Branch, b.root.kind.acceptsChildren = true → (b.upTo (2 * n)).path.length + 1 = n →
    ∃ b' out ts', Group.advance s (.entry b false) ls = (.entry b' false, out) ∧ out.IsQuiet
      ∧ b'.upTo (2 * n) = (b.upTo (2 * n)).graft ts' ∧ ts'.map Tag.unplaced = ts.map Tag.unplaced

namespace Branch

/-- Branches that one closing tells apart by grafted tags only have the same root. -/
theorem sameRoot_of_graft {n : Nat} {b b' : Branch} {ts : List Tag}
    (h : b'.upTo n = (b.upTo n).graft ts) : SameRoot b b' := by
  have hb : SameRoot b ((b.upTo n).graft ts) := (sameRoot_upTo n b).trans (sameRoot_graft _ ts)
  rw [← h] at hb
  exact hb.trans (sameRoot_upTo n b').symm

section Takes

variable {n : Nat} {b : Branch} (hk : b.root.kind.acceptsChildren = true)
  (hd : (b.upTo (2 * n)).path.length + 1 = n)
include hk hd

/-- A branch that fields were added to at a depth takes more of them. -/
theorem takes_graft {b' : Branch} {ts : List Tag}
    (h : b'.upTo (2 * n) = (b.upTo (2 * n)).graft ts) :
    b'.root.kind.acceptsChildren = true ∧ (b'.upTo (2 * n)).path.length + 1 = n := by
  rw [(sameRoot_of_graft h).kind, h, length_path_graft]
  exact ⟨hk, hd⟩

/-- A new field takes the fields one level below it. -/
theorem takes_push (field : Tag) : (b.push (2 * n) field).root.kind.acceptsChildren = true
    ∧ ((b.push (2 * n) field).upTo (2 * (n + 1))).path.length + 1 = n + 1 := by
  rw [kind_push, upTo_push, length_path_push, hd]
  exact ⟨hk, rfl⟩

/-- The written line of a field puts it below the branch. -/
theorem step_fieldLine {s : Settings} {c : Convention} {t : Tag} {l : InteriorLine}
    (hh : c.Expresses t.header) (hl : l.text = Tag.fieldLine c n t) :
    Group.step s (.entry b false) l
      = (.entry (b.push (2 * n)
          ((Tag.ofKind .property l.line (l.column + 2 * n)).withHeader t.header)) false,
        { warnings := (Group.fieldWarnings s
            ⟨2 * n, Marker.ofDepth n, t.fieldConvention c, some t.header⟩ n).map fun w =>
              ⟨l.line, l.column + 2 * n, w⟩ }) := by
  have hsigil : l.sigil? = none := by
    rw [InteriorLine.sigil?, hl]
    exact Tag.sigil?_fieldLine c n t
  have hblank : l.isBlank = false := by
    rw [InteriorLine.isBlank, hl]
    exact Tag.isBlankText_fieldLine c n t
  have hparse := hl ▸ Tag.parse?_fieldLine n hh
  have hdepth : ∀ field, (b.push (2 * n) field).depth = n := fun _ => hd
  rw [Group.step_field hk hsigil hblank hparse rfl rfl, hdepth]

end Takes

end Branch

namespace ReadsFields

variable {s : Settings} {n : Nat}

private theorem nil : ReadsFields s n [] [] := by
  intro ls hls b _ _
  obtain rfl : ls = [] := List.map_eq_nil_iff.mp hls
  exact ⟨b, {}, [], rfl, Output.isQuiet_empty, (Branch.graft_nil _).symm, rfl⟩

private theorem append {written written' : List Text} {ts ts' : List Tag}
    (h : ReadsFields s n written ts) (h' : ReadsFields s n written' ts') :
    ReadsFields s n (written ++ written') (ts ++ ts') := by
  intro ls hls b hk hd
  obtain ⟨ls₁, ls₂, rfl, h₁, h₂⟩ := List.map_eq_append_iff.mp hls
  obtain ⟨b₁, out₁, ts₁, ha₁, hq₁, hb₁, ht₁⟩ := h ls₁ h₁ b hk hd
  obtain ⟨hk₁, hd₁⟩ := Branch.takes_graft hk hd hb₁
  obtain ⟨b₂, out₂, ts₂, ha₂, hq₂, hb₂, ht₂⟩ := h' ls₂ h₂ b₁ hk₁ hd₁
  refine ⟨b₂, out₁ ++ out₂, ts₁ ++ ts₂, ?_, hq₁.append hq₂, ?_, ?_⟩
  · rw [Group.advance_append, ha₁]
    dsimp only
    rw [ha₂]
  · rw [hb₂, hb₁, Branch.graft_graft]
  · rw [List.map_append, ht₁, ht₂, List.map_append]

/-- The line of a field and the lines of the fields below it. -/
theorem field {c : Convention} {t : Tag} (hk : t.kind = .property) (hl : t.depth = n)
    (hh : c.Expresses t.header) (hp : t.snippet? = none) {written : List Text}
    (h : ReadsFields s (n + 1) written t.children) :
    ReadsFields s n (Tag.fieldLine c n t :: written) [t] := by
  intro ls hls b hb hd
  obtain ⟨l, ls, rfl, hl₀, hls⟩ := List.map_eq_cons_iff.mp hls
  obtain ⟨field, hfield⟩ : ∃ field, field = (Tag.ofKind .property l.line
    (l.column + 2 * n)).withHeader t.header := ⟨_, rfl⟩
  obtain ⟨ws, hstep⟩ : ∃ ws, Group.step s (.entry b false) l
      = (.entry (b.push (2 * n) field) false, { warnings := ws }) :=
    ⟨_, hfield ▸ Branch.step_fieldLine hb hd hh hl₀⟩
  obtain ⟨hk₁, hd₁⟩ := Branch.takes_push hb hd field
  obtain ⟨b', out, ts', hadv, hq, hb', hts⟩ := h ls hls _ hk₁ hd₁
  -- The new field lies below the fields that are indented less, which are one fewer than its depth.
  obtain ⟨new, hnew⟩ : ∃ new, new = { field with depth := n } := ⟨_, rfl⟩
  refine ⟨b', { warnings := ws } ++ out, [{ new with children := new.children ++ ts' }], ?_,
    Output.IsQuiet.append ⟨rfl, rfl, rfl⟩ hq, ?_, ?_⟩
  · rw [Group.advance_cons, hstep, hadv]
  · rw [← Branch.upTo_upTo (show 2 * n ≤ 2 * (n + 1) by omega) b', hb', Branch.upTo_push,
      Branch.push_eq, hd, ← hnew]
    exact Branch.upTo_graft_open (Branch.isBelow_upTo _ b) new ts'
  · have hnone : new.children = [] := by rw [hnew, hfield]; rfl
    obtain ⟨kind, name?, description, type?, optional, depth, line, column, snippet?, children⟩ := t
    dsimp only at hk hl hp hts
    subst hk hl hp
    simp only [List.map_cons, List.map_nil, Tag.unplaced_eq, hnone, List.nil_append, hts]
    rw [hnew, hfield]
    rfl

/-- The lines of a nested field are read as the field, whatever lies below it. -/
theorem of_isField {c : Convention} {t : Tag} (h : t.IsField c n) :
    ReadsFields s n (Tag.fieldLines c n t) [t] := by
  induction h with
  | @intro n t hk hl hh hp _ ih =>
    have hlines : Tag.fieldLines c n t
        = Tag.fieldLine c n t :: Tag.childLines c (n + 1) t.children := by
      cases t
      rfl
    rw [hlines]
    apply field hk hl hh hp
    generalize t.children = ts at ih
    induction ts with
    | nil => exact nil
    | cons child ts ihts =>
      obtain ⟨hchild, hts⟩ := List.forall_mem_cons.mp ih
      exact append hchild (ihts hts)

/-- The lines of nested fields at one depth are read as the fields. -/
theorem of_forall {c : Convention} {ts : List Tag} (h : ∀ t ∈ ts, t.IsField c n) :
    ReadsFields s n (Tag.childLines c n ts) ts := by
  induction ts with
  | nil => exact nil
  | cons t ts ih =>
    obtain ⟨ht, hts⟩ := List.forall_mem_cons.mp h
    exact append (of_isField ht) (ih hts)

end ReadsFields

end DocContract
