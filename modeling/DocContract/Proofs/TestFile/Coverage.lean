import DocContract.TestFile.Outline

/-!
# Statements cover the text

The splitter leaves out nothing but gaps: blanks and semicolons between two statements. So the text
is put together from gaps and statements in turn, each statement begins with a character that no gap
can hold, and its place is the one behind all that stands in front of it. One step keeps what has
been read in front of a statement, or inside one, and a run follows by induction.
-/

namespace DocContract

open Text

/-! ### Places -/

namespace Position

/-- The place behind a text that begins at the place. -/
def behind (p : Position) (t : Text) : Position := t.foldl advance p

/-- The place behind joined texts is that behind the second one from the place behind the first. -/
theorem behind_append (p : Position) (t u : Text) : p.behind (t ++ u) = (p.behind t).behind u :=
  List.foldl_append

/-- Each newline goes on to the next line. -/
theorem line_behind (p : Position) (t : Text) : (p.behind t).line = p.line + t.count '\n' := by
  induction t generalizing p with
  | nil => rfl
  | cons c r ih =>
    have hrest : (p.behind (c :: r)).line = (p.advance c).line + r.count '\n' := ih (p.advance c)
    rw [hrest, advance]
    split
    · next hc =>
      rw [hc, List.count_cons_self]
      dsimp only
      omega
    · next hc => rw [List.count_cons_of_ne hc]

end Position

/-! ### Gaps and items -/

/-- What may stand between two statements. -/
def IsGap (t : Text) : Prop := ∀ c ∈ t, isBlank c = true ∨ c = ';'

/-- What a statement may begin with. -/
def OpensStatement (c : Char) : Prop := isBlank c = false ∧ c ≠ ';'

private theorem isGap_nil : IsGap [] := List.forall_mem_nil _

private theorem IsGap.concat {gap : Text} (h : IsGap gap) {c : Char}
    (hc : isBlank c = true ∨ c = ';') : IsGap (gap ++ [c]) :=
  List.forall_mem_append.mpr ⟨h, List.forall_mem_singleton.mpr hc⟩

/-- Behind what stands above, the text is put together from gaps and items in turn. An item is what
stands behind some text and has a text of its own. -/
inductive Covers {α : Type} (isAt : Text → Text → α → Prop) : Text → Text → List α → Prop
  | gap {above gap : Text} (hgap : IsGap gap) : Covers isAt above gap []
  | item {above gap text below : Text} {a : α} {as : List α} (hgap : IsGap gap)
      (ha : isAt (above ++ gap) text a) (hbelow : Covers isAt (above ++ gap ++ text) below as) :
      Covers isAt above (gap ++ (text ++ below)) (a :: as)

/-- What holds of every item where it stands may be said of them instead. -/
theorem Covers.map {α β : Type} {isAt : Text → Text → α → Prop} {isAt' : Text → Text → β → Prop}
    {f : α → β} {whole above t : Text} {as : List α} (h : Covers isAt above t as)
    (hwhole : whole = above ++ t)
    (hf : ∀ above text below a, whole = above ++ (text ++ below) → isAt above text a →
      isAt' above text (f a)) : Covers isAt' above t (as.map f) := by
  induction h with
  | gap hgap => exact .gap hgap
  | @item above gap text below a as hgap ha hbelow ih =>
    have hitem : whole = above ++ gap ++ (text ++ below) := by rw [hwhole, List.append_assoc]
    have hrest : whole = above ++ gap ++ text ++ below := by rw [hitem, List.append_assoc _ text]
    exact .item hgap (hf _ _ _ _ hitem ha) (ih hrest)

/-- An item of a covered text stands in it. -/
theorem Covers.exists_of_mem {α : Type} {isAt : Text → Text → α → Prop} {above t : Text}
    {as : List α} (h : Covers isAt above t as) {a : α} (ha : a ∈ as) :
    ∃ above' text below, above ++ t = above' ++ (text ++ below) ∧ isAt above' text a := by
  induction h with
  | gap hgap => cases ha
  | @item above gap text below a' as hgap hitem _ ih =>
    rcases List.mem_cons.mp ha with rfl | ha
    · exact ⟨above ++ gap, text, below, (List.append_assoc _ _ _).symm, hitem⟩
    · obtain ⟨above', text', below', heq, hat⟩ := ih ha
      refine ⟨above', text', below', ?_, hat⟩
      rw [← heq, List.append_assoc, List.append_assoc]

/-! ### One character -/

/-- The fragment is the text, begins as a statement may, and notes the place behind what stands
above. -/
structure Fragment.StandsBehind (above text : Text) (f : Fragment) : Prop where
  written : f.text = text
  opens : ∃ c r, text = c :: r ∧ OpensStatement c
  start : f.start = Position.behind {} above

namespace Splitter

/-- What the splitter has read since the last statement ended: a gap, or a gap and the beginning of
a statement. -/
inductive HasRead (s : Splitter) (above : Text) : Text → Prop
  | gap {gap : Text} (hopen : s.open? = none) (hcode : s.nesting = .code) (hgap : IsGap gap) :
      HasRead s above gap
  | within {gap : Text} {o : OpenFragment} (hopen : s.open? = some o) (hgap : IsGap gap)
      (hread : o.close.StandsBehind (above ++ gap) o.read.reverse) :
      HasRead s above (gap ++ o.read.reverse)

/-- A character leads to a splitter that has read what there is up to it, and what is found on it
covers what the splitter has done with. -/
def Advances (above read : Text) (c : Char) (next : Splitter × List Fragment) : Prop :=
  ∃ above' read', next.1.HasRead above' read' ∧ above' ++ read' = above ++ (read ++ [c])
    ∧ ∀ t fs, Covers Fragment.StandsBehind above' (read' ++ t) fs →
        Covers Fragment.StandsBehind above (read ++ c :: t) (next.2 ++ fs)

variable {s : Splitter} {above read gap : Text} {o : OpenFragment} {c : Char}

/-- The character goes on with what has been read. -/
theorem HasRead.advances (h : s.HasRead above (read ++ [c])) : Advances above read c (s, []) := by
  refine ⟨above, read ++ [c], h, rfl, fun t fs hcovers => ?_⟩
  rwa [List.append_assoc] at hcovers

/-- A statement with one more character. -/
theorem push_standsBehind (h : o.close.StandsBehind above o.read.reverse) (c : Char) :
    (o.push c).close.StandsBehind above (o.push c).read.reverse := by
  obtain ⟨d, r, htext, hopens⟩ := h.opens
  refine ⟨rfl, ⟨d, r ++ [c], ?_, hopens⟩, h.start⟩
  rw [OpenFragment.push, List.reverse_cons, htext, List.cons_append]

private theorem HasRead.push (hopen : s.open? = some (o.push c)) (hgap : IsGap gap)
    (hread : o.close.StandsBehind (above ++ gap) o.read.reverse) :
    s.HasRead above (gap ++ o.read.reverse ++ [c]) := by
  have hpush := HasRead.within hopen hgap (push_standsBehind hread c)
  rwa [OpenFragment.push, List.reverse_cons, ← List.append_assoc] at hpush

private theorem place_inLiteral (s : Splitter) (quote : Char) (escaped : Bool) (c : Char) :
    (s.inLiteral quote escaped c).place = s.place.advance c := by
  unfold inLiteral
  dsimp only
  split
  · rfl
  · split
    · rfl
    · split <;> rfl

private theorem open?_inLiteral (s : Splitter) (quote : Char) (escaped : Bool) (c : Char) :
    (s.inLiteral quote escaped c).open? = s.open?.map (·.push c) := by
  unfold inLiteral
  dsimp only
  split
  · rfl
  · split
    · rfl
    · split <;> rfl

private theorem place_blank (s : Splitter) (c : Char) : (s.blank c).place = s.place.advance c := by
  unfold blank
  dsimp only
  split <;> rfl

private theorem open?_blank (s : Splitter) (c : Char) :
    (s.blank c).open? = s.open?.map (·.push c) := by
  unfold blank
  dsimp only
  split <;> rfl

/-- A blank leaves the nesting as it is. -/
theorem nesting_blank (s : Splitter) (c : Char) : (s.blank c).nesting = s.nesting := by
  unfold blank
  dsimp only
  split <;> rfl

private theorem place_significant (s : Splitter) (o : OpenFragment) (c : Char) :
    (s.significant o c).1.place = s.place.advance c := by
  unfold significant
  dsimp only
  split <;> rfl

private theorem place_begin (s : Splitter) (c : Char) :
    (s.begin c).1.place = s.place.advance c := by
  unfold begin
  split
  · rfl
  · exact s.place_significant _ c

/-- A step goes on to the place behind its character. -/
theorem place_step (s : Splitter) (c : Char) : (s.step c).1.place = s.place.advance c := by
  unfold step
  split
  · exact s.place_inLiteral _ _ c
  · split
    · exact s.place_blank c
    · split
      · exact s.place_begin c
      · split
        · exact s.place_begin c
        · exact s.place_significant _ c

/-- A statement may end with the character, or goes on. -/
theorem significant_advances (hgap : IsGap gap)
    (hread : o.close.StandsBehind (above ++ gap) o.read.reverse) (hcode : s.nesting = .code)
    (c : Char) : Advances above (gap ++ o.read.reverse) c (s.significant o c) := by
  unfold significant
  dsimp only
  split
  · refine ⟨above ++ gap ++ (o.push c).read.reverse, [], .gap rfl hcode isGap_nil, ?_,
      fun t fs hcovers => ?_⟩
    · simp [OpenFragment.push]
    · have hitem := Covers.item hgap (push_standsBehind hread c) hcovers
      simpa [OpenFragment.push] using hitem
  · exact (HasRead.push rfl hgap hread).advances

/-- A character behind a gap belongs to the gap or begins a statement. -/
theorem begin_hasRead (hgap : IsGap gap) (hplace : s.place = Position.behind {} (above ++ gap))
    (hcode : s.nesting = .code) (hblank : isBlank c = false) :
    (s.begin c).2 = [] ∧ (s.begin c).1.HasRead above (gap ++ [c]) := by
  unfold begin
  split
  · next hsemi => exact ⟨rfl, .gap rfl hcode (hgap.concat (.inr (eq_of_beq hsemi)))⟩
  · next hsemi =>
    have hends : (c == ';' && s.depth == 0) = false := by
      rw [Bool.eq_false_iff.mpr hsemi, Bool.false_and]
    have hopens : OpensStatement c := ⟨hblank, fun h => hsemi (by rw [h]; rfl)⟩
    unfold significant
    dsimp only
    rw [hends, if_neg Bool.false_ne_true]
    refine ⟨rfl, ?_⟩
    exact HasRead.within (o := ⟨s.place, [c]⟩) rfl hgap ⟨rfl, ⟨c, [], rfl, hopens⟩, hplace⟩

/-- Whatever the character, what has been read is kept and what is found covers the rest. -/
theorem step_advances (h : s.HasRead above read)
    (hplace : s.place = Position.behind {} (above ++ read)) (c : Char) :
    Advances above read c (s.step c) := by
  unfold step
  cases h with
  | gap hopen hcode hgap =>
    rw [hcode]
    dsimp only
    split
    · next hblank =>
      refine (HasRead.gap ?_ ?_ (hgap.concat (.inl hblank))).advances
      · rw [open?_blank, hopen]
        rfl
      · rw [nesting_blank, hcode]
    · next hblank =>
      rw [hopen]
      obtain ⟨hfound, hnext⟩ := begin_hasRead hgap hplace hcode (Bool.eq_false_iff.mpr hblank)
      have hbegin : s.begin c = ((s.begin c).1, []) := by rw [← hfound]
      dsimp only
      rw [hbegin]
      exact hnext.advances
  | @within gap o hopen hgap hread =>
    split
    · refine (HasRead.push ?_ hgap hread).advances
      rw [open?_inLiteral, hopen]
      rfl
    · next hcode =>
      split
      · refine (HasRead.push ?_ hgap hread).advances
        rw [open?_blank, hopen]
        rfl
      · next hblank =>
        rw [hopen]
        dsimp only
        split
        · -- The statement ends in front of the character, which stands behind an empty gap then.
          rw [← List.append_assoc, ← List.append_nil (above ++ gap ++ _)] at hplace
          obtain ⟨hfound, hnext⟩ :=
            begin_hasRead isGap_nil hplace hcode (Bool.eq_false_iff.mpr hblank)
          refine ⟨above ++ gap ++ o.read.reverse, [c], hnext, by simp, fun t fs hcovers => ?_⟩
          rw [hfound, List.append_assoc]
          exact Covers.item hgap hread hcovers
        · exact significant_advances hgap hread hcode c

/-! ### All characters -/

/-- The statements that are found in the rest, and the one that is being read, cover the text. -/
theorem covers_run (h : s.HasRead above read)
    (hplace : s.place = Position.behind {} (above ++ read)) (t : Text) :
    Covers Fragment.StandsBehind above (read ++ t) (s.run t) := by
  induction t generalizing s above read with
  | nil =>
    unfold run
    rw [List.append_nil]
    cases h with
    | gap hopen hcode hgap =>
      rw [hopen]
      exact .gap hgap
    | @within gap o hopen hgap hread =>
      rw [hopen]
      have hlast := Covers.item hgap hread (.gap isGap_nil)
      rwa [List.append_nil] at hlast
  | cons c t ih =>
    obtain ⟨above', read', hnext, hread', hcovers⟩ := step_advances h hplace c
    have hplace' : (s.step c).1.place = Position.behind {} (above' ++ read') := by
      rw [place_step, hplace, hread', ← List.append_assoc, Position.behind_append _ (above ++ read)]
      rfl
    exact hcovers t _ (ih hnext hplace')

end Splitter

/-- The fragments of a text cover it. -/
theorem covers_fragments (t : Text) : Covers Fragment.StandsBehind [] t (fragments t) :=
  have hnothing : Splitter.HasRead {} [] [] := .gap rfl rfl isGap_nil
  Splitter.covers_run hnothing rfl t

end DocContract
