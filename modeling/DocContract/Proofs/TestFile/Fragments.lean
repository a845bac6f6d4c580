import DocContract.TestFile.Outline

/-!
# Where statements start

The splitter notes the place of each statement but never looks at it. So the statements of a file
have the same texts when a call stands in front of them, only at other places.
-/

namespace DocContract

namespace Splitter

/-- Two splitters differ in places only. -/
structure Alike (s s' : Splitter) : Prop where
  depth : s.depth = s'.depth
  nesting : s.nesting = s'.nesting
  read : s.open?.map OpenFragment.read = s'.open?.map OpenFragment.read
  last : s.last? = s'.last?
  atEnd : s.atEnd = s'.atEnd

section Alike

variable {s s' : Splitter} (h : s.Alike s') (c : Char)

include h

private theorem Alike.isSome : s.open?.isSome = s'.open?.isSome := by
  have hread := congrArg Option.isSome h.read
  rwa [Option.isSome_map, Option.isSome_map] at hread

private theorem Alike.open_cases : s.open? = none ∧ s'.open? = none
    ∨ ∃ o o', s.open? = some o ∧ s'.open? = some o' ∧ o.read = o'.read := by
  have hread := h.read
  cases ho : s.open? with
  | none =>
    rw [ho] at hread
    exact .inl ⟨rfl, Option.map_eq_none_iff.mp hread.symm⟩
  | some o =>
    rw [ho] at hread
    obtain ⟨o', ho', hsame⟩ := Option.map_eq_some_iff.mp hread.symm
    exact .inr ⟨o, o', rfl, ho', hsame.symm⟩

private theorem Alike.keep : (s.keep c).Alike (s'.keep c) := by
  refine ⟨h.depth, h.nesting, ?_, h.last, h.atEnd⟩
  have hread := congrArg (Option.map (c :: ·)) h.read
  rw [Option.map_map, Option.map_map] at hread
  unfold Splitter.keep
  rw [Option.map_map, Option.map_map]
  exact hread

private theorem Alike.inLiteral (quote : Char) (escaped : Bool) :
    (s.inLiteral quote escaped c).Alike (s'.inLiteral quote escaped c) := by
  unfold Splitter.inLiteral
  dsimp only
  split
  · exact { h.keep c with nesting := rfl }
  · split
    · exact { h.keep c with nesting := rfl, last := rfl }
    · split
      · exact { h.keep c with nesting := rfl, last := rfl }
      · exact { h.keep c with last := rfl }

private theorem Alike.blank : (s.blank c).Alike (s'.blank c) := by
  have hkeep := h.keep c
  unfold Splitter.blank
  dsimp only
  rw [hkeep.depth, hkeep.isSome, hkeep.last]
  split
  · exact ⟨rfl, hkeep.nesting, hkeep.read, rfl, rfl⟩
  · exact hkeep

private theorem Alike.significant {o o' : OpenFragment} (ho : o.read = o'.read) :
    (s.significant o c).1.Alike (s'.significant o' c).1
      ∧ (s.significant o c).2.map Fragment.text = (s'.significant o' c).2.map Fragment.text := by
  unfold Splitter.significant
  dsimp only
  rw [h.depth]
  split
  · refine ⟨⟨rfl, h.nesting, rfl, rfl, rfl⟩, ?_⟩
    simp [OpenFragment.close, OpenFragment.push, ho]
  · refine ⟨⟨rfl, rfl, ?_, rfl, rfl⟩, rfl⟩
    simp [OpenFragment.push, ho]

private theorem Alike.begin : (s.begin c).1.Alike (s'.begin c).1
    ∧ (s.begin c).2.map Fragment.text = (s'.begin c).2.map Fragment.text := by
  unfold Splitter.begin
  split
  · exact ⟨{ h with read := rfl, atEnd := rfl }, rfl⟩
  · exact h.significant c rfl

/-- A step does not depend on places. -/
theorem Alike.step : (s.step c).1.Alike (s'.step c).1
    ∧ (s.step c).2.map Fragment.text = (s'.step c).2.map Fragment.text := by
  unfold Splitter.step
  rw [h.nesting]
  split
  · exact ⟨h.inLiteral c _ _, rfl⟩
  · split
    · exact ⟨h.blank c, rfl⟩
    · rcases h.open_cases with ⟨ho, ho'⟩ | ⟨o, o', ho, ho', hread⟩
      · rw [ho, ho']
        exact h.begin c
      · rw [ho, ho', h.atEnd]
        dsimp only
        split
        · obtain ⟨hbegin, hfound⟩ := h.begin c
          refine ⟨hbegin, ?_⟩
          rw [List.map_cons, List.map_cons, hfound, OpenFragment.close, OpenFragment.close, hread]
        · exact h.significant c hread

end Alike

/-- The texts of the statements do not depend on places. -/
theorem Alike.run {s s' : Splitter} (h : s.Alike s') (t : Text) :
    (s.run t).map Fragment.text = (s'.run t).map Fragment.text := by
  induction t generalizing s s' with
  | nil =>
    unfold Splitter.run
    rcases h.open_cases with ⟨ho, ho'⟩ | ⟨o, o', ho, ho', hread⟩
    · rw [ho, ho']
    · rw [ho, ho']
      simp [OpenFragment.close, hread]
  | cons c t ih =>
    obtain ⟨hstep, hfound⟩ := h.step c
    unfold Splitter.run
    dsimp only
    rw [List.map_append, List.map_append, hfound, ih hstep]

end Splitter

/-- A suite without a case. -/
def emptySuite : Text := "describe();"

/-- An empty suite in front of a text is not changed when comments are masked. -/
theorem maskComments_emptySuite (t : Text) :
    maskComments (emptySuite ++ t) = emptySuite ++ maskComments t := rfl

/-- Behind an empty suite a file has the statements that it has alone. -/
theorem fragments_emptySuite (t : Text) : ∃ fs,
    fragments (emptySuite ++ t) = ⟨{}, emptySuite⟩ :: fs
      ∧ fs.map Fragment.text = (fragments t).map Fragment.text := by
  have halike : Splitter.Alike { place := ⟨1, 12⟩ } {} := ⟨rfl, rfl, rfl, rfl, rfl⟩
  exact ⟨Splitter.run { place := ⟨1, 12⟩ } t, rfl, halike.run t⟩

end DocContract
