import DocContract.Engine
import DocContract.Proofs.Lookup
import Mathlib.Data.List.Perm.Basic

/-!
# Histories of an engine

The files of a run may be processed in any order, each at a time of its own; the outcomes are
gathered in the order of the files. A history is a sequence of such runs, between which the engine
may be made anew with its settings. Taking the turns in order is what `Engine.run` does.
-/

namespace DocContract

/-! ### Runs in any order -/

/-- The turn of a file: its place in the run and the time at which it is processed. -/
structure Turn where
  place : Nat
  now : Instant

/-- The turns of a run, in the order in which they are taken. -/
abbrev Schedule := List Turn

namespace Schedule

/-- Each of a number of files has one turn. -/
def IsFor (turns : Schedule) (files : Nat) : Prop :=
  (turns.map Turn.place).Perm (List.range files)

/-- The turns of a number of files in the order of the files, all at one time. -/
def inOrder (files : Nat) (now : Instant) : Schedule :=
  (List.range files).map fun place => ⟨place, now⟩

/-- The schedule in order gives every file a turn. -/
theorem isFor_inOrder (files : Nat) (now : Instant) : (inOrder files now).IsFor files := by
  simp [IsFor, inOrder, Function.comp_def]

end Schedule

/-- The outcomes of a number of files in the order of the files. -/
def inPlaces (files : Nat) (outcomes : List (Nat × Outcome)) : List Outcome :=
  (List.range files).filterMap fun place => outcomes.lookup place

namespace Engine

/-- Takes the turns one after the other. A turn of no file does nothing. -/
def processBy (e : Engine) (work : List Work) (state : RunState) :
    Schedule → RunState × List (Nat × Outcome)
  | [] => (state, [])
  | turn :: turns =>
    match work[turn.place]? with
    | none => processBy e work state turns
    | some w =>
      let (state, outcome) := e.process turn.now state w
      let (state, outcomes) := processBy e work state turns
      (state, (turn.place, outcome) :: outcomes)

/-- Runs over the files of a manifest with these turns. -/
def runBy (e : Engine) (tree : FileTree) (turns : Schedule) (m : Manifest) :
    Engine × FileTree × Except Failure Report :=
  let work := Work.ofUnits m.sources m.tests
  let (state, outcomes) := e.processBy work ⟨e.cache?, tree⟩ turns
  ({ e with cache? := state.cache? }, state.tree,
    reportOf e.settings.strictMode (inPlaces work.length outcomes))

/-- The engine with no cache. -/
def withoutCache (e : Engine) : Engine := { e with cache? := none }

end Engine

/-! ### Histories -/

/-- What may happen between an engine and its user. -/
inductive Event where
  | run (m : Manifest) (turns : Schedule)
  /-- The engine is dropped and made anew with its settings. -/
  | reopen

/-- An engine and the files around it. -/
structure Session where
  engine : Engine
  tree : FileTree

namespace Session

/-- The effect of an event, and the report if it was a run. -/
def step (x : Session) : Event → Session × Option (Except Failure Report)
  | .run m turns =>
    let (engine, tree, report) := x.engine.runBy x.tree turns m
    (⟨engine, tree⟩, some report)
  | .reopen =>
    match Engine.create x.tree x.engine.settings with
    | (tree, .ok engine) => (⟨engine, tree⟩, none)
    | (tree, .error _) => ({ x with tree }, none)

/-- The reports of a history. -/
def reports (x : Session) : List Event → List (Except Failure Report)
  | [] => []
  | event :: events => (x.step event).2.toList ++ reports (x.step event).1 events

end Session

/-- The report of an engine without a cache about the files of a run. -/
def Event.plainReport? (e : Engine) (tree : FileTree) (now : Instant) :
    Event → Option (Except Failure Report)
  | .run m _ => some (e.withoutCache.run tree now false m).2.2
  | .reopen => none

/-! ### The outcomes in their places -/

private theorem filterMap_getElem?_range {α : Type} (as : List α) :
    ((List.range as.length).filterMap fun i => as[i]?) = as := by
  induction as with
  | nil => rfl
  | cons a as ih =>
    rw [List.length_cons, List.range_succ_eq_map, List.filterMap_cons, List.filterMap_map]
    exact congrArg (a :: ·) ih

private theorem forall₂_filterMap {α β γ : Type} {R : β → γ → Prop} {f : α → Option β}
    {g : α → Option γ} {as : List α} (h : ∀ a ∈ as, ∃ b c, f a = some b ∧ g a = some c ∧ R b c) :
    List.Forall₂ R (as.filterMap f) (as.filterMap g) := by
  induction as with
  | nil => exact .nil
  | cons a as ih =>
    obtain ⟨⟨b, c, hb, hc, hbc⟩, has⟩ := List.forall_mem_cons.mp h
    rw [List.filterMap_cons_some hb, List.filterMap_cons_some hc]
    exact .cons hbc (ih has)

section Gathered

variable {α : Type} {R : α → Outcome → Prop} {files : List α} {outcomes : List (Nat × Outcome)}

/-- When every file has an outcome, and each outcome is in a relation to the file of its place, the
outcomes that are gathered are in that relation to the files, one by one. -/
theorem forall₂_inPlaces (hall : ∀ place < files.length, ∃ o, (place, o) ∈ outcomes)
    (hright : ∀ p ∈ outcomes, ∃ w, files[p.1]? = some w ∧ R w p.2) :
    List.Forall₂ R files (inPlaces files.length outcomes) := by
  have hgathered : List.Forall₂ R ((List.range files.length).filterMap fun place => files[place]?)
      (inPlaces files.length outcomes) := by
    refine forall₂_filterMap fun place hplace => ?_
    cases hl : outcomes.lookup place with
    | none =>
      obtain ⟨o, ho⟩ := hall place (List.mem_range.mp hplace)
      rw [List.lookup_eq_none_iff] at hl
      exact absurd (hl _ ho) (by simp)
    | some o =>
      obtain ⟨w, hw, ho⟩ := hright _ (mem_of_lookup hl)
      exact ⟨w, o, hw, rfl, ho⟩
  rwa [filterMap_getElem?_range] at hgathered

private theorem Schedule.IsFor.forall₂_inPlaces {turns : Schedule} (h : turns.IsFor files.length)
    (hall : ∀ turn ∈ turns, turn.place < files.length → ∃ o, (turn.place, o) ∈ outcomes)
    (hright : ∀ p ∈ outcomes, ∃ w, files[p.1]? = some w ∧ R w p.2) :
    List.Forall₂ R files (inPlaces files.length outcomes) := by
  refine DocContract.forall₂_inPlaces (fun place hplace => ?_) hright
  have hmem : place ∈ turns.map Turn.place := h.mem_iff.mpr (List.mem_range.mpr hplace)
  obtain ⟨turn, hturn, rfl⟩ := List.mem_map.mp hmem
  exact hall turn hturn hplace

end Gathered

/-! ### One turn after the other -/

namespace Engine

variable {e : Engine}

/-- What every turn preserves, a run preserves. What every turn makes true of a file and its outcome
is true in each place, and no file that has a turn is left out. -/
theorem processBy_induction {work : List Work} {P : RunState → Prop} {R : Work → Outcome → Prop}
    (hturn : ∀ state, P state → ∀ w ∈ work, ∀ now,
      P (e.process now state w).1 ∧ R w (e.process now state w).2)
    (turns : Schedule) {state : RunState} (hs : P state) :
    P (e.processBy work state turns).1
      ∧ (∀ p ∈ (e.processBy work state turns).2, ∃ w, work[p.1]? = some w ∧ R w p.2)
      ∧ ∀ turn ∈ turns, turn.place < work.length →
        ∃ o, (turn.place, o) ∈ (e.processBy work state turns).2 := by
  induction turns generalizing state with
  | nil => exact ⟨hs, List.forall_mem_nil _, List.forall_mem_nil _⟩
  | cons turn turns ih =>
    rw [processBy]
    split
    · next hnone =>
      obtain ⟨hafter, hright, hall⟩ := ih hs
      refine ⟨hafter, hright, List.forall_mem_cons.mpr ⟨fun hlt => ?_, hall⟩⟩
      rw [List.getElem?_eq_none_iff] at hnone
      omega
    · next w hplace =>
      obtain ⟨hstep, hw⟩ := hturn state hs w (List.mem_of_getElem? hplace) turn.now
      obtain ⟨hafter, hright, hall⟩ := ih hstep
      refine ⟨hafter, List.forall_mem_cons.mpr ⟨⟨w, hplace, hw⟩, hright⟩,
        List.forall_mem_cons.mpr ⟨fun _ => ⟨_, List.mem_cons_self⟩, fun t ht hlt => ?_⟩⟩
      obtain ⟨o, ho⟩ := hall t ht hlt
      exact ⟨o, List.mem_cons_of_mem _ ho⟩

/-- When every file has a turn, the report is made of outcomes that stand to the files, one by one,
as each turn says. -/
theorem runBy_induction {m : Manifest} {P : RunState → Prop} {R : Work → Outcome → Prop}
    (hturn : ∀ state, P state → ∀ w ∈ Work.ofUnits m.sources m.tests, ∀ now,
      P (e.process now state w).1 ∧ R w (e.process now state w).2)
    {turns : Schedule} (hturns : turns.IsFor (Work.ofUnits m.sources m.tests).length)
    {tree : FileTree} (hs : P ⟨e.cache?, tree⟩) :
    ∃ outs, List.Forall₂ R (Work.ofUnits m.sources m.tests) outs
      ∧ (e.runBy tree turns m).2.2 = reportOf e.settings.strictMode outs := by
  obtain ⟨-, hright, hall⟩ := processBy_induction hturn turns hs
  exact ⟨_, hturns.forall₂_inPlaces hall hright, rfl⟩

/-- The report is that of the outcomes that every turn has. -/
theorem runBy_eq {m : Manifest} {P : RunState → Prop} {outcome : Work → Outcome}
    (hturn : ∀ state, P state → ∀ w ∈ Work.ofUnits m.sources m.tests, ∀ now,
      P (e.process now state w).1 ∧ (e.process now state w).2 = outcome w)
    {turns : Schedule} (hturns : turns.IsFor (Work.ofUnits m.sources m.tests).length)
    {tree : FileTree} (hs : P ⟨e.cache?, tree⟩) :
    (e.runBy tree turns m).2.2
      = reportOf e.settings.strictMode ((Work.ofUnits m.sources m.tests).map outcome) := by
  obtain ⟨outs, houts, hreport⟩ :=
    runBy_induction (R := fun w o => o = outcome w) hturn hturns hs
  have heq : outs = (Work.ofUnits m.sources m.tests).map outcome := by
    rw [← List.forall₂_eq_eq_eq, List.forall₂_map_right_iff]
    exact houts.flip
  rw [hreport, heq]

end Engine

/-! ### Turns in order -/

private theorem inPlaces_zip (outs : List Outcome) :
    inPlaces outs.length ((List.range outs.length).zip outs) = outs := by
  have hgathered : List.Forall₂ Eq outs
      (inPlaces outs.length ((List.range outs.length).zip outs)) := by
    apply forall₂_inPlaces
    · intro place hplace
      have hpair : ((List.range outs.length).zip outs)[place]? = some (place, outs[place]) :=
        List.getElem?_zip_eq_some.mpr
          ⟨List.getElem?_range hplace, List.getElem?_eq_getElem hplace⟩
      exact ⟨_, List.mem_of_getElem? hpair⟩
    · intro p hp
      obtain ⟨i, hi⟩ := List.mem_iff_getElem?.mp hp
      obtain ⟨hplace, ho⟩ := List.getElem?_zip_eq_some.mp hi
      have hlt := (List.getElem?_eq_some_iff.mp hplace).1
      rw [List.length_range] at hlt
      rw [List.getElem?_range hlt] at hplace
      rw [← Option.some.inj hplace]
      exact ⟨p.2, ho, rfl⟩
  exact (List.forall₂_eq_eq_eq ▸ hgathered).symm

namespace Engine

variable {e : Engine}

/-- Turns in order process the files in order. -/
theorem processBy_inOrder {now : Instant} (before : List Work) (ws : List Work) (state : RunState) :
    e.processBy (before ++ ws) state
        ((List.range' before.length ws.length).map fun place => ⟨place, now⟩)
      = ((e.processAll now state ws).1,
        (List.range' before.length ws.length).zip (e.processAll now state ws).2) := by
  induction ws generalizing before state with
  | nil => rfl
  | cons w ws ih =>
    have hplace : (before ++ w :: ws)[before.length]? = some w := by simp
    have hsplit : before ++ w :: ws = (before ++ [w]) ++ ws := by simp
    have hrest := ih (before ++ [w]) (e.process now state w).1
    rw [List.length_append, List.length_singleton] at hrest
    rw [List.length_cons, List.range'_succ, List.map_cons, processBy]
    simp only [hplace]
    rw [hsplit, hrest, processAll, List.zip_cons_cons]

private theorem length_processAll (now : Instant) (state : RunState) (ws : List Work) :
    (e.processAll now state ws).2.length = ws.length := by
  induction ws generalizing state with
  | nil => rfl
  | cons w ws ih =>
    rw [processAll, List.length_cons, List.length_cons, ih]

/-- With the turns in order a run is the run of the engine. -/
theorem runBy_inOrder (tree : FileTree) (now : Instant) (m : Manifest) :
    e.runBy tree (.inOrder (Work.ofUnits m.sources m.tests).length now) m
      = e.run tree now false m := by
  have hby := @processBy_inOrder e now [] (Work.ofUnits m.sources m.tests) ⟨e.cache?, tree⟩
  have hlength := length_processAll (e := e) now ⟨e.cache?, tree⟩ (Work.ofUnits m.sources m.tests)
  simp only [List.nil_append, List.length_nil, ← List.range_eq_range'] at hby
  have hplaces := inPlaces_zip
    (e.processAll now ⟨e.cache?, tree⟩ (Work.ofUnits m.sources m.tests)).2
  rw [hlength] at hplaces
  unfold runBy run
  dsimp only
  rw [Schedule.inOrder, hby, hplaces]
  rfl

end Engine

end DocContract
