import DocContract.Cache
import DocContract.Manifest
import DocContract.Report
import DocContract.Schema.Validate
import DocContract.Settings.Validity
import DocContract.TestFile.Layout

/-!
# Runs

An engine checks the files of a run one by one and assembles the report. The files do not bear on
each other, except that a test file is checked against the source file that it is paired with. A run
is pure: what it does to the cache and to the files that the cache keeps is part of its result.
-/

namespace DocContract

/-- One file to check. -/
inductive Work where
  | source (u : SourceUnit)
  | test (u : TestUnit) (source? : Option SourceUnit)

/-- What became of one file. -/
inductive Outcome where
  | checked (ds : List Diagnostic)
  /-- The run was cancelled before. -/
  | skipped
  | failed (file : Path) (cause : Failure)

/-- The findings of each file that was checked. -/
def Outcome.diagnostics : Outcome → List Diagnostic
  | .checked ds => ds
  | _ => []

/-- Was the file checked? -/
def Outcome.isChecked : Outcome → Bool
  | .checked _ => true
  | _ => false

/-- Was the file skipped? -/
def Outcome.isSkipped : Outcome → Bool
  | .skipped => true
  | _ => false

/-- The failure of a file with its path. -/
def Outcome.failure? : Outcome → Option (Path × Failure)
  | .failed file cause => some (file, cause)
  | _ => none

namespace Work

/-- The source file of a path; of several the last one counts. -/
def sourceAt? (sources : List SourceUnit) (p : Path) : Option SourceUnit :=
  (sources.filter fun s => Path.same s.path p).getLast?

/-- The files of a run, source files first. -/
def ofUnits (sources : List SourceUnit) (tests : List TestUnit) : List Work :=
  sources.map .source
    ++ tests.map fun t => .test t (t.pairedSource?.bind (sourceAt? sources))

/-- The time of the last change of the file, if it is known; that of a test file never is. -/
def modified? : Work → Option Instant
  | .source u => u.modified?
  | .test _ _ => none

/-- The key of the file in a cache. -/
def key (c : ResultCache) : Work → CacheKey
  | .source u => c.sourceKey u
  | .test u source? => c.testKey u source?

/-- Checks the file. -/
def check (s : Settings) (layout : TestLayout) : Work → Outcome
  | .source u =>
    match validateUnit s u with
    | .ok ds => .checked ds
    | .error cause => .failed u.path cause
  | .test u source? => .checked (layout.validate u source?)

end Work

/-- The failure to report: that of the smallest path, and of equal paths the first. -/
def firstFailure? : List (Path × Failure) → Option Failure
  | [] => none
  | (file, cause) :: more =>
    let least := more.foldl
      (fun best next => if Path.order next.1 best.1 == .lt then next else best) (file, cause)
    some least.2

/-- The report of a run with these outcomes, or its failure. -/
def reportOf (strict : Bool) (outcomes : List Outcome) : Except Failure Report :=
  match firstFailure? (outcomes.filterMap Outcome.failure?) with
  | some cause => .error cause
  | none =>
    .ok (Report.assemble strict (!outcomes.any Outcome.isSkipped)
      (outcomes.countP Outcome.isChecked) (outcomes.flatMap Outcome.diagnostics))

/-- What a run changes: the cache, if there is one, and the files. -/
structure RunState where
  cache? : Option ResultCache
  tree : FileTree

/-- The settings of a run, ready for use. -/
structure Engine where
  settings : Settings
  layout : TestLayout
  cache? : Option ResultCache

namespace Engine

/-- An engine with a given cache, or none. The settings have to be valid. -/
def withCache (s : Settings) (cache? : Option ResultCache) : Except Failure Engine :=
  match s.validated with
  | .error cause => .error cause
  | .ok s =>
    match TestLayout.ofSettings s with
    | .error cause => .error cause
    | .ok layout => .ok ⟨s, layout, cache?⟩

/-- An engine with a cache of its own if the settings ask for one. The directory of the cache is
made even when the settings turn out to be invalid. -/
def create (tree : FileTree) (s : Settings) : FileTree × Except Failure Engine :=
  if s.cache.enabled then
    match ResultCache.openIn tree s with
    | (tree, .error cause) => (tree, .error cause)
    | (tree, .ok cache) => (tree, withCache s (some cache))
  else (tree, withCache s none)

/-- Checks one file, asking the cache first. A failure is not kept. -/
def process (e : Engine) (now : Instant) (state : RunState) (w : Work) : RunState × Outcome :=
  match state.cache? with
  | none => (state, w.check e.settings e.layout)
  | some cache =>
    let key := w.key cache
    match cache.get state.tree key w.modified? with
    | (cache, some ds) => (⟨some cache, state.tree⟩, .checked ds)
    | (cache, none) =>
      match w.check e.settings e.layout with
      | .checked ds =>
        let (cache, tree) := cache.put state.tree key ds now
        (⟨some cache, tree⟩, .checked ds)
      | outcome => (⟨some cache, state.tree⟩, outcome)

/-- Checks the files in order. -/
def processAll (e : Engine) (now : Instant) (state : RunState) :
    List Work → RunState × List Outcome
  | [] => (state, [])
  | w :: ws =>
    let (state, outcome) := e.process now state w
    let (state, outcomes) := processAll e now state ws
    (state, outcome :: outcomes)

/-- Runs over the files of a manifest. A run that was cancelled before it began skips every file. -/
def run (e : Engine) (tree : FileTree) (now : Instant) (cancelled : Bool) (m : Manifest) :
    Engine × FileTree × Except Failure Report :=
  let work := Work.ofUnits m.sources m.tests
  if cancelled then (e, tree, reportOf e.settings.strictMode (work.map fun _ => .skipped))
  else
    let (state, outcomes) := e.processAll now ⟨e.cache?, tree⟩ work
    ({ e with cache? := state.cache? }, state.tree, reportOf e.settings.strictMode outcomes)

end Engine

end DocContract
