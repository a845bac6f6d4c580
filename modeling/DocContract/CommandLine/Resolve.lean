import DocContract.CommandLine.Arguments
import DocContract.Settings.Discovery
import DocContract.Settings.Validity

/-!
# The settings of a command line

The configuration file comes first, then the options that override it. A file that is named has to
be good; otherwise the nearest one above the manifest counts.
-/

namespace DocContract

namespace Arguments

/-- The directory of the manifest as it was written; the working directory if none was. -/
def manifestDir (a : Arguments) : Path :=
  match Path.parent? a.manifest with
  | none => ['.']
  | some [] => ['.']
  | some (c :: dir) => c :: dir

/-- Where the search for a configuration file begins. -/
def searchStart (tree : FileTree) (a : Arguments) : Path :=
  (tree.realPath? a.manifestDir).getD a.manifestDir

/-- The settings of the configuration file. -/
def fileSettings (tree : FileTree) (a : Arguments) : Except Failure Settings :=
  match a.config? with
  | some file => Settings.load tree file
  | none => .ok (Settings.discover tree (a.searchStart tree))

/-- The settings with a number of jobs: one job means no parallel work. -/
def withJobs (s : Settings) : Option Nat → Except Failure Settings
  | none => .ok s
  | some 0 => .error (.settings .zeroJobs)
  | some 1 => .ok { s with parallel := { s.parallel with enabled := false } }
  | some n => .ok { s with parallel := { enabled := true, maxConcurrency? := some n } }

/-- The settings with a directory for the cache. -/
def withCacheDir (s : Settings) : Option Path → Settings
  | none => s
  | some dir => { s with cache := { enabled := true, dir? := some dir } }

/-- The settings of the run. -/
def settings (tree : FileTree) (a : Arguments) : Except Failure Settings := do
  let s ← a.fileSettings tree
  let s ← withJobs { s with strictMode := s.strictMode || a.strict } a.jobs?
  (withCacheDir s a.cacheDir?).validated

end Arguments

end DocContract
