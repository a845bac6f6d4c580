import DocContract.Path

/-!
# Settings

The options of a run and their defaults. `fingerprint` is the text that stands for the options that
bear on findings; the number of workers and the place of the cache are not among them.
-/

namespace DocContract

/-- The two ways to write a nested field. -/
inductive Convention where
  /-- `- name: type - description` -/
  | dashPlus
  /-- `- {type} name - description` -/
  | braceTyped
  deriving DecidableEq, Repr

namespace Convention

/-- The name of a convention in a configuration. -/
def name : Convention → Text
  | .dashPlus => "DASH_PLUS"
  | .braceTyped => "BRACE_TYPED"

/-- The name of a convention in the fingerprint. -/
def shortName : Convention → Text
  | .dashPlus => "DashPlus"
  | .braceTyped => "BraceTyped"

/-- The convention of a name. -/
def ofName? (t : Text) : Option Convention :=
  if t == Convention.dashPlus.name then some .dashPlus
  else if t == Convention.braceTyped.name then some .braceTyped
  else none

end Convention

/-- How many workers a run may use. -/
structure ParallelSettings where
  enabled : Bool := true
  maxConcurrency? : Option Nat := none
  deriving DecidableEq, Repr

namespace ParallelSettings

/-- The number of workers, if it does not depend on the machine. -/
def workers? (p : ParallelSettings) : Option Nat :=
  if p.enabled then p.maxConcurrency? else some 1

end ParallelSettings

/-- The words that mark the preparation of a database. -/
def defaultDbKeywords : List Text :=
  ["db", "database", "prisma", "knex", "mongoose", "sequelize", "typeorm", "datasource", "migrate",
   "truncate", "seed"]

/-- The words that mark a negative path. -/
def defaultNegativeKeywords : List Text :=
  ["throws", "fails", "rejects", "error", "invalid", "denied", "unauthorized", "forbidden",
   "not found", "cannot", "missing", "expired"]

/-- The names of flow files: words joined by dashes, then `flow` or `integration`, then `test` or
`spec`, then an extension. -/
def defaultFlowPattern : Text :=
  "^[a-z0-9]+(?:-[a-z0-9]+)*\\.(?:flow|integration)\\.(?:test|spec)\\.[a-z]+$"

/-- The conventions for test files. -/
structure LayoutSettings where
  dbSetupKeywords : List Text := defaultDbKeywords
  negativeCaseKeywords : List Text := defaultNegativeKeywords
  /-- A regular expression that the name of an integration test file has to match. -/
  flowFilePattern : Text := defaultFlowPattern
  deriving DecidableEq, Repr

/-- Whether results are kept, and where. -/
structure CacheSettings where
  enabled : Bool := false
  dir? : Option Path := none
  deriving DecidableEq, Repr

/-- The tags that are known but say nothing that could be checked. -/
def defaultExtraTags : List Text := ["deprecated", "see", "since", "internal", "example"]

/-- The options of a run. -/
structure Settings where
  /-- Every warning counts as an error. -/
  strictMode : Bool := false
  /-- Internal symbols that do notable work have to be documented. -/
  requireInternalDocs : Bool := true
  markerConvention : Convention := .dashPlus
  /-- A gap in the coverage of a test file is an error. -/
  coverageGapIsError : Bool := false
  /-- The deepest level of nested fields that passes without a warning. -/
  maxTagDepth? : Option Nat := none
  extraTags : List Text := defaultExtraTags
  parallel : ParallelSettings := {}
  tests : LayoutSettings := {}
  cache : CacheSettings := {}
  deriving DecidableEq, Repr

namespace Settings

/-- Is the tag accepted without being read? -/
def isExtraTag (s : Settings) (tag : Text) : Bool := s.extraTags.contains tag

/-- A truth value in the fingerprint. -/
def flagText (b : Bool) : Text := if b then "true" else "false"

/-- The depth limit in the fingerprint. -/
def depthText : Option Nat → Text
  | none => "None"
  | some n => "Some(" ++ Text.ofNat n ++ ")"

/-- The text that stands for the options that bear on findings. -/
def fingerprint (s : Settings) : Text :=
  "strict=" ++ flagText s.strictMode ++ ";internal=" ++ flagText s.requireInternalDocs
    ++ ";markers=" ++ s.markerConvention.shortName ++ ";gap=" ++ flagText s.coverageGapIsError
    ++ ";depth=" ++ depthText s.maxTagDepth? ++ ";extra=" ++ Text.join "," s.extraTags
    ++ ";db=" ++ Text.join "," s.tests.dbSetupKeywords
    ++ ";neg=" ++ Text.join "," s.tests.negativeCaseKeywords
    ++ ";flow=" ++ s.tests.flowFilePattern

end Settings

end DocContract
