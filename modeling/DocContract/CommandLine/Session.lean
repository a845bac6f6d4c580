import DocContract.CommandLine.Resolve
import DocContract.Engine

/-!
# A session of the command line

What a command line does as a whole: it reads its arguments, resolves the settings, reads the
manifest, runs the engine, and writes the report to the standard output or to a file. Nothing is
written to the standard output when a step fails.
-/

namespace DocContract

open Text

/-- How a session ends. -/
inductive ExitStatus where
  | passed
  /-- The report has errors, or is not complete. -/
  | failed
  /-- There is no report. -/
  | broken
  deriving DecidableEq, Repr

/-- The number of a status. -/
def ExitStatus.code : ExitStatus → Nat
  | .passed => 0
  | .failed => 1
  | .broken => 2

/-- What a session leaves behind. -/
structure SessionResult where
  status : ExitStatus
  output : Text
  /-- What is said on the standard error output. -/
  complaint : Text := []
  tree : FileTree

/-- The line that names the program. -/
def versionText : Text := "doclint 0.1.0\n"

/-- The help text. -/
def helpText : Text :=
  "Doc-comment schema and test layout checker\n\n"
    ++ "Usage: doclint [OPTIONS] <MANIFEST>\n\n"
    ++ "Arguments:\n"
    ++ "  <MANIFEST>  JSON manifest listing `sources` and `tests` units\n\n"
    ++ "Options:\n"
    ++ "  -c, --config <CONFIG>        Configuration file "
    ++ "(default: nearest .doclint.toml above the manifest)\n"
    ++ "      --strict                 Treat every warning as an error\n"
    ++ "  -j, --jobs <JOBS>            Number of worker threads "
    ++ "(1 disables parallel validation)\n"
    ++ "  -f, --format <FORMAT>        Output format "
    ++ "[default: json] [possible values: json, terminal]\n"
    ++ "  -o, --output <OUTPUT>        Output file (defaults to stdout)\n"
    ++ "      --cache-dir <CACHE_DIR>  Persist results under this directory "
    ++ "and reuse them on later runs\n"
    ++ "  -v, --verbose...             Increase log verbosity (-v debug, -vv trace)\n"
    ++ "  -h, --help                   Print help\n"
    ++ "  -V, --version                Print version\n"

/-- Why a session has no report: the step that failed, and the cause. -/
inductive SessionError where
  | settings (cause : Failure)
  | manifest (file : Path) (cause : Failure)
  | run (cause : Failure)
  | output (file : Path) (cause : FileError)
  deriving DecidableEq, Repr

/-- The wording of an error. -/
def SessionError.message : SessionError → Text
  | .settings cause => "Failed to resolve configuration: " ++ cause.message
  | .manifest file cause => "Failed to read manifest " ++ file ++ ": " ++ cause.message
  | .run cause => cause.message
  | .output file cause => "Failed to create " ++ file ++ ": " ++ cause.message

/-- The manifest in a file. -/
def Manifest.load (tree : FileTree) (file : Path) : Except Failure Manifest :=
  match tree.read file with
  | .error cause => .error (.io cause)
  | .ok t =>
    match Manifest.ofText? t with
    | none => .error .json
    | some m => .ok m

namespace Arguments

/-- The report of a run, with the files after it. -/
def report (tree : FileTree) (now : Instant) (a : Arguments) :
    FileTree × Except SessionError Report :=
  match a.settings tree with
  | .error cause => (tree, .error (.settings cause))
  | .ok s =>
    match Manifest.load tree a.manifest with
    | .error cause => (tree, .error (.manifest a.manifest cause))
    | .ok m =>
      match Engine.create tree s with
      | (tree, .error cause) => (tree, .error (.run cause))
      | (tree, .ok engine) =>
        let (_, tree, report) := engine.run tree now false m
        (tree, report.mapError .run)

/-- Writes a report where it is wanted: the files after it, and the standard output. -/
def deliver (tree : FileTree) (a : Arguments) (r : Report) :
    Except SessionError (FileTree × Text) :=
  let text := r.write a.format false
  match a.output? with
  | none => .ok (tree, text)
  | some file =>
    match tree.write file text with
    | .error cause => .error (.output file cause)
    | .ok tree => .ok (tree, [])

/-- A session that ends without a report. -/
def broken (tree : FileTree) (cause : SessionError) : SessionResult :=
  { status := .broken, output := [], complaint := "Error: " ++ cause.message ++ "\n", tree }

/-- A session with arguments that could be read. -/
def session (tree : FileTree) (now : Instant) (a : Arguments) : SessionResult :=
  match a.report tree now with
  | (tree, .error cause) => broken tree cause
  | (tree, .ok report) =>
    match a.deliver tree report with
    | .error cause => broken tree cause
    | .ok (tree, output) =>
      { status := if report.passed then .passed else .failed, output, tree }

end Arguments

/-- A session of the command line, given its words without the name of the program. -/
def session (tree : FileTree) (now : Instant) (words : List Text) : SessionResult :=
  match Arguments.parse words with
  | .ok a => a.session tree now
  | .error .help => { status := .passed, output := helpText, tree }
  | .error .version => { status := .passed, output := versionText, tree }
  | .error (.refused cause) =>
    { status := .broken, output := [], complaint := "error: " ++ cause.message ++ "\n", tree }

end DocContract
