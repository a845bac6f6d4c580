import DocContract.Report.Format

/-!
# Options of the command line

What can be given on the command line, by which names, and why a command line is refused. The
manifest has no name; it is the one argument that is given by its position.
-/

namespace DocContract

open Text

/-- What takes a value. -/
inductive Slot where
  | manifest
  | config
  | jobs
  | format
  | output
  | cacheDir
  deriving DecidableEq, Repr

/-- What takes none. -/
inductive Switch where
  | strict
  | verbose
  | help
  | version
  deriving DecidableEq, Repr

/-- An option. -/
inductive CommandOption where
  | valued (slot : Slot)
  | switch (switch : Switch)
  deriving DecidableEq, Repr

namespace CommandOption

/-- The options with their long names and, if they have one, their one-letter names. -/
def table : List (CommandOption × Text × Option Char) :=
  [(.valued .config, "config", some 'c'), (.switch .strict, "strict", none),
   (.valued .jobs, "jobs", some 'j'), (.valued .format, "format", some 'f'),
   (.valued .output, "output", some 'o'), (.valued .cacheDir, "cache-dir", none),
   (.switch .verbose, "verbose", some 'v'), (.switch .help, "help", some 'h'),
   (.switch .version, "version", some 'V')]

/-- The option of a long name. -/
def ofName? (name : Text) : Option CommandOption :=
  (table.find? fun row => row.2.1 == name).map (·.1)

/-- The option of a letter. -/
def ofLetter? (c : Char) : Option CommandOption :=
  (table.find? fun row => row.2.2 == some c).map (·.1)

/-- The option as messages name it; the manifest is named by what it stands for. -/
def label : CommandOption → Text
  | .valued .manifest => "<MANIFEST>"
  | option =>
    match table.find? fun row => row.1 == option with
    | some row => "--" ++ row.2.1
    | none => []

end CommandOption

/-- Why a command line is refused. -/
inductive UsageError where
  | missingManifest
  | unknownArgument (arg : Text)
  /-- The value is missing, or empty where it has to be a path. -/
  | missingValue (slot : Slot)
  /-- The value is not one of those that are allowed. -/
  | unknownValue (slot : Slot) (value : Text)
  | notNumber (slot : Slot) (value : Text)
  | repeated (option : CommandOption)
  /-- A value where none can be. -/
  | unexpectedValue (switch : Switch) (value : Text)
  deriving DecidableEq, Repr

namespace UsageError

/-- The wording of an error. -/
def message : UsageError → Text
  | .missingManifest =>
    "the following required arguments were not provided: " ++ (CommandOption.valued .manifest).label
  | .unknownArgument arg => "unexpected argument '" ++ arg ++ "' found"
  | .missingValue slot =>
    "a value is required for '" ++ (CommandOption.valued slot).label ++ "' but none was supplied"
  | .unknownValue slot value =>
    "invalid value '" ++ value ++ "' for '" ++ (CommandOption.valued slot).label ++ "'"
  | .notNumber slot value =>
    "invalid value '" ++ value ++ "' for '" ++ (CommandOption.valued slot).label
      ++ "': not a number in range"
  | .repeated option =>
    "the argument '" ++ option.label ++ "' cannot be used multiple times"
  | .unexpectedValue switch value =>
    "unexpected value '" ++ value ++ "' for '" ++ (CommandOption.switch switch).label
      ++ "' found; no more were expected"

end UsageError

/-- Why reading a command line ends without arguments for a run. -/
inductive CommandLineStop where
  | refused (cause : UsageError)
  | help
  | version
  deriving DecidableEq, Repr

end DocContract
