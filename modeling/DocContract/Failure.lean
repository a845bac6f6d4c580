import DocContract.Path

/-!
# Failures

What makes a run or a request fail as a whole. A finding in a file is never a failure. A failure is
kept as its cause, and its wording is read off it.
-/

namespace DocContract

open Text

/-- Why a file cannot be read or written. -/
inductive FileError where
  | notFound
  | notDirectory
  | isDirectory
  | alreadyExists
  /-- The content is no text. -/
  | notText
  /-- The path cannot name a file. -/
  | badPath
  deriving DecidableEq, Repr

/-- The wording of a file error. -/
def FileError.message : FileError → Text
  | .notFound => "No such file or directory (os error 2)"
  | .notDirectory => "Not a directory (os error 20)"
  | .isDirectory => "Is a directory (os error 21)"
  | .alreadyExists => "File exists (os error 17)"
  | .notText => "stream did not contain valid UTF-8"
  | .badPath => "file name contained an unexpected NUL byte"

/-- Options that make a run meaningless. -/
inductive SettingsError where
  | zeroDepth
  | zeroConcurrency
  | badFlowPattern (pattern : Text)
  | zeroJobs
  deriving DecidableEq, Repr

/-- The wording of an error in the options. -/
def SettingsError.message : SettingsError → Text
  | .zeroDepth => "max_tag_depth must be at least 1"
  | .zeroConcurrency => "parallel.max_concurrency must be at least 1"
  | .badFlowPattern pattern =>
    "invalid tests.flow_file_pattern '" ++ pattern ++ "': regex parse error"
  | .zeroJobs => "--jobs must be at least 1"

/-- Why a request fails. -/
inductive Failure where
  /-- A symbol is declared outside its file. -/
  | symbolOutsideFile (file : Path) (symbol : Text) (line lineCount : Nat)
  | settings (cause : SettingsError)
  /-- A configuration file that was asked for cannot be read. -/
  | unreadableSettings (file : Path) (cause : FileError)
  /-- A configuration file that was asked for holds errors. -/
  | invalidSettings (file : Path) (cause : Failure)
  /-- The directory of the cache cannot be made. -/
  | cache (dir : Path) (cause : FileError)
  | io (cause : FileError)
  | json
  | toml
  deriving DecidableEq, Repr

namespace Failure

/-- The wording of a failure. -/
def message : Failure → Text
  | .symbolOutsideFile file symbol line lineCount =>
    "Contract violation in " ++ file ++ ": symbol " ++ quoted symbol ++ " declared on line "
      ++ ofNat line ++ " but the file has " ++ ofNat lineCount ++ " lines"
  | .settings cause => "Configuration error: " ++ cause.message
  | .unreadableSettings file cause =>
    "Configuration error: failed to read " ++ file ++ ": " ++ cause.message
  | .invalidSettings file cause => "Configuration error: " ++ file ++ ": " ++ cause.message
  | .cache dir cause => "Cache error: failed to create " ++ dir ++ ": " ++ cause.message
  | .io cause => cause.message
  | .json => "JSON error"
  | .toml => "TOML parse error"

end Failure

end DocContract
