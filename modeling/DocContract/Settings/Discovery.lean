import DocContract.FileTree
import DocContract.Settings.Document

/-!
# Finding the configuration

A configuration file that is asked for has to be readable and valid. Otherwise the configuration is
looked for in a directory and the directories above it, nearest first; a file that is unreadable or
invalid is passed over, and without any the defaults hold.
-/

namespace DocContract

namespace Settings

/-- The name of a configuration file. -/
def fileName : Path := ".doclint.toml"

/-- The number of directories that are searched. -/
def searchDepth : Nat := 10

/-- The settings in a file that was asked for. -/
def load (tree : FileTree) (file : Path) : Except Failure Settings :=
  match tree.read file with
  | .error cause => .error (.unreadableSettings file cause)
  | .ok t =>
    match ofDocument t with
    | .error cause => .error (.invalidSettings file cause)
    | .ok s => .ok s

/-- The settings in a file, if it is readable and valid. -/
def load? (tree : FileTree) (file : Path) : Option Settings :=
  match tree.read file with
  | .error _ => none
  | .ok t =>
    match ofDocument t with
    | .error _ => none
    | .ok s => some s

/-- The configuration files that are looked for from a directory upwards, nearest first. -/
def candidates (start : Path) : List Path :=
  (Path.ancestors start searchDepth).map fun dir => Path.append dir fileName

/-- The settings that hold in a directory. -/
def discover (tree : FileTree) (start : Path) : Settings :=
  ((candidates start).findSome? (load? tree)).getD {}

/-- The settings that hold in the working directory. -/
def discoverHere (tree : FileTree) : Settings := discover tree (FileTree.pathOf tree.cwd)

end Settings

end DocContract
