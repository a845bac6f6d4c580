import DocContract.CommandLine.Session
import Std.Time.Format

/-!
# The program

The outer layer: it takes a picture of the files that the command line consults, runs the session
on that picture, and carries out what the session did to it. Files that cannot be read for another
reason than being absent count as absent.
-/

namespace DocContract

namespace FileTree

/-- The entry at an absolute path, as it is on the disk. -/
def entryOnDisk? (path : String) : IO (Option FileNode) := do
  try
    let bytes ← IO.FS.readBinFile path
    return some (.file ((String.fromUTF8? bytes).map String.toList))
  catch _ =>
    try
      let _ ← IO.FS.realPath (path ++ "/.")
      return some .directory
    catch _ => return none

/-- The tree with what lies on the way to a path, and at its end. -/
def takePicture (tree : FileTree) (path : Path) : IO FileTree := do
  let mut tree := tree
  let mut place := (tree.start path).1
  for name in (tree.start path).2 do
    if name.isEmpty || name == ['.'] then continue
    if name == ['.', '.'] then
      place := place.dropLast
    else
      place := place ++ [name]
      match ← entryOnDisk? (String.ofList (pathOf place)) with
      | none => return tree
      | some node => tree := tree.set place node
  return tree

/-- The tree with the working directory of the process. -/
def ofProcess : IO FileTree := do
  let cwd := (← IO.currentDir).toString.toList
  return FileTree.empty ((Path.pieces cwd).filter fun name => !name.isEmpty)

/-- The tree with what lies directly in a directory. -/
def takePictureInside (tree : FileTree) (dir : Path) : IO FileTree := do
  let mut tree ← tree.takePicture dir
  match tree.locate dir with
  | .error _ => return tree
  | .ok place =>
    let entries ←
      try (← IO.FS.realPath (String.ofList (pathOf place))).readDir
      catch _ => pure #[]
    for entry in entries do
      tree ← tree.takePicture (Path.append dir entry.fileName.toList)
    return tree

/-- Makes the disk agree with the nodes of a tree that were not in the picture. -/
def develop (before after : FileTree) : IO Unit := do
  for (place, node) in after.nodes do
    if before.node? place != some node then
      let path := String.ofList (pathOf place)
      match node with
      | .directory => IO.FS.createDirAll path
      | .file (some content) => IO.FS.writeFile path (String.ofList content)
      | .file none => pure ()

end FileTree

namespace Arguments

/-- The picture of the files that a run with these arguments consults. -/
def takePicture (a : Arguments) : IO FileTree := do
  let mut tree ← FileTree.ofProcess
  tree ← tree.takePicture a.manifestDir
  for file in a.manifest :: a.config?.toList ++ a.output?.toList do
    tree ← tree.takePicture file
  for file in Settings.candidates (a.searchStart tree) do
    tree ← tree.takePicture file
  match a.settings tree with
  | .error _ => return tree
  | .ok s =>
    match s.cache.dir? with
    | none => return tree
    | some dir => if s.cache.enabled then tree.takePictureInside dir else return tree

end Arguments

/-- The present time. -/
def Instant.now? : IO (Option Instant) := do
  let t := Std.Time.DateTime.ofTimestamp (← Std.Time.Timestamp.now) .UTC
  return Instant.ofFields? t.year t.month.toNat t.day.toNat t.hour.toNat t.minute.toNat
    t.second.toNat t.nanosecond.toNat

end DocContract

open DocContract

/-- Runs the command line. -/
def main (args : List String) : IO UInt32 := do
  let words := args.map String.toList
  let picture ←
    match Arguments.parse words with
    | .ok a => a.takePicture
    | .error _ => FileTree.ofProcess
  match ← Instant.now? with
  | none => return 2
  | some now =>
    let result := session picture now words
    picture.develop result.tree
    IO.print (String.ofList result.output)
    IO.eprint (String.ofList result.complaint)
    return result.status.code.toUInt32
