import DocContract.Failure

/-!
# File trees

The files that a request may read and write, as a value. A location is the list of names from the
root; a path is followed from the root or from the working directory, one name at a time, so that
each name is looked up in a directory that exists.
-/

namespace DocContract

/-- A place in a tree: the names from the root. -/
abbrev Location := List Text

/-- What is at a location. -/
inductive FileNode where
  /-- A file with its content, if that is text. -/
  | file (content? : Option Text)
  | directory
  deriving DecidableEq, Repr

/-- Files and directories, and the working directory. -/
structure FileTree where
  cwd : Location
  nodes : List (Location × FileNode)
  deriving Repr

namespace FileTree

/-- The tree that holds the working directory and nothing else. -/
def empty (cwd : Location) : FileTree :=
  ⟨cwd, (List.range (cwd.length + 1)).map fun n => (cwd.take n, .directory)⟩

/-- What is at a location. -/
def node? (tree : FileTree) (l : Location) : Option FileNode := tree.nodes.lookup l

/-- The tree with a node at a location. -/
def set (tree : FileTree) (l : Location) (node : FileNode) : FileTree :=
  { tree with
    nodes :=
      if tree.nodes.any (·.1 == l) then tree.nodes.map fun p => if p.1 == l then (l, node) else p
      else tree.nodes ++ [(l, node)] }

/-- The tree without what is at a location. -/
def erase (tree : FileTree) (l : Location) : FileTree :=
  { tree with nodes := tree.nodes.filter (·.1 != l) }

/-- The tree with a node at a location and directories above it where there is nothing. -/
def add (tree : FileTree) (l : Location) (node : FileNode) : FileTree :=
  let withParents := (List.range l.length).foldl
    (fun tree n => if (tree.node? (l.take n)).isNone then tree.set (l.take n) .directory else tree)
    tree
  withParents.set l node

/-! ### Paths -/

/-- Follows names from a location. -/
def follow (tree : FileTree) (l : Location) : List Text → Except FileError Location
  | [] => .ok l
  | name :: names =>
    match tree.node? l with
    | none => .error .notFound
    | some (.file _) => .error .notDirectory
    | some .directory =>
      if name.isEmpty || name == ['.'] then follow tree l names
      else if name == ['.', '.'] then follow tree l.dropLast names
      else follow tree (l ++ [name]) names

/-- Where a path starts, and the names to follow from there. -/
def start (tree : FileTree) (p : Path) : Location × List Text :=
  match p with
  | '/' :: r => ([], Path.pieces r)
  | p => (tree.cwd, Path.pieces p)

/-- The location of a path; nothing need be there, but the directory around it has to exist. -/
def locate (tree : FileTree) (p : Path) : Except FileError Location :=
  if p.isEmpty then .error .notFound
  else if p.any (·.toNat == 0) then .error .badPath
  else tree.follow (tree.start p).1 (tree.start p).2

/-- The absolute path of a location. -/
def pathOf (l : Location) : Path := '/' :: Text.join ['/'] l

/-- The absolute path of what a path leads to, if anything is there. -/
def realPath? (tree : FileTree) (p : Path) : Option Path :=
  match tree.locate p with
  | .ok l => if (tree.node? l).isSome then some (pathOf l) else none
  | .error _ => none

/-! ### Reading -/

/-- The content of a file. -/
def read (tree : FileTree) (p : Path) : Except FileError Text :=
  match tree.locate p with
  | .error e => .error e
  | .ok l =>
    match tree.node? l with
    | none => .error .notFound
    | some .directory => .error .isDirectory
    | some (.file none) => .error .notText
    | some (.file (some t)) => .ok t

/-- The names in the directory at a location. -/
def namesAt (tree : FileTree) (l : Location) : List Text :=
  tree.nodes.filterMap fun p =>
    if p.1.length = l.length + 1 && p.1.dropLast == l then p.1.getLast? else none

/-- The names in a directory. -/
def list (tree : FileTree) (p : Path) : Except FileError (List Text) :=
  match tree.locate p with
  | .error e => .error e
  | .ok l =>
    match tree.node? l with
    | none => .error .notFound
    | some (.file _) => .error .notDirectory
    | some .directory => .ok (tree.namesAt l)

/-! ### Writing -/

/-- The tree with a file of some content. -/
def write (tree : FileTree) (p : Path) (content : Text) : Except FileError FileTree :=
  match tree.locate p with
  | .error e => .error e
  | .ok l =>
    match tree.node? l with
    | some .directory => .error .isDirectory
    | _ => .ok (tree.set l (.file (some content)))

/-- The tree without a file. -/
def remove (tree : FileTree) (p : Path) : Except FileError FileTree :=
  match tree.locate p with
  | .error e => .error e
  | .ok l =>
    match tree.node? l with
    | none => .error .notFound
    | some .directory => .error .isDirectory
    | some (.file _) => .ok (tree.erase l)

/-- Makes the directories that are missing on the way from a location. Those made before an error
stay. -/
def makeFrom (tree : FileTree) (l : Location) : List Text → FileTree × Option FileError
  | [] => (tree, none)
  | name :: names =>
    if name.isEmpty || name == ['.'] then makeFrom tree l names
    else if name == ['.', '.'] then makeFrom tree l.dropLast names
    else
      match tree.node? (l ++ [name]) with
      | none => makeFrom (tree.set (l ++ [name]) .directory) (l ++ [name]) names
      | some .directory => makeFrom tree (l ++ [name]) names
      | some (.file _) => (tree, some (if names.isEmpty then .alreadyExists else .notDirectory))

/-- Makes a directory and those above it. The empty path asks for nothing. -/
def makeDirs (tree : FileTree) (p : Path) : FileTree × Option FileError :=
  if p.any (·.toNat == 0) then (tree, some .badPath)
  else tree.makeFrom (tree.start p).1 (tree.start p).2

end FileTree

end DocContract
