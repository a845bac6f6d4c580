import DocContract.Text

/-!
# Paths

A path is kept as it was written and compared by its components: repeated separators and inner `.`
components do not count, a leading `.` does. `parent?`, `fileName?` and `extension?` are read off
the written form.
-/

namespace DocContract

/-- A path as it was written. -/
abbrev Path := Text

namespace Path

/-- The components of a path, in the order in which they compare. -/
inductive Component where
  | root
  | current
  | parent
  | normal (name : Text)
  deriving DecidableEq, Repr

/-- The place of a kind of component in the order of components. -/
def Component.rank : Component → Nat
  | .root => 0
  | .current => 1
  | .parent => 2
  | .normal _ => 3

/-- The name of a normal component; the other kinds have none. -/
def Component.name : Component → Text
  | .normal name => name
  | _ => []

/-- Components compare by kind, normal ones by name. -/
def Component.order (a b : Component) : Ordering :=
  (compare a.rank b.rank).then (compare a.name b.name)

/-- What one piece between separators stands for; empty pieces and `.` stand for nothing. -/
def pieceComponent? (piece : Text) : Option Component :=
  if piece.isEmpty || piece == ['.'] then none
  else if piece == ['.', '.'] then some .parent
  else some (.normal piece)

/-- The pieces of a path between its separators. -/
def pieces (p : Path) : List Text := Text.splitOn '/' p

/-- The components of a path. A leading separator is the root, a leading `.` counts. -/
def components (p : Path) : List Component :=
  match pieces p with
  | [] => []
  | first :: rest =>
    let lead : List Component :=
      if first.isEmpty then (if rest.isEmpty then [] else [.root])
      else if first == ['.'] then [.current]
      else (pieceComponent? first).toList
    lead ++ rest.filterMap pieceComponent?

/-- The order of paths, component by component. -/
def order (p q : Path) : Ordering :=
  go (components p) (components q)
where
  /-- The order of two lists of components. -/
  go : List Component → List Component → Ordering
    | [], [] => .eq
    | [], _ :: _ => .lt
    | _ :: _, [] => .gt
    | a :: as, b :: bs => (a.order b).then (go as bs)

/-- Do two paths have the same components? -/
def same (p q : Path) : Bool := components p == components q

/-- The last component, if it is a name. -/
def fileName? (p : Path) : Option Text :=
  match (components p).getLast? with
  | some (.normal name) => some name
  | _ => none

/-- The part of a file name after its last dot; a dot at the very start does not count. -/
def extension? (p : Path) : Option Text :=
  match fileName? p with
  | none => none
  | some name =>
    match (Text.splitOn '.' name).reverse with
    | last :: before :: more => if before.isEmpty && more.isEmpty then none else some last
    | _ => none

/-- The pieces, last first, without the trailing ones that stand for nothing. The first piece of a
path that has no root counts even when it is `.`. -/
def dropVoid (rooted : Bool) : List Text → List Text
  | [] => []
  | [first] =>
    if first.isEmpty || (rooted && first == ['.']) then [] else [first]
  | last :: before :: more =>
    if last.isEmpty || last == ['.'] then dropVoid rooted (before :: more)
    else last :: before :: more

/-- The path without its last component and without what trails after the one before it; a path
that has no component, or is the root, has no parent. -/
def parent? (p : Path) : Option Path :=
  match p with
  | '/' :: body =>
    match dropVoid true (pieces body).reverse with
    | [] => none
    | _ :: more => some ('/' :: Text.join ['/'] (dropVoid true more).reverse)
  | _ =>
    match dropVoid false (pieces p).reverse with
    | [] => none
    | _ :: more => some (Text.join ['/'] (dropVoid false more).reverse)

/-- A path followed by another one; an absolute second path stands alone. -/
def append (p q : Path) : Path :=
  match q with
  | '/' :: _ => q
  | _ =>
    if p.isEmpty || p.getLast? = some '/' then p ++ q else p ++ ['/'] ++ q

/-- The path and its parents, nearest first, at most `max` of them. -/
def ancestors (start : Path) : Nat → List Path
  | 0 => []
  | max + 1 =>
    start :: match parent? start with
      | some up => ancestors up max
      | none => []

end Path

end DocContract
