import DocContract.Toml

/-!
# Tables of TOML

How assignments and headers add to a table. Nothing is ever redefined: a key is assigned once, a
table has at most one header, keys with dots extend only tables that keys with dots opened, and what
stands between braces or brackets is complete.
-/

namespace DocContract.Toml

/-- The members with the value of one of them replaced, or added at the end. -/
def Members.set (m : Members) (name : Text) (v : Toml) : Members :=
  if m.any (·.1 == name) then m.map fun p => if p.1 == name then (name, v) else p
  else m ++ [(name, v)]

/-- The entries of a repeated header with the members of the last table changed. -/
def updateLast (f : Members → Option Members) : List Toml → Option (List Toml)
  | [] => none
  | [.table origin members] => (f members).map fun m => [.table origin m]
  | [_] => none
  | v :: w :: r => (updateLast f (w :: r)).map (v :: ·)

/-- The members after an assignment. `path` holds the parts of the key before the last one. -/
def assign? (name : Text) (v : Toml) : List Text → Members → Option Members
  | [], m => if m.any (·.1 == name) then none else some (m ++ [(name, v)])
  | k :: path, m =>
    match m.lookup k with
    | none => (assign? name v path []).map fun inner => m ++ [(k, .table .dotted inner)]
    | some (.table origin inner) =>
      if origin == .dotted || (origin == .implied && !path.isEmpty) then
        (assign? name v path inner).map fun inner => m.set k (.table origin inner)
      else none
    | some (.tables entries) =>
      if path.isEmpty then none
      else (updateLast (assign? name v path) entries).map fun entries => m.set k (.tables entries)
    | some _ => none

/-- The members after a change of the table that a path of headers leads to. -/
def within? (f : Members → Option Members) : List Text → Members → Option Members
  | [], m => f m
  | k :: path, m =>
    match m.lookup k with
    | none => (within? f path []).map fun inner => m ++ [(k, .table .implied inner)]
    | some (.table origin inner) =>
      if origin == .inlined then none
      else (within? f path inner).map fun inner => m.set k (.table origin inner)
    | some (.tables entries) =>
      (updateLast (within? f path) entries).map fun entries => m.set k (.tables entries)
    | some _ => none

/-- The members after the header of a table. -/
def open? (name : Text) (m : Members) : Option Members :=
  match m.lookup name with
  | none => some (m ++ [(name, .table .header [])])
  | some (.table .implied inner) => some (m.set name (.table .header inner))
  | some _ => none

/-- The members after a header that may be repeated. -/
def openNext? (name : Text) (m : Members) : Option Members :=
  match m.lookup name with
  | none => some (m ++ [(name, .tables [.table .header []])])
  | some (.tables entries) => some (m.set name (.tables (entries ++ [.table .header []])))
  | some _ => none

end DocContract.Toml
