import DocContract.Cache.Key
import DocContract.Diagnostic
import DocContract.FileTree
import DocContract.Instant
import DocContract.Json.Reader

/-!
# The result cache

The findings of files that were checked before, by key. Entries are kept in memory and, if the cache
has a directory, also in one file each; what is found in a file is taken into memory. An entry that
is older than the last change of its file does not count.
-/

namespace DocContract

/-- The findings of a file, before any promotion, and when they were computed. -/
structure CacheEntry where
  diagnostics : List Diagnostic
  timestamp : Instant
  deriving DecidableEq, Repr

namespace CacheEntry

/-- The JSON form. -/
def toJson (e : CacheEntry) : Json :=
  .object [("diagnostics", .array (e.diagnostics.map Diagnostic.toJson)),
    ("timestamp", e.timestamp.toJson)]

/-- The members of the JSON form. -/
def members : List Json.MemberSpec := [.required "diagnostics", .required "timestamp"]

/-- Reads the JSON form. -/
def ofJson? (j : Json) : Option CacheEntry :=
  match Json.record? members j with
  | some [diagnostics, timestamp] => do
    return {
      diagnostics := ← Json.need? (Json.asList? Diagnostic.ofJson?) diagnostics
      timestamp := ← Json.need? Instant.ofJson? timestamp }
  | _ => none

/-- Reads the content of a file. -/
def ofText? (t : Text) : Option CacheEntry := (Json.parse? t).bind ofJson?

/-- Is the entry no older than the last change, if that is known? -/
def isFresh (modified? : Option Instant) (e : CacheEntry) : Bool :=
  match modified? with
  | none => true
  | some modified => e.timestamp.notBefore modified

end CacheEntry

/-- A cache. The entries in files are part of the file tree. -/
structure ResultCache where
  fingerprint : Text
  dir? : Option Path
  memory : List (CacheKey × CacheEntry) := []
  hits : Nat := 0
  misses : Nat := 0

namespace ResultCache

/-- An empty cache for some options that uses no files. -/
def inMemory (s : Settings) : ResultCache := { fingerprint := s.fingerprint, dir? := none }

/-- An empty cache for some options, with its directory made if it has one. -/
def openIn (tree : FileTree) (s : Settings) : FileTree × Except Failure ResultCache :=
  match s.cache.dir? with
  | none => (tree, .ok (inMemory s))
  | some dir =>
    match tree.makeDirs dir with
    | (tree, some cause) => (tree, .error (.cache dir cause))
    | (tree, none) => (tree, .ok { inMemory s with dir? := some dir })

/-- The key of a source file. -/
def sourceKey (c : ResultCache) (u : SourceUnit) : CacheKey :=
  .ofText (CacheKey.sourceText c.fingerprint u)

/-- The key of a test file with its paired source file, if that is known. -/
def testKey (c : ResultCache) (u : TestUnit) (source? : Option SourceUnit) : CacheKey :=
  .ofText (CacheKey.testText c.fingerprint u source?)

/-- The file of a key, if the cache uses files. -/
def entryPath? (c : ResultCache) (key : CacheKey) : Option Path :=
  c.dir?.map fun dir => Path.append dir (key.hex ++ ".json")

/-- The entry in the file of a key, if there is one that can be read. -/
def stored? (c : ResultCache) (tree : FileTree) (key : CacheKey) : Option CacheEntry :=
  (c.entryPath? key).bind fun file =>
    match tree.read file with
    | .error _ => none
    | .ok t => CacheEntry.ofText? t

/-- The memory with an entry under a key. -/
def remember (memory : List (CacheKey × CacheEntry)) (key : CacheKey) (e : CacheEntry) :
    List (CacheKey × CacheEntry) :=
  if memory.any (·.1 == key) then memory.map fun m => if m.1 == key then (key, e) else m
  else memory ++ [(key, e)]

/-- The findings under a key, if there is an entry that counts; the memory is asked first. -/
def get (c : ResultCache) (tree : FileTree) (key : CacheKey) (modified? : Option Instant) :
    ResultCache × Option (List Diagnostic) :=
  match (c.memory.lookup key).filter (CacheEntry.isFresh modified?) with
  | some e => ({ c with hits := c.hits + 1 }, some e.diagnostics)
  | none =>
    match (c.stored? tree key).filter (CacheEntry.isFresh modified?) with
    | some e =>
      ({ c with hits := c.hits + 1, memory := remember c.memory key e }, some e.diagnostics)
    | none => ({ c with misses := c.misses + 1 }, none)

/-- The tree with an entry in the file of its key; a file that cannot be written is passed over. -/
def persist (c : ResultCache) (tree : FileTree) (key : CacheKey) (e : CacheEntry) : FileTree :=
  match c.entryPath? key with
  | none => tree
  | some file =>
    match tree.write file e.toJson.compact with
    | .error _ => tree
    | .ok tree => tree

/-- Keeps findings under a key. -/
def put (c : ResultCache) (tree : FileTree) (key : CacheKey) (ds : List Diagnostic)
    (now : Instant) : ResultCache × FileTree :=
  let e : CacheEntry := ⟨ds, now⟩
  ({ c with memory := remember c.memory key e }, c.persist tree key e)

/-- Removes the files of a directory that have the extension of an entry, up to the first that
cannot be removed. -/
def removeEntries (dir : Path) (tree : FileTree) : List Text → FileTree × Option FileError
  | [] => (tree, none)
  | name :: names =>
    if Path.extension? name == some "json".toList then
      match tree.remove (Path.append dir name) with
      | .error cause => (tree, some cause)
      | .ok tree => removeEntries dir tree names
    else removeEntries dir tree names

/-- Forgets every entry, in memory and in files. -/
def clear (c : ResultCache) (tree : FileTree) : ResultCache × FileTree × Option Failure :=
  let emptied := { c with memory := [] }
  match c.dir? with
  | none => (emptied, tree, none)
  | some dir =>
    match tree.list dir with
    | .error cause => (emptied, tree, some (.io cause))
    | .ok names =>
      let (tree, cause?) := removeEntries dir tree names
      (emptied, tree, cause?.map .io)

end ResultCache

end DocContract
