import DocContract.Comment.Tag
import DocContract.Signature

/-!
# Dotted paths

Signatures and comments are both flattened to keys such as `options.retry.limit`, so that they can
be matched one path at a time. The flattening lists a node before the nodes below it and keeps the
order of siblings. Element markers do not count in keys.
-/

namespace DocContract

open Text

/-- A path below another one; at the root it stands alone. -/
def joinKey (above own : Text) : Text := if above.isEmpty then own else above ++ '.' :: own

/-! ### Paths of a signature -/

/-- A path that a signature exposes. -/
structure SignaturePath where
  key : Text
  /-- The type as it is written, unless it is blank. -/
  type? : Option Text
  optional : Bool
  /-- The place in the same list of the path that encloses this one. -/
  parent? : Option Nat
  /-- Does the type expose fields? -/
  structured : Bool
  documentedElsewhere : Bool
  deriving DecidableEq, Repr

/-- The path of one name with its type, without the paths below it. -/
def SignaturePath.ofName (parent? : Option Nat) (key : Text) (type? : Option TypeRef)
    (optional : Bool) : SignaturePath :=
  { key
    type? := type?.bind fun t => if isBlankText t.text then none else some t.text
    optional
    parent?
    structured := type?.any fun t => !t.fields.isEmpty
    documentedElsewhere := type?.any fun t => t.documentedElsewhere }

mutual
/-- The paths of a field and of the fields of its type, the first of them at place `start`. -/
def pathsOfField (start : Nat) (parent? : Option Nat) (above : Text) : Field → List SignaturePath
  | ⟨name, type, optional⟩ =>
    let key := joinKey above (dropElementMarks name)
    SignaturePath.ofName parent? key type optional :: pathsOfType (start + 1) start key type

/-- The paths of the fields of a type. -/
def pathsOfType (start parent : Nat) (above : Text) : Option TypeRef → List SignaturePath
  | none => []
  | some ⟨_, fields, _⟩ => pathsOfFields start (some parent) above fields

/-- The paths of fields, one field after the other. -/
def pathsOfFields (start : Nat) (parent? : Option Nat) (above : Text) :
    List Field → List SignaturePath
  | [] => []
  | f :: fs =>
    let own := pathsOfField start parent? above f
    own ++ pathsOfFields (start + own.length) parent? above fs
end

/-- The paths of the fields of a class, an interface, a type or a result. -/
def fieldPaths (fields : List Field) : List SignaturePath := pathsOfFields 0 none [] fields

/-- A parameter has the paths of a field of the same name and type. -/
def Parameter.toField (p : Parameter) : Field := ⟨p.name, p.type?, p.optional⟩

/-- The paths of parameters. -/
def parameterPaths (ps : List Parameter) : List SignaturePath :=
  fieldPaths (ps.map Parameter.toField)

/-! ### Paths of a comment -/

/-- A documented path with the tag that documents it. -/
structure DocPath where
  key : Text
  tag : Tag

/-- The name of a tag as a part of a key. -/
def ownKey (name : Text) : Text := join ['.'] (pathSegments name)

mutual
/-- The paths of a tag and of the tags below it; a tag without a name has none. -/
def docPathsOf (above : Text) : Tag → List DocPath
  | t@⟨_, name, _, _, _, _, _, _, _, children⟩ =>
    match name with
    | none => []
    | some name =>
      let key := joinKey above (ownKey name)
      ⟨key, t⟩ :: docPathsBelow key children

/-- The paths of some tags, one tag after the other. -/
def docPathsBelow (above : Text) : List Tag → List DocPath
  | [] => []
  | t :: ts => docPathsOf above t ++ docPathsBelow above ts
end

/-- The documented paths of tags. -/
def docPaths (tags : List Tag) : List DocPath := docPathsBelow [] tags

/-! ### Keys above a key -/

/-- The key without its last segment; a key of one segment has nothing above it. -/
def keyAbove? (key : Text) : Option Text :=
  match key with
  | [] => none
  | c :: r =>
    match keyAbove? r with
    | some up => some (c :: up)
    | none => if c = '.' then some [] else none

/-- The key above a key is shorter. -/
theorem keyAbove?_length {key up : Text} (h : keyAbove? key = some up) :
    up.length < key.length := by
  induction key generalizing up with
  | nil => simp [keyAbove?] at h
  | cons c r ih =>
    simp only [keyAbove?] at h
    split at h
    · next up' h' =>
      cases h
      have := ih h'
      simp only [List.length_cons]; omega
    · split at h
      · cases h; simp
      · cases h

/-- The keys above a key, nearest first. -/
def keysAbove (key : Text) : List Text :=
  match _h : keyAbove? key with
  | none => []
  | some up => up :: keysAbove up
termination_by key.length
decreasing_by exact keyAbove?_length _h

end DocContract
