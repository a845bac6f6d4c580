import DocContract.Settings.Json
import DocContract.Settings.Validity
import DocContract.Toml.Reader

/-!
# Configuration documents

A configuration is written in TOML with the members of the JSON form. In TOML, which has no null,
the name of a value may also be written as a table with that name as its only key and nothing in it.
-/

namespace DocContract

namespace Settings

/-- Is the value an empty table or an empty array? -/
def isEmptyValue : Toml → Bool
  | .table _ [] => true
  | .array [] => true
  | _ => false

/-- The JSON form of a value that may be a name. -/
def nameToJson (v : Toml) : Json :=
  match v with
  | .table _ [(name, inner)] => if isEmptyValue inner then .object [(name, .null)] else v.toJson
  | v => v.toJson

/-- The names of the member whose value is a name. -/
def conventionNames : List Text := ["marker_convention", "markerConvention"]

/-- The JSON form of a document. -/
def documentToJson : Toml → Json
  | .table _ members =>
    .object (members.map fun m =>
      (m.1, if conventionNames.contains m.1 then nameToJson m.2 else m.2.toJson))
  | v => v.toJson

/-- The settings that a document writes; they need not be valid. -/
def ofDocument? (t : Text) : Option Settings :=
  (Toml.parse? t).bind fun v => ofJson? (documentToJson v)

/-- The valid settings that a document writes. -/
def ofDocument (t : Text) : Except Failure Settings :=
  match ofDocument? t with
  | none => .error .toml
  | some s => s.validated

end Settings

end DocContract
