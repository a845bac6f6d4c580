import DocContract.Json.Reader
import DocContract.SourceUnit
import DocContract.Text.Decimal

/-!
# Manifests

The files that the indexer hands over for a run. A file without a language gets the one of its
extension; a member that is written twice counts as written last.
-/

namespace DocContract

namespace Json

mutual
/-- Is every number in the value inside the range of double precision? -/
def isFinite : Json → Bool
  | .nat n => n < Decimal.doubleBound
  | .decimal literal => !(Decimal.ofLiteral literal).exceedsDouble
  | .array items => areFinite items
  | .object members => membersFinite members
  | _ => true

/-- `isFinite` of every item. -/
def areFinite : List Json → Bool
  | [] => true
  | v :: vs => isFinite v && areFinite vs

/-- `isFinite` of every member's value. -/
def membersFinite : List (Text × Json) → Bool
  | [] => true
  | (_, v) :: ms => isFinite v && membersFinite ms
end

end Json

/-- The files of a run. -/
structure Manifest where
  sources : List SourceUnit := []
  tests : List TestUnit := []

namespace Manifest

/-- The language of a file's extension. -/
def languageOfPath? (members : List (Text × Json)) : Option Language :=
  match members.lookup "path".toList with
  | some (.string path) => (Path.extension? path).bind Language.ofExtension?
  | _ => none

/-- The record of a file with its language, if that can be told. -/
def withLanguage : Json → Json
  | .object members =>
    if members.any (·.1 == "language".toList) then .object members
    else
      match languageOfPath? members with
      | some language => .object (members ++ [("language".toList, language.toJson)])
      | none => .object members
  | v => v

/-- The list with the languages of its files. -/
def withLanguages : Json → Json
  | .array items => .array (items.map withLanguage)
  | v => v

/-- The record of a manifest with the languages of its files. -/
def complete : Json → Json
  | .object members =>
    .object (members.map fun m =>
      (m.1, if m.1 == "sources".toList || m.1 == "tests".toList then withLanguages m.2 else m.2))
  | v => v

/-- The members of the JSON form. -/
def members : List Json.MemberSpec := [.defaulted "sources", .defaulted "tests"]

/-- Reads a complete record. -/
def ofRecord? (j : Json) : Option Manifest :=
  match Json.record? members j with
  | some [sources, tests] => do
    return {
      sources := ← Json.orDefault? (Json.asList? SourceUnit.ofJson?) [] sources
      tests := ← Json.orDefault? (Json.asList? TestUnit.ofJson?) [] tests }
  | _ => none

/-- Reads the JSON form. -/
def ofJson? (j : Json) : Option Manifest :=
  if j.isFinite then ofRecord? (complete j.collapse) else none

/-- Reads a text in JSON. -/
def ofText? (t : Text) : Option Manifest := (Json.parse? t).bind ofJson?

/-- The JSON form. -/
def toJson (m : Manifest) : Json :=
  .object [("sources", .array (m.sources.map SourceUnit.toJson)),
    ("tests", .array (m.tests.map TestUnit.toJson))]

end Manifest

end DocContract
