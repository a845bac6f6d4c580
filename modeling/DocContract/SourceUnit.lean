import DocContract.Instant
import DocContract.Language
import DocContract.Path
import DocContract.Signature.Json

/-!
# Source files and test files

The files of a run as the indexer hands them over, and their JSON forms.
-/

namespace DocContract

/-- A source file with the symbols that it declares. -/
structure SourceUnit where
  path : Path
  text : Text
  language : Language
  symbols : List Symbol := []
  /-- The time of the last change, if it is known. -/
  modified? : Option Instant := none

namespace SourceUnit

/-- The number of lines of the file. -/
def lineCount (u : SourceUnit) : Nat := (Text.lines u.text).length

/-- Is the symbol a function that a unit test of the file has to cover? -/
def isCovered (s : Symbol) : Bool := s.isExported && s.kind == .function

/-- The names of the exported functions, in the order of the symbols. -/
def exportedFunctions (u : SourceUnit) : List Text :=
  (u.symbols.filter isCovered).map Symbol.name

/-- The JSON form. -/
def toJson (u : SourceUnit) : Json :=
  .object [("path", .string u.path), ("text", .string u.text), ("language", u.language.toJson),
    ("symbols", .array (u.symbols.map Symbol.toJson)),
    ("modified", match u.modified? with | none => .null | some t => t.toJson)]

/-- The members of the JSON form. -/
def members : List Json.MemberSpec :=
  [.required "path", .required "text", .required "language", .defaulted "symbols",
   .defaulted "modified"]

/-- Reads the JSON form. -/
def ofJson? (j : Json) : Option SourceUnit :=
  match Json.record? members j with
  | some [path, text, language, symbols, modified] => do
    return {
      path := ← Json.need? Json.asText? path
      text := ← Json.need? Json.asText? text
      language := ← Json.need? Language.ofJson? language
      symbols := ← Json.orDefault? (Json.asList? Symbol.ofJson?) [] symbols
      modified? := ← Json.orNull? Instant.ofJson? modified }
  | _ => none

end SourceUnit

/-- The layout that a test file follows. -/
inductive TestKind where
  /-- One suite for each exported function of the paired source file. -/
  | unit
  /-- Flows through several parts, with happy and negative paths. -/
  | integration
  deriving DecidableEq, Repr

namespace TestKind

/-- The name of a kind. -/
def name : TestKind → Text
  | .unit => "unit"
  | .integration => "integration"

/-- The kind of a name. -/
def ofName? (t : Text) : Option TestKind :=
  if t == TestKind.unit.name then some .unit
  else if t == TestKind.integration.name then some .integration
  else none

/-- The JSON form. -/
def toJson (k : TestKind) : Json := .string k.name

/-- Reads the JSON form. -/
def ofJson? (j : Json) : Option TestKind := (Json.asName? j).bind ofName?

end TestKind

/-- A test file. -/
structure TestUnit where
  path : Path
  text : Text
  language : Language
  /-- The kind, if the indexer states it. -/
  kind? : Option TestKind := none
  /-- The path of the source file under test. -/
  pairedSource? : Option Path := none

namespace TestUnit

/-- The JSON form. -/
def toJson (u : TestUnit) : Json :=
  .object [("path", .string u.path), ("text", .string u.text), ("language", u.language.toJson),
    ("kind", match u.kind? with | none => .null | some k => k.toJson),
    ("pairedSource", Json.ofText? u.pairedSource?)]

/-- The members of the JSON form. -/
def members : List Json.MemberSpec :=
  [.required "path", .required "text", .required "language", .defaulted "kind",
   .defaulted "pairedSource"]

/-- Reads the JSON form. -/
def ofJson? (j : Json) : Option TestUnit :=
  match Json.record? members j with
  | some [path, text, language, kind, pairedSource] => do
    return {
      path := ← Json.need? Json.asText? path
      text := ← Json.need? Json.asText? text
      language := ← Json.need? Language.ofJson? language
      kind? := ← Json.orNull? TestKind.ofJson? kind
      pairedSource? := ← Json.orNull? Json.asText? pairedSource }
  | _ => none

end TestUnit

end DocContract
