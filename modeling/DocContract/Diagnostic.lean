import DocContract.Json.Record
import DocContract.Path

/-!
# Diagnostics

One finding in a file: where it is, what kind of defect it is, how severe it is and what it says.
The kinds have a fixed order and a severity of their own, which the caller may change.
`Diagnostic.order` is the order of a report; it looks at neither the severity nor the subject.
-/

namespace DocContract

/-- How severe a finding is. -/
inductive Severity where
  | warning
  | error
  deriving DecidableEq, Repr

namespace Severity

/-- The name of a severity. -/
def name : Severity → Text
  | .warning => "warning"
  | .error => "error"

/-- The severity of a name. -/
def ofName? (t : Text) : Option Severity :=
  if t == Severity.warning.name then some .warning
  else if t == Severity.error.name then some .error
  else none

end Severity

/-- The kinds of findings, in the order in which a report lists them at one place. -/
inductive DiagnosticCode where
  | malformedDelimiter
  | badTagHeader
  | unknownTag
  | unterminatedFence
  | markerStyle
  | depthExceeded
  | missingDoc
  | briefMissing
  | asyncMarkerMismatch
  | templateMismatch
  | unknownParam
  | paramMissing
  | unknownProperty
  | propertyMissing
  | duplicateTag
  | optionalityMismatch
  | redundantType
  | unresolvedType
  | returnMissing
  | duplicateReturn
  | returnFieldMissing
  | returnFieldUnknown
  | throwsMissing
  | throwsUnused
  | languageTagMismatch
  | suiteNameMismatch
  | suiteMissing
  | coverageGap
  | orderViolation
  | flowNameMismatch
  | caseOutsideSuite
  deriving DecidableEq, Repr

namespace DiagnosticCode

/-- All kinds with their names, in the order of a report. -/
def table : List (DiagnosticCode × String) :=
  [(.malformedDelimiter, "MALFORMED_DELIMITER"), (.badTagHeader, "BAD_TAG_HEADER"),
   (.unknownTag, "UNKNOWN_TAG"), (.unterminatedFence, "UNTERMINATED_FENCE"),
   (.markerStyle, "MARKER_STYLE"), (.depthExceeded, "DEPTH_EXCEEDED"),
   (.missingDoc, "MISSING_DOC"), (.briefMissing, "BRIEF_MISSING"),
   (.asyncMarkerMismatch, "ASYNC_MARKER_MISMATCH"), (.templateMismatch, "TEMPLATE_MISMATCH"),
   (.unknownParam, "UNKNOWN_PARAM"), (.paramMissing, "PARAM_MISSING"),
   (.unknownProperty, "UNKNOWN_PROPERTY"), (.propertyMissing, "PROPERTY_MISSING"),
   (.duplicateTag, "DUPLICATE_TAG"), (.optionalityMismatch, "OPTIONALITY_MISMATCH"),
   (.redundantType, "REDUNDANT_TYPE"), (.unresolvedType, "UNRESOLVED_TYPE"),
   (.returnMissing, "RETURN_MISSING"), (.duplicateReturn, "DUPLICATE_RETURN"),
   (.returnFieldMissing, "RETURN_FIELD_MISSING"), (.returnFieldUnknown, "RETURN_FIELD_UNKNOWN"),
   (.throwsMissing, "THROWS_MISSING"), (.throwsUnused, "THROWS_UNUSED"),
   (.languageTagMismatch, "LANGUAGE_TAG_MISMATCH"), (.suiteNameMismatch, "SUITE_NAME_MISMATCH"),
   (.suiteMissing, "SUITE_MISSING"), (.coverageGap, "COVERAGE_GAP"),
   (.orderViolation, "ORDER_VIOLATION"), (.flowNameMismatch, "FLOW_NAME_MISMATCH"),
   (.caseOutsideSuite, "CASE_OUTSIDE_SUITE")]

/-- The name of a kind. -/
def name (c : DiagnosticCode) : Text := ((table.lookup c).getD "").toList

/-- The kind of a name. -/
def ofName? (t : Text) : Option DiagnosticCode :=
  (table.find? fun row => row.2.toList == t).map (·.1)

/-- The place of a kind in the order of a report. -/
def rank (c : DiagnosticCode) : Nat := c.ctorIdx

/-- The severity of a kind before any promotion. -/
def severity : DiagnosticCode → Severity
  | .markerStyle => .warning
  | .depthExceeded => .warning
  | .asyncMarkerMismatch => .warning
  | .optionalityMismatch => .warning
  | .redundantType => .warning
  | .unresolvedType => .warning
  | .returnFieldUnknown => .warning
  | .throwsMissing => .warning
  | .throwsUnused => .warning
  | .languageTagMismatch => .warning
  | .suiteMissing => .warning
  | .coverageGap => .warning
  | .orderViolation => .warning
  | .flowNameMismatch => .warning
  | .caseOutsideSuite => .warning
  | _ => .error

end DiagnosticCode

/-- One finding in a file. -/
structure Diagnostic where
  file : Path
  line : Nat
  column : Nat
  code : DiagnosticCode
  severity : Severity
  message : Text
  /-- The identifier of the symbol concerned; a finding on the file has none. -/
  symbol? : Option Text
  deriving DecidableEq, Repr

namespace Diagnostic

/-- A finding with the severity of its kind and without a subject. -/
def ofCode (code : DiagnosticCode) (file : Path) (line column : Nat) (message : Text) :
    Diagnostic :=
  ⟨file, line, column, code, code.severity, message, none⟩

/-- The same finding about a symbol. -/
def about (d : Diagnostic) (symbol : Text) : Diagnostic := { d with symbol? := some symbol }

/-- The same finding with another severity. -/
def withSeverity (d : Diagnostic) (s : Severity) : Diagnostic := { d with severity := s }

/-- Is the finding an error? -/
def isError (d : Diagnostic) : Bool := d.severity == .error

/-- The order of a report: file, line, column, kind, message. -/
def order (a b : Diagnostic) : Ordering :=
  (Path.order a.file b.file).then <| (compare a.line b.line).then <|
  (compare a.column b.column).then <| (compare a.code.rank b.code.rank).then
  (compare a.message b.message)

/-- The finding on one line of text. -/
def toText (d : Diagnostic) : Text :=
  d.file ++ ":" ++ Text.ofNat d.line ++ ":" ++ Text.ofNat d.column ++ ": " ++ d.severity.name
    ++ " [" ++ d.code.name ++ "] " ++ d.message

/-- The JSON form; the subject is left out when there is none. -/
def toJson (d : Diagnostic) : Json :=
  let subject : List (Text × Json) :=
    match d.symbol? with
    | none => []
    | some s => [("symbol", .string s)]
  .object <|
    ("file", .string d.file) :: ("line", .nat d.line) :: ("column", .nat d.column)
      :: ("code", .string d.code.name) :: ("severity", .string d.severity.name)
      :: ("message", .string d.message) :: subject

/-- The members of the JSON form. -/
def members : List Json.MemberSpec :=
  [.required "file", .required "line", .required "column", .required "code", .required "severity",
   .required "message", .required "symbol"]

/-- Reads the JSON form. -/
def ofJson? (j : Json) : Option Diagnostic :=
  match Json.record? members j with
  | some [file, line, column, code, severity, message, symbol] => do
    return {
      file := ← Json.need? Json.asText? file
      line := ← Json.need? Json.asNat? line
      column := ← Json.need? Json.asNat? column
      code := ← Json.need? (fun j => (Json.asName? j).bind DiagnosticCode.ofName?) code
      severity := ← Json.need? (fun j => (Json.asName? j).bind Severity.ofName?) severity
      message := ← Json.need? Json.asText? message
      symbol? := ← Json.orNull? Json.asText? symbol }
  | _ => none

end Diagnostic

end DocContract
