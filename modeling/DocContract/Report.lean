import DocContract.Diagnostic

/-!
# Reports

The findings of a run in one fixed order. A report is a function of the findings, so the order in
which the files were checked never shows: the findings are promoted if every warning counts as an
error, sorted by `Diagnostic.order`, and neighbours that are the same are reduced to one.
-/

namespace DocContract

/-- Are two findings the same? Their files are compared by components. -/
def Diagnostic.same (a b : Diagnostic) : Bool :=
  Path.same a.file b.file && { a with file := b.file } == b

/-- The outcome of a run. -/
structure Report where
  diagnostics : List Diagnostic
  passed : Bool
  /-- Was every file checked? -/
  complete : Bool
  unitsChecked : Nat
  deriving DecidableEq, Repr

namespace Report

/-- The finding as a run reports it: an error if every warning counts as one. -/
def promote (strict : Bool) (d : Diagnostic) : Diagnostic :=
  if strict then d.withSeverity .error else d

/-- The findings in the order of a report; findings of equal rank keep their order. -/
def sorted (ds : List Diagnostic) : List Diagnostic :=
  ds.mergeSort fun a b => (Diagnostic.order a b).isLE

/-- The report of a run with these findings. A run that did not check every file never passes. -/
def assemble (strict complete : Bool) (unitsChecked : Nat) (ds : List Diagnostic) : Report :=
  let listed := (sorted (ds.map (promote strict))).eraseRepsBy Diagnostic.same
  { diagnostics := listed
    passed := complete && !listed.any Diagnostic.isError
    complete, unitsChecked }

/-- The number of errors. -/
def errorCount (r : Report) : Nat := r.diagnostics.countP Diagnostic.isError

/-- The number of warnings. -/
def warningCount (r : Report) : Nat := r.diagnostics.length - r.errorCount

/-- The number of findings of a kind. -/
def countOf (r : Report) (code : DiagnosticCode) : Nat := r.diagnostics.countP (·.code == code)

/-- The JSON form. -/
def toJson (r : Report) : Json :=
  .object [("diagnostics", .array (r.diagnostics.map Diagnostic.toJson)),
    ("passed", .bool r.passed), ("complete", .bool r.complete),
    ("unitsChecked", .nat r.unitsChecked)]

/-- The members of the JSON form. -/
def members : List Json.MemberSpec :=
  [.required "diagnostics", .required "passed", .required "complete", .required "unitsChecked"]

/-- Reads the JSON form. -/
def ofJson? (j : Json) : Option Report :=
  match Json.record? members j with
  | some [diagnostics, passed, complete, unitsChecked] => do
    return {
      diagnostics := ← Json.need? (Json.asList? Diagnostic.ofJson?) diagnostics
      passed := ← Json.need? Json.asBool? passed
      complete := ← Json.need? Json.asBool? complete
      unitsChecked := ← Json.need? Json.asNat? unitsChecked }
  | _ => none

end Report

end DocContract
