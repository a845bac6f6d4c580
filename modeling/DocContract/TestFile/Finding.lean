import DocContract.Diagnostic
import DocContract.TestFile.Outline

/-!
# Findings of the layout

What can be wrong with the layout of a test file. A finding names what it is about; its code, which
fixes the severity unless the settings say otherwise, and its wording are read off it.
-/

namespace DocContract

open Text

/-- The cases that a suite of a unit test file has to have. -/
inductive UnitCase where
  | returns
  | throws
  deriving DecidableEq, Repr

/-- The form that the title of a case has to have. -/
def UnitCase.form : UnitCase → Text
  | .returns => quoted ("returns \x7bT\x7d when ...")
  | .throws => quoted ("throws \x7bE\x7d when ...")

/-- The cases that a flow has to have. -/
inductive FlowCase where
  | happy
  | negative
  deriving DecidableEq, Repr

/-- The word for a kind of case. -/
def FlowCase.form : FlowCase → Text
  | .happy => "happy-path"
  | .negative => "negative-path"

/-- A flaw in the layout of a test file. -/
inductive LayoutFinding where
  | caseOutsideSuite
  /-- A statement stands after one of a later stage. -/
  | outOfOrder (kind after : StatementKind)
  /-- A statement that prepares the file stands after a suite. -/
  | afterSuite (kind : StatementKind)
  /-- A suite is not named for an exported function of the source file. -/
  | suiteUnknown (title : Text) (source : Path)
  /-- An exported function has no suite. -/
  | suiteMissing (function : Text)
  /-- A suite of a unit test file lacks some of its cases. -/
  | unitGap (title? : Option Text) (missing : List UnitCase)
  /-- The file is not named as a flow. -/
  | flowName (name pattern : Text)
  /-- A flow lacks some of its cases. -/
  | flowGap (title? : Option Text) (missing : List FlowCase)
  deriving DecidableEq, Repr

namespace LayoutFinding

/-- The code of a finding. -/
def code : LayoutFinding → DiagnosticCode
  | .caseOutsideSuite => .caseOutsideSuite
  | .outOfOrder _ _ => .orderViolation
  | .afterSuite _ => .orderViolation
  | .suiteUnknown _ _ => .suiteNameMismatch
  | .suiteMissing _ => .suiteMissing
  | .unitGap _ _ => .coverageGap
  | .flowName _ _ => .flowNameMismatch
  | .flowGap _ _ => .coverageGap

/-- A title in a message. -/
def titleText (title? : Option Text) : Text := quoted (title?.getD "<computed>")

/-- The wording of a finding. -/
def message : LayoutFinding → Text
  | .caseOutsideSuite => "test case is not inside a suite"
  | .outOfOrder kind after => kind.label ++ " appears after " ++ after.label
  | .afterSuite kind => kind.label ++ " appears after a suite"
  | .suiteUnknown title source =>
    "suite " ++ quoted title ++ " does not name an exported function of " ++ source
  | .suiteMissing function => "exported function " ++ quoted function ++ " has no suite"
  | .unitGap title? missing =>
    "suite " ++ titleText title? ++ " has no " ++ join " or " (missing.map UnitCase.form) ++ " case"
  | .flowName name pattern =>
    "integration test file " ++ quoted name ++ " does not follow the flow naming convention "
      ++ quoted pattern
  | .flowGap title? missing =>
    "flow " ++ titleText title? ++ " has no " ++ join " or " (missing.map FlowCase.form) ++ " case"

/-- The diagnostic of a finding at a place of a file. -/
def toDiagnostic (f : LayoutFinding) (file : Path) (place : Position) : Diagnostic :=
  Diagnostic.ofCode f.code file place.line place.column f.message

end LayoutFinding

end DocContract
