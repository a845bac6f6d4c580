import DocContract.Failure
import DocContract.Pattern
import DocContract.Settings
import DocContract.TestFile.Finding
import DocContract.TestFile.Kind

/-!
# The layout of test files

A unit test file imports, sets the database up, sets the file up and then has one suite for each
exported function of its source file; each suite has a case that returns and a case that throws. An
integration test file is named as a flow, prepares everything before its first suite, and each of
its suites has a happy and a negative path.
-/

namespace DocContract

open Text

/-- A finding with its place. -/
structure PlacedFinding where
  place : Position
  finding : LayoutFinding
  /-- The symbol that the finding is about. -/
  symbol? : Option Text := none
  deriving DecidableEq, Repr

/-- The conventions for test files, ready for use. -/
structure TestLayout where
  dbKeywords : List Text
  negativeKeywords : List Text
  flowPattern : Pattern
  gapSeverity : Severity

namespace TestLayout

/-- The conventions that the settings ask for. -/
def ofSettings (s : Settings) : Except Failure TestLayout :=
  match Pattern.ofText? s.tests.flowFilePattern with
  | none => .error (.settings (.badFlowPattern s.tests.flowFilePattern))
  | some pattern =>
    .ok {
      dbKeywords := s.tests.dbSetupKeywords
      negativeKeywords := s.tests.negativeCaseKeywords
      flowPattern := pattern
      gapSeverity := if s.coverageGapIsError then .error else .warning }

end TestLayout

/-! ### Titles of cases -/

/-- Is the character a given small letter up to case? The long s is an s. -/
def isLetter (letter c : Char) : Bool :=
  c.toLower == letter || (letter == 's' && c.toNat == 0x17F)

/-- The rest of a text that begins with a word, up to case. -/
def wordUpToCase? : List Char → Text → Option Text
  | [], t => some t
  | _ :: _, [] => none
  | letter :: word, c :: r => if isLetter letter c then wordUpToCase? word r else none

/-- The rest of a text that begins with something between braces that is not empty. -/
def bracedAt? : Text → Option Text
  | '{' :: c :: r =>
    if c == '}' then none
    else match r.dropWhile (· != '}') with
      | _ :: rest => some rest
      | [] => none
  | _ => none

/-- Does the title say that the case, in a given word, does something when something holds? -/
def hasCaseForm (word : String) (title : Text) : Bool :=
  match (((wordUpToCase? word.toList (trimStart title)).bind blanksAt?).bind bracedAt?).bind
      blanksAt? with
  | some rest => ((wordUpToCase? "when".toList rest).bind blanksAt?).any fun t => !t.isEmpty
  | none => false

/-- Is the case of a kind? -/
def TestCase.isUnitCase (c : TestCase) : UnitCase → Bool
  | .returns => hasCaseForm "returns" c.title
  | .throws => hasCaseForm "throws" c.title

/-- Does the title of the case hold one of the words for a negative path, up to case? -/
def TestCase.isNegative (keywords : List Text) (c : TestCase) : Bool :=
  keywords.any fun k => Text.contains (lower c.title) (lower k)

/-- Is the case of a kind? -/
def TestCase.isFlowCase (keywords : List Text) (c : TestCase) : FlowCase → Bool
  | .happy => !c.isNegative keywords
  | .negative => c.isNegative keywords

/-! ### Rules -/

namespace Outline

/-- The cases outside suites. -/
def strayCases (o : Outline) : List PlacedFinding :=
  (o.statements.filter (·.kind == .testCase)).map fun s => ⟨s.place, .caseOutsideSuite, none⟩

/-- The statements that stand after one of a later stage, given the furthest stage so far. -/
def unitOrderFrom (furthest? : Option StatementKind) : List Statement → List PlacedFinding
  | [] => []
  | s :: r =>
    match s.kind.rank?, furthest?.bind fun f => f.rank?.map fun rank => (f, rank) with
    | none, _ => unitOrderFrom furthest? r
    | some _, none => unitOrderFrom (some s.kind) r
    | some rank, some (furthest, reached) =>
      if rank < reached then
        ⟨s.place, .outOfOrder s.kind furthest, none⟩ :: unitOrderFrom furthest? r
      else unitOrderFrom (some s.kind) r

/-- The statements of a unit test file that are out of order. -/
def unitOrder (o : Outline) : List PlacedFinding := unitOrderFrom none o.statements

/-- Does a statement prepare the file? -/
def prepares : StatementKind → Bool
  | .importing => true
  | .databaseSetup => true
  | .fileSetup => true
  | _ => false

/-- The statements that prepare the file after a suite. -/
def flowOrderFrom (seenSuite : Bool) : List Statement → List PlacedFinding
  | [] => []
  | s :: r =>
    (if seenSuite && prepares s.kind then [⟨s.place, .afterSuite s.kind, none⟩] else [])
      ++ flowOrderFrom (seenSuite || s.kind == .suite) r

/-- The statements of an integration test file that are out of order. -/
def flowOrder (o : Outline) : List PlacedFinding := flowOrderFrom false o.statements

/-- The titles of the suites that have one. -/
def titles (o : Outline) : List Text := o.suites.filterMap (·.title?)

/-- The suites that are not named for an exported function. -/
def unknownSuites (o : Outline) (source : SourceUnit) : List PlacedFinding :=
  o.suites.filterMap fun s =>
    s.title?.bind fun title =>
      if source.exportedFunctions.contains title then none
      else some ⟨s.place, .suiteUnknown title source.path, none⟩

/-- The symbols with the name of an exported function that no suite is named for. -/
def missingSuites (o : Outline) (source : SourceUnit) : List PlacedFinding :=
  (source.symbols.filter fun s =>
    source.exportedFunctions.contains s.name && !o.titles.contains s.name).map
    fun s => ⟨{}, .suiteMissing s.name, some s.id⟩

/-- The suites of a unit test file that lack a case. -/
def unitGaps (o : Outline) : List PlacedFinding :=
  o.suites.filterMap fun s =>
    let missing := [UnitCase.returns, .throws].filter fun k => !s.cases.any (·.isUnitCase k)
    if missing.isEmpty then none else some ⟨s.place, .unitGap s.title? missing, none⟩

/-- The flows that lack a case. -/
def flowGaps (o : Outline) (keywords : List Text) : List PlacedFinding :=
  o.suites.filterMap fun s =>
    let missing := [FlowCase.happy, .negative].filter
      fun k => !s.cases.any (·.isFlowCase keywords k)
    if missing.isEmpty then none else some ⟨s.place, .flowGap s.title? missing, none⟩

/-- The finding that the file is not named as a flow. -/
def flowNaming (pattern : Pattern) (file : Path) : List PlacedFinding :=
  let name := (Path.fileName? file).getD []
  if pattern.accepts name then [] else [⟨{}, .flowName name pattern.text, none⟩]

/-- The findings of a unit test file with the source file that it tests, if that is known. -/
def unitFindings (o : Outline) (source? : Option SourceUnit) : List PlacedFinding :=
  o.unitOrder
    ++ (match source? with
        | some source => o.unknownSuites source ++ o.missingSuites source
        | none => [])
    ++ o.unitGaps

/-- The findings of an integration test file. -/
def flowFindings (o : Outline) (layout : TestLayout) (file : Path) : List PlacedFinding :=
  flowNaming layout.flowPattern file ++ o.flowOrder ++ o.flowGaps layout.negativeKeywords

end Outline

namespace TestLayout

/-- The findings of a test file. -/
def findings (layout : TestLayout) (u : TestUnit) (source? : Option SourceUnit) :
    List PlacedFinding :=
  let o := outline layout.dbKeywords u.text
  o.strayCases ++
    match u.inferKind source?.isSome with
    | .unit => o.unitFindings source?
    | .integration => o.flowFindings layout u.path

/-- The diagnostic of a finding; a gap in the coverage has the severity that the settings give. -/
def toDiagnostic (layout : TestLayout) (file : Path) (p : PlacedFinding) : Diagnostic :=
  let d := { p.finding.toDiagnostic file p.place with symbol? := p.symbol? }
  if d.code = .coverageGap then d.withSeverity layout.gapSeverity else d

/-- The diagnostics of a test file. -/
def validate (layout : TestLayout) (u : TestUnit) (source? : Option SourceUnit) :
    List Diagnostic :=
  (layout.findings u source?).map (layout.toDiagnostic u.path)

end TestLayout

end DocContract
