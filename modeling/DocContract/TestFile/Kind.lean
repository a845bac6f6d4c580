import DocContract.SourceUnit

/-!
# The kind of a test file

A stated kind counts. Otherwise a file in a directory for integration tests, or with a mark for them
in its name, is an integration test, and so is a file without a source file; any other file is a
unit test.
-/

namespace DocContract

/-- The directories of integration tests. -/
def integrationDirs : List Text := ["integration", "e2e", "flows"]

/-- The marks of integration tests in a file name. -/
def integrationMarks : List Text := [".integration.", ".flow.", ".e2e."]

/-- Does the path lie in a directory for integration tests? -/
def inIntegrationDir (p : Path) : Bool :=
  (Path.components p).dropLast.any fun c => integrationDirs.any fun dir => c == .normal dir

/-- Does the file name bear a mark of integration tests? -/
def hasIntegrationMark (p : Path) : Bool :=
  (Path.fileName? p).any fun name => integrationMarks.any fun mark => Text.contains name mark

/-- The kind of a test file, given whether its source file is known. -/
def TestUnit.inferKind (u : TestUnit) (paired : Bool) : TestKind :=
  match u.kind? with
  | some kind => kind
  | none =>
    if inIntegrationDir u.path || hasIntegrationMark u.path || !paired then .integration else .unit

end DocContract
