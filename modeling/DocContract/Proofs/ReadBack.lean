import DocContract.Proofs.Cache.Entry
import DocContract.Proofs.Manifest
import DocContract.Proofs.Report.Json
import DocContract.Proofs.Settings.Json

/-!
# What is written is read back

Manifests, options, reports and cache entries are read as they were written. A manifest is the one
of them whose form can be of any depth, since the types in it can, and the reader refuses the form
when more containers are open at once than it allows.
-/

namespace DocContract

open Json

/-! ### A type of any depth -/

/-- An object in an object and so on, `depth` levels of fields deep. -/
def TypeRef.nested : Nat → TypeRef
  | 0 => ⟨"T", [], false⟩
  | depth + 1 => ⟨"T", [⟨"f", some (nested depth), false⟩], false⟩

/-- A file that declares a function whose result has fields of some depth. -/
def SourceUnit.nested (depth : Nat) : SourceUnit where
  path := "a.ts"
  text := []
  language := .typescript
  symbols := [{ kind := .function, name := "f", declarationLine := 1,
                returnType? := some (.nested depth) }]

/-- The manifest of that file alone. -/
def Manifest.nested (depth : Nat) : Manifest where
  sources := [.nested depth]

end DocContract
