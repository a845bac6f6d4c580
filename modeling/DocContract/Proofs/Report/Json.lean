import DocContract.Proofs.Diagnostic
import DocContract.Proofs.Json.Depth
import DocContract.Report.Format

/-!
# Reports are read back

The JSON of a report says all of it: the findings in their order, the verdict and the number of
files.
-/

namespace DocContract

open Json

namespace Report

/-- The numbers of the report can be read from JSON. -/
structure InRange (r : Report) : Prop where
  diagnostics : ∀ d ∈ r.diagnostics, d.InRange
  unitsChecked : r.unitsChecked < natBound

private theorem ofJson?_toJson {r : Report} (h : r.InRange) : ofJson? r.toJson = some r := by
  have hrecord : record? members r.toJson
      = some [some (.array (r.diagnostics.map Diagnostic.toJson)), some (.bool r.passed),
        some (.bool r.complete), some (.nat r.unitsChecked)] := rfl
  have hunits : asNat? (.nat r.unitsChecked) = some r.unitsChecked := if_pos h.unitsChecked
  unfold ofJson?
  rw [hrecord]
  simp only [need?, Diagnostic.asList?_toJson h.diagnostics, asBool?, hunits]
  rfl

private theorem isPlain_toJson (r : Report) : r.toJson.isPlain = true := by
  simp [toJson, isPlain, membersPlain, Diagnostic.arePlain_toJson]

private theorem fits_toJson (r : Report) : r.toJson.fits maxDepth = true := by
  simp [toJson, fits, membersFit, maxDepth, Diagnostic.itemsFit_toJson]

end Report

end DocContract
