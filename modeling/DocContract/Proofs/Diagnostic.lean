import DocContract.Diagnostic
import DocContract.Proofs.Json.Read
import DocContract.Proofs.Json.Regular

/-!
# Findings are read back

What is written for a finding is read as the same finding: the names of kinds and severities, the
numbers and the texts all survive their written form, and a missing subject stays missing.
-/

namespace DocContract

/-- The kind of a name is that of the row with the name. -/
theorem DiagnosticCode.ofName?_toList (s : String) :
    ofName? s.toList = (table.find? fun row => row.2 == s).map (·.1) := by
  have hrow : ∀ row : DiagnosticCode × String, (row.2.toList == s.toList) = (row.2 == s) := by
    intro row
    rw [Bool.eq_iff_iff, beq_iff_eq, beq_iff_eq, String.toList_inj]
  rw [ofName?]
  simp only [hrow]

private theorem DiagnosticCode.ofName?_name (c : DiagnosticCode) : ofName? c.name = some c := by
  rw [name, ofName?_toList]
  cases c <;> rfl

private theorem Severity.ofName?_name (s : Severity) : ofName? s.name = some s := by
  cases s <;> decide

namespace Diagnostic

/-- The numbers of the finding can be read from JSON. -/
structure InRange (d : Diagnostic) : Prop where
  line : d.line < Json.natBound
  column : d.column < Json.natBound

instance (d : Diagnostic) : Decidable d.InRange :=
  decidable_of_iff (d.line < Json.natBound ∧ d.column < Json.natBound)
    ⟨fun h => ⟨h.1, h.2⟩, fun h => ⟨h.line, h.column⟩⟩

private theorem ofJson?_toJson {d : Diagnostic} (h : d.InRange) : ofJson? d.toJson = some d := by
  have hrecord : Json.record? members d.toJson = some [some (.string d.file), some (.nat d.line),
      some (.nat d.column), some (.string d.code.name), some (.string d.severity.name),
      some (.string d.message), d.symbol?.map .string] := by
    unfold toJson
    cases d.symbol? <;> rfl
  have hsymbol : Json.orNull? Json.asText? (d.symbol?.map .string) = some d.symbol? := by
    cases d.symbol? <;> rfl
  have hline : Json.asNat? (.nat d.line) = some d.line := if_pos h.line
  have hcolumn : Json.asNat? (.nat d.column) = some d.column := if_pos h.column
  unfold ofJson?
  rw [hrecord]
  simp only [Json.need?, Json.asText?, Json.asName?, hline, hcolumn, hsymbol, Option.bind_some,
    DiagnosticCode.ofName?_name, Severity.ofName?_name, Option.bind_eq_bind]
  rfl

private theorem isPlain_toJson (d : Diagnostic) : d.toJson.isPlain = true := by
  unfold toJson
  cases d.symbol? <;> rfl

private theorem fits_toJson (d : Diagnostic) (room : Nat) : d.toJson.fits (room + 1) = true := by
  unfold toJson
  cases d.symbol? <;> simp [Json.fits, Json.membersFit]

/-! ### Lists of findings -/

/-- Findings are read back from their JSON forms. -/
theorem asList?_toJson {ds : List Diagnostic} (h : ∀ d ∈ ds, d.InRange) :
    Json.asList? ofJson? (.array (ds.map toJson)) = some ds :=
  Json.asList?_map fun d hd => ofJson?_toJson (h d hd)

/-- The JSON forms of findings hold no decimal literals. -/
theorem arePlain_toJson (ds : List Diagnostic) : Json.arePlain (ds.map toJson) = true :=
  Json.arePlain_eq_true.mpr (List.forall_mem_map.mpr fun d _ => d.isPlain_toJson)

/-- The JSON forms of findings are nested one deep. -/
theorem itemsFit_toJson (ds : List Diagnostic) (room : Nat) :
    Json.itemsFit (room + 1) (ds.map toJson) = true :=
  Json.itemsFit_eq_true.mpr (List.forall_mem_map.mpr fun d _ => d.fits_toJson room)

end Diagnostic

end DocContract
