import DocContract.Cache
import DocContract.Proofs.Diagnostic
import DocContract.Proofs.Instant
import DocContract.Proofs.Json.Depth

/-!
# Entries are read back

What a cache writes into the file of a key it reads back from there: the findings and the time both
survive their written form.
-/

namespace DocContract

namespace CacheEntry

private theorem isPlain_toJson (e : CacheEntry) : e.toJson.isPlain = true := by
  simp [toJson, Json.isPlain, Json.membersPlain, Diagnostic.arePlain_toJson, Instant.toJson]

private theorem fits_toJson (e : CacheEntry) : e.toJson.fits Json.maxDepth = true := by
  simp [toJson, Json.fits, Json.membersFit, Json.maxDepth, Instant.toJson,
    Diagnostic.itemsFit_toJson]

private theorem ofJson?_toJson {e : CacheEntry} (h : ∀ d ∈ e.diagnostics, d.InRange) :
    ofJson? e.toJson = some e := by
  have hrecord : Json.record? members e.toJson
      = some [some (.array (e.diagnostics.map Diagnostic.toJson)), some e.timestamp.toJson] := rfl
  have htime : Instant.ofJson? e.timestamp.toJson = some e.timestamp := e.timestamp.ofText?_toText
  unfold ofJson?
  rw [hrecord]
  simp only [Json.need?, Diagnostic.asList?_toJson h, htime]
  rfl

/-- A text that writes an entry is read as the entry. -/
theorem ofText?_text {e : CacheEntry} (h : ∀ d ∈ e.diagnostics, d.InRange) {t : Text}
    (ht : e.toJson.IsTextOf t) : ofText? t = some e := by
  rw [ofText?, ht.parse? e.isPlain_toJson, if_pos e.fits_toJson, Option.bind_some,
    ofJson?_toJson h]

/-- An entry is read back as it was written. -/
theorem ofText?_compact {e : CacheEntry} (h : ∀ d ∈ e.diagnostics, d.InRange) :
    ofText? e.toJson.compact = some e := ofText?_text h .compact

end CacheEntry

end DocContract
