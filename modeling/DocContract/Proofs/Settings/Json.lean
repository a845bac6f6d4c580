import DocContract.Proofs.Json.Depth
import DocContract.Proofs.Json.Regular
import DocContract.Settings.Json

/-!
# Settings are read back

The written form of the options names each of them once, under its first name, so reading it takes
no default.
-/

namespace DocContract

open Json

/-- The JSON form of texts is nested one deep. -/
theorem Json.fits_ofTexts (ts : List Text) (room : Nat) : (ofTexts ts).fits (room + 1) = true := by
  have hitems : itemsFit room (ts.map .string) = true :=
    itemsFit_eq_true.mpr (List.forall_mem_map.mpr fun _ _ => rfl)
  rw [ofTexts, fits, Nat.add_sub_cancel, hitems]
  simp

private theorem Json.fits_ofNat? (n? : Option Nat) (room : Nat) : (ofNat? n?).fits room = true := by
  cases n? <;> rfl

private theorem Json.fits_ofText? (t? : Option Text) (room : Nat) :
    (ofText? t?).fits room = true := by
  cases t? <;> rfl

private theorem Convention.ofJson?_name (c : Convention) : ofJson? (.string c.name) = some c := by
  cases c <;> decide

/-! ### The parts -/

namespace ParallelSettings

private theorem ofJson?_toJson {p : ParallelSettings} (h : ∀ n ∈ p.maxConcurrency?, n < natBound) :
    ofJson? p.toJson = some p := by
  have hrecord : record? members p.toJson
      = some [some (.bool p.enabled), some (Json.ofNat? p.maxConcurrency?)] := rfl
  unfold ofJson?
  rw [hrecord]
  simp only [orDefault?, asBool?, orNull?_ofNat? h]
  rfl

private theorem isRegular_toJson {p : ParallelSettings}
    (h : ∀ n ∈ p.maxConcurrency?, n < natBound) : p.toJson.isRegular = true := by
  simp [toJson, isRegular, membersRegular, isRegular_ofNat? h]

end ParallelSettings

namespace LayoutSettings

private theorem ofJson?_toJson (t : LayoutSettings) : ofJson? t.toJson = some t := by
  have hrecord : record? members t.toJson = some [some (.ofTexts t.dbSetupKeywords),
      some (.ofTexts t.negativeCaseKeywords), some (.string t.flowFilePattern)] := rfl
  unfold ofJson?
  rw [hrecord]
  simp only [orDefault?, asList?_ofTexts, asText?]
  rfl

private theorem isRegular_toJson (t : LayoutSettings) : t.toJson.isRegular = true := by
  simp [toJson, isRegular, membersRegular, isRegular_ofTexts]

end LayoutSettings

namespace CacheSettings

private theorem ofJson?_toJson (c : CacheSettings) : ofJson? c.toJson = some c := by
  have hrecord : record? members c.toJson
      = some [some (.bool c.enabled), some (Json.ofText? c.dir?)] := rfl
  unfold ofJson?
  rw [hrecord]
  simp only [orDefault?, asBool?, orNull?_ofText?]
  rfl

private theorem isRegular_toJson (c : CacheSettings) : c.toJson.isRegular = true := by
  simp [toJson, isRegular, membersRegular, isRegular_ofText?]

end CacheSettings

/-! ### All options -/

namespace Settings

/-- The numbers among the options can be read from JSON. -/
structure InRange (s : Settings) : Prop where
  maxTagDepth : ∀ n ∈ s.maxTagDepth?, n < natBound
  maxConcurrency : ∀ n ∈ s.parallel.maxConcurrency?, n < natBound

private theorem ofJson?_toJson {s : Settings} (h : s.InRange) : ofJson? s.toJson = some s := by
  have hrecord : record? members s.toJson = some [some (.bool s.strictMode),
      some (.bool s.requireInternalDocs), some (.string s.markerConvention.name),
      some (.bool s.coverageGapIsError), some (Json.ofNat? s.maxTagDepth?),
      some (.ofTexts s.extraTags), some s.parallel.toJson, some s.tests.toJson,
      some s.cache.toJson] := rfl
  unfold ofJson?
  rw [hrecord]
  simp only [orDefault?, asBool?, Convention.ofJson?_name, orNull?_ofNat? h.maxTagDepth,
    asList?_ofTexts, ParallelSettings.ofJson?_toJson h.maxConcurrency,
    LayoutSettings.ofJson?_toJson, CacheSettings.ofJson?_toJson]
  rfl

private theorem isRegular_toJson {s : Settings} (h : s.InRange) : s.toJson.isRegular = true := by
  simp [toJson, isRegular, membersRegular, isRegular_ofNat? h.maxTagDepth, isRegular_ofTexts,
    ParallelSettings.isRegular_toJson h.maxConcurrency, LayoutSettings.isRegular_toJson,
    CacheSettings.isRegular_toJson]

private theorem fits_toJson (s : Settings) : s.toJson.fits maxDepth = true := by
  simp [toJson, ParallelSettings.toJson, LayoutSettings.toJson, CacheSettings.toJson, maxDepth,
    fits, membersFit, fits_ofTexts, fits_ofNat?, fits_ofText?]

end Settings

end DocContract
