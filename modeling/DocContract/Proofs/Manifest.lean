import DocContract.Proofs.Instant
import DocContract.Proofs.Json.Depth
import DocContract.Proofs.Signature.Json

/-!
# Manifests are read back

What is written for a manifest is read as the same manifest, also when a file leaves out a language
that is the one of its extension. Only the depth of the types can stand in the way: the reader
refuses a form that is nested too deeply.
-/

namespace DocContract

open Json

/-! ### Languages -/

private theorem Language.ofName?_name (l : Language) : ofName? l.name = some l := by
  cases l <;> decide

private theorem Language.ofJson?_toJson (l : Language) : ofJson? l.toJson = some l := l.ofName?_name

/-- An extension belongs to one language only. -/
theorem Language.ofExtension?_of_mem {l : Language} {extension : Text}
    (h : extension ∈ l.extensions) : ofExtension? extension = some l := by
  have hall : ∀ l ∈ all, ∀ extension ∈ l.extensions, ofExtension? extension = some l := by decide
  exact hall l (by cases l <;> decide) extension h

/-- The language is the one of the path's extension. -/
def Language.IsOf (l : Language) (path : Path) : Prop :=
  ∃ extension ∈ Path.extension? path, extension ∈ l.extensions

/-! ### Forms that leave out the language -/

/-- The object without the members of a name. -/
def Json.without (name : Text) : Json → Json
  | .object members => .object (members.filter (·.1 != name))
  | v => v

private theorem Json.isRegular_without (name : Text) {v : Json} (h : v.isRegular = true) :
    (v.without name).isRegular = true := by
  cases v with
  | object members =>
    obtain ⟨hnames, hmembers⟩ := isRegular_object.mp h
    have hsub : (members.filter (·.1 != name)).Sublist members := List.filter_sublist
    exact isRegular_object.mpr
      ⟨(hsub.map Prod.fst).nodup hnames, fun m hm => hmembers m (hsub.subset hm)⟩
  | _ => exact h

/-- A form of a file of a path and a language: the full one, or the one without the language if that
is the language of the path. -/
inductive IsFormOf (path : Path) (language : Language) (full : Json) : Json → Prop
  | full : IsFormOf path language full full
  | untagged (h : language.IsOf path) : IsFormOf path language full (full.without "language")

private theorem IsFormOf.isRegular {path : Path} {language : Language} {full j : Json}
    (h : IsFormOf path language full j) (hfull : full.isRegular = true) : j.isRegular = true := by
  cases h with
  | full => exact hfull
  | untagged _ => exact isRegular_without _ hfull

private theorem Language.bind_ofExtension? {l : Language} {path : Path} (h : l.IsOf path) :
    (Path.extension? path).bind ofExtension? = some l := by
  obtain ⟨extension, hpath, hmem⟩ := h
  rw [hpath, Option.bind_some, ofExtension?_of_mem hmem]

/-- A record without a language gets the one of its path. -/
theorem Manifest.withLanguage_of_isOf {members : List (Text × Json)} {path : Path} {l : Language}
    (hmissing : members.any (·.1 == "language".toList) = false)
    (hpath : members.lookup "path".toList = some (.string path)) (h : l.IsOf path) :
    withLanguage (.object members) = .object (members ++ [("language".toList, l.toJson)]) := by
  have hlanguage : languageOfPath? members = some l := by
    rw [languageOfPath?, hpath]
    exact Language.bind_ofExtension? h
  rw [withLanguage, hmissing, if_neg Bool.false_ne_true, hlanguage]

/-! ### Source files -/

namespace SourceUnit

/-- The lines of the declarations can be read from JSON. -/
def InRange (u : SourceUnit) : Prop := ∀ s ∈ u.symbols, s.declarationLine < natBound

instance (u : SourceUnit) : Decidable u.InRange :=
  inferInstanceAs (Decidable (∀ s ∈ u.symbols, s.declarationLine < natBound))

/-- The written form of the time of the last change. -/
def modifiedToJson (u : SourceUnit) : Json :=
  match u.modified? with
  | none => .null
  | some t => t.toJson

/-- The members of the JSON form of a source file. -/
theorem toJson_eq (u : SourceUnit) : u.toJson = .object [("path", .string u.path),
    ("text", .string u.text), ("language", u.language.toJson),
    ("symbols", .array (u.symbols.map Symbol.toJson)), ("modified", u.modifiedToJson)] := rfl

/-- Every form of a file has the values of the full form once its language is filled in. -/
theorem record?_withLanguage {u : SourceUnit} {j : Json}
    (h : IsFormOf u.path u.language u.toJson j) : record? members (Manifest.withLanguage j)
      = some [some (.string u.path), some (.string u.text), some u.language.toJson,
        some (.array (u.symbols.map Symbol.toJson)), some u.modifiedToJson] := by
  cases h with
  | full => rfl
  | untagged h =>
    have hwithout : u.toJson.without "language" = .object [("path", .string u.path),
        ("text", .string u.text), ("symbols", .array (u.symbols.map Symbol.toJson)),
        ("modified", u.modifiedToJson)] := rfl
    rw [hwithout, Manifest.withLanguage_of_isOf rfl rfl h]
    rfl

/-- The language is no container. -/
theorem fits_form {u : SourceUnit} {j : Json} (h : IsFormOf u.path u.language u.toJson j)
    (room : Nat) : j.fits room = u.toJson.fits room := by
  cases h <;> rfl

private theorem ofJson?_withLanguage {u : SourceUnit} {j : Json} (hu : u.InRange)
    (h : IsFormOf u.path u.language u.toJson j) : ofJson? (Manifest.withLanguage j) = some u := by
  have hsymbols : asList? Symbol.ofJson? (.array (u.symbols.map Symbol.toJson))
      = some u.symbols := asList?_map fun s hs => Symbol.ofJson?_toJson (hu s hs)
  have hmodified : orNull? Instant.ofJson? (some u.modifiedToJson) = some u.modified? := by
    rw [modifiedToJson]
    cases u.modified? with
    | none => rfl
    | some t => exact congrArg (Option.map some) t.ofText?_toText
  unfold ofJson?
  rw [record?_withLanguage h]
  simp only [need?, asText?, u.language.ofJson?_toJson, orDefault?, hsymbols, hmodified]
  rfl

private theorem isRegular_toJson {u : SourceUnit} (hu : u.InRange) : u.toJson.isRegular = true := by
  have hsymbols : areRegular (u.symbols.map Symbol.toJson) = true :=
    areRegular_eq_true.mpr (List.forall_mem_map.mpr fun s hs => Symbol.isRegular_toJson (hu s hs))
  have hmodified : u.modifiedToJson.isRegular = true := by
    rw [modifiedToJson]
    cases u.modified? <;> rfl
  simp [toJson_eq, isRegular, membersRegular, Language.toJson, hsymbols, hmodified]

end SourceUnit

/-! ### Test files -/

private theorem TestKind.ofName?_name (k : TestKind) : ofName? k.name = some k := by
  cases k <;> decide

namespace TestUnit

/-- The written form of the kind. -/
def kindToJson (u : TestUnit) : Json :=
  match u.kind? with
  | none => .null
  | some k => k.toJson

/-- The members of the JSON form of a test file. -/
theorem toJson_eq (u : TestUnit) : u.toJson = .object [("path", .string u.path),
    ("text", .string u.text), ("language", u.language.toJson), ("kind", u.kindToJson),
    ("pairedSource", Json.ofText? u.pairedSource?)] := rfl

/-- Every form of a file has the values of the full form once its language is filled in. -/
theorem record?_withLanguage {u : TestUnit} {j : Json}
    (h : IsFormOf u.path u.language u.toJson j) : record? members (Manifest.withLanguage j)
      = some [some (.string u.path), some (.string u.text), some u.language.toJson,
        some u.kindToJson, some (Json.ofText? u.pairedSource?)] := by
  cases h with
  | full => rfl
  | untagged h =>
    have hwithout : u.toJson.without "language" = .object [("path", .string u.path),
        ("text", .string u.text), ("kind", u.kindToJson),
        ("pairedSource", Json.ofText? u.pairedSource?)] := rfl
    rw [hwithout, Manifest.withLanguage_of_isOf rfl rfl h]
    rfl

/-- The language is no container. -/
theorem fits_form {u : TestUnit} {j : Json} (h : IsFormOf u.path u.language u.toJson j)
    (room : Nat) : j.fits room = u.toJson.fits room := by
  cases h <;> rfl

private theorem ofJson?_withLanguage {u : TestUnit} {j : Json}
    (h : IsFormOf u.path u.language u.toJson j) : ofJson? (Manifest.withLanguage j) = some u := by
  have hkind : orNull? TestKind.ofJson? (some u.kindToJson) = some u.kind? := by
    rw [kindToJson]
    cases u.kind? with
    | none => rfl
    | some k => exact congrArg (Option.map some) k.ofName?_name
  unfold ofJson?
  rw [record?_withLanguage h]
  simp only [need?, asText?, u.language.ofJson?_toJson, hkind, orNull?_ofText?]
  rfl

private theorem isRegular_toJson (u : TestUnit) : u.toJson.isRegular = true := by
  have hkind : u.kindToJson.isRegular = true := by
    rw [kindToJson]
    cases u.kind? <;> rfl
  simp [toJson_eq, isRegular, membersRegular, Language.toJson, hkind, isRegular_ofText?]

end TestUnit

/-! ### Manifests -/

namespace Manifest

/-- The lines of the declarations can be read from JSON. -/
def InRange (m : Manifest) : Prop := ∀ u ∈ m.sources, u.InRange

instance (m : Manifest) : Decidable m.InRange :=
  inferInstanceAs (Decidable (∀ u ∈ m.sources, u.InRange))

/-- A form of the manifest: its JSON form, in which any files may leave out the language of their
extension. -/
inductive IsForm (m : Manifest) : Json → Prop
  | of {sources tests : List Json}
      (sources_forms :
        List.Forall₂ (fun u => IsFormOf u.path u.language u.toJson) m.sources sources)
      (tests_forms : List.Forall₂ (fun u => IsFormOf u.path u.language u.toJson) m.tests tests) :
      IsForm m (.object [("sources", .array sources), ("tests", .array tests)])

private theorem IsForm.isRegular {m : Manifest} {j : Json} (h : m.IsForm j) (hm : m.InRange) :
    j.isRegular = true := by
  obtain ⟨hsources, htests⟩ := h
  have hsources := areRegular_of_forall₂ <| ((List.forall₂_and_left _ _).mpr ⟨hm, hsources⟩).imp
    fun _ _ h => h.2.isRegular (SourceUnit.isRegular_toJson h.1)
  have htests := areRegular_of_forall₂ <| htests.imp fun u _ h => h.isRegular u.isRegular_toJson
  simp [Json.isRegular, membersRegular, hsources, htests]

/-- Every form of a manifest is nested as deep as the full one. -/
theorem IsForm.fits {m : Manifest} {j : Json} (h : m.IsForm j) (room : Nat) :
    j.fits room = m.toJson.fits room := by
  obtain ⟨hsources, htests⟩ := h
  have hsources := itemsFit_congr (hsources.imp fun _ _ h => SourceUnit.fits_form h (room - 1 - 1))
  have htests := itemsFit_congr (htests.imp fun _ _ h => TestUnit.fits_form h (room - 1 - 1))
  simp only [toJson, Json.fits, membersFit, hsources, htests]

private theorem IsForm.ofJson? {m : Manifest} {j : Json} (h : m.IsForm j) (hm : m.InRange) :
    Manifest.ofJson? j = some m := by
  obtain ⟨-, hfinite, hcollapse⟩ := regular j (h.isRegular hm)
  rw [Manifest.ofJson?, hfinite, hcollapse, if_pos rfl]
  obtain @⟨sources, tests, hsources, htests⟩ := h
  have hrecord : record? members (complete (.object [("sources", .array sources),
      ("tests", .array tests)])) = some [some (.array (sources.map withLanguage)),
        some (.array (tests.map withLanguage))] := rfl
  have hsources : asList? SourceUnit.ofJson? (.array (sources.map withLanguage))
      = some m.sources := by
    refine asList?_of_forall₂ (List.forall₂_map_right_iff.mpr ?_)
    exact ((List.forall₂_and_left _ _).mpr ⟨hm, hsources⟩).imp fun _ _ h =>
      SourceUnit.ofJson?_withLanguage h.1 h.2
  have htests : asList? TestUnit.ofJson? (.array (tests.map withLanguage)) = some m.tests := by
    refine asList?_of_forall₂ (List.forall₂_map_right_iff.mpr ?_)
    exact htests.imp fun _ _ h => TestUnit.ofJson?_withLanguage h
  rw [ofRecord?, hrecord]
  simp only [orDefault?, hsources, htests]
  rfl

/-- A text that writes a form of a manifest is read as the manifest, or refused when its form is
nested too deeply. -/
theorem IsForm.ofText? {m : Manifest} {j : Json} {t : Text} (h : m.IsForm j) (hm : m.InRange)
    (ht : j.IsTextOf t) :
    Manifest.ofText? t = if m.toJson.fits maxDepth then some m else none := by
  rw [Manifest.ofText?, ht.parse? (regular j (h.isRegular hm)).1, h.fits]
  split
  · rw [Option.bind_some, h.ofJson? hm]
  · rfl

end Manifest

end DocContract
