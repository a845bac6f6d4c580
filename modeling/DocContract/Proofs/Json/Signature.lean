import DocContract.Proofs.Json.Written
import DocContract.Signature.Json

/-!
# The JSON form of a signature

No two symbols have the same JSON form, whatever types their signatures expose, and the form holds
no decimal literals; so the text that is written for a symbol determines it.
-/

namespace DocContract

open Json

/-! ### Forms without decimal literals -/

mutual
private theorem TypeRef.isPlain_toJson : ∀ t : TypeRef, t.toJson.isPlain = true
  | ⟨text, fields, elsewhere⟩ => by
    simp [TypeRef.toJson, isPlain, membersPlain, arePlain_fieldsToJson fields]

private theorem isPlain_typeToJson : ∀ t : Option TypeRef, (typeToJson t).isPlain = true
  | none => rfl
  | some t => t.isPlain_toJson

private theorem Field.isPlain_toJson : ∀ f : Field, f.toJson.isPlain = true
  | ⟨name, type, optional⟩ => by
    simp [Field.toJson, isPlain, membersPlain, isPlain_typeToJson type]

private theorem arePlain_fieldsToJson : ∀ fs : List Field, arePlain (fieldsToJson fs) = true
  | [] => rfl
  | f :: fs => by simp [fieldsToJson, arePlain, f.isPlain_toJson, arePlain_fieldsToJson fs]
end

/-- The JSON form of texts holds no decimal literals. -/
theorem isPlain_ofTexts (ts : List Text) : (Json.ofTexts ts).isPlain = true := by
  rw [Json.ofTexts, isPlain, arePlain_eq_true, List.forall_mem_map]
  exact fun _ _ => rfl

private theorem Parameter.isPlain_toJson (p : Parameter) : p.toJson.isPlain = true := by
  simp [Parameter.toJson, isPlain, membersPlain, isPlain_typeToJson]

/-- The JSON form of a symbol holds no decimal literals. -/
theorem Symbol.isPlain_toJson (s : Symbol) : s.toJson.isPlain = true := by
  have hparameters : arePlain (s.parameters.map Parameter.toJson) = true := by
    rw [arePlain_eq_true, List.forall_mem_map]
    exact fun p _ => p.isPlain_toJson
  simp [Symbol.toJson, isPlain, membersPlain, isPlain_typeToJson, isPlain_ofTexts,
    arePlain_fieldsToJson, hparameters]

/-! ### Forms of one signature only -/

mutual
private theorem TypeRef.toJson_inj : ∀ (t : TypeRef) {u : TypeRef}, t.toJson = u.toJson → t = u
  | ⟨text, fields, elsewhere⟩, ⟨text', fields', elsewhere'⟩, h => by
    simp only [TypeRef.toJson, object.injEq, List.cons.injEq, Prod.mk.injEq, string.injEq,
      array.injEq, bool.injEq, true_and, and_true] at h
    obtain ⟨rfl, hfields, rfl⟩ := h
    rw [fieldsToJson_inj fields hfields]

private theorem typeToJson_inj : ∀ (t : Option TypeRef) {u : Option TypeRef},
    typeToJson t = typeToJson u → t = u
  | none, none, _ => rfl
  | none, some ⟨_, _, _⟩, h => by cases h
  | some ⟨_, _, _⟩, none, h => by cases h
  | some t, some u, h => congrArg some (t.toJson_inj h)

private theorem Field.toJson_inj : ∀ (f : Field) {g : Field}, f.toJson = g.toJson → f = g
  | ⟨name, type, optional⟩, ⟨name', type', optional'⟩, h => by
    simp only [Field.toJson, object.injEq, List.cons.injEq, Prod.mk.injEq, string.injEq,
      bool.injEq, true_and, and_true] at h
    obtain ⟨rfl, htype, rfl⟩ := h
    rw [typeToJson_inj type htype]

private theorem fieldsToJson_inj : ∀ (fs : List Field) {gs : List Field},
    fieldsToJson fs = fieldsToJson gs → fs = gs
  | [], [], _ => rfl
  | [], g :: gs, h => by cases h
  | f :: fs, [], h => by cases h
  | f :: fs, g :: gs, h => by
    obtain ⟨hf, hfs⟩ := List.cons.inj h
    rw [f.toJson_inj hf, fieldsToJson_inj fs hfs]
end

private theorem Parameter.toJson_inj {p q : Parameter} (h : p.toJson = q.toJson) : p = q := by
  cases p
  cases q
  simp only [Parameter.toJson, object.injEq, List.cons.injEq, Prod.mk.injEq, string.injEq,
    bool.injEq, true_and, and_true] at h
  obtain ⟨rfl, htype, rfl⟩ := h
  rw [typeToJson_inj _ htype]

private theorem SymbolKind.name_inj {k l : SymbolKind} (h : k.name = l.name) : k = l := by
  revert k l
  have : ∀ k ∈ SymbolKind.all, ∀ l ∈ SymbolKind.all, k.name = l.name → k = l := by decide
  intro k l
  exact this k (by cases k <;> decide) l (by cases l <;> decide)

private theorem ofTexts_inj {ts us : List Text} (h : Json.ofTexts ts = Json.ofTexts us) : ts = us :=
  (List.map_inj_right fun _ _ h => Json.string.inj h).mp (Json.array.inj h)

/-- Different symbols have different JSON forms. -/
theorem Symbol.toJson_inj {s t : Symbol} (h : s.toJson = t.toJson) : s = t := by
  cases s
  cases t
  simp only [Symbol.toJson, object.injEq, List.cons.injEq, Prod.mk.injEq, string.injEq,
    bool.injEq, nat.injEq, array.injEq, true_and, and_true] at h
  obtain ⟨hkind, rfl, hparameters, hreturn, hgenerics, hraises, rfl, rfl, hfields, rfl, rfl⟩ := h
  rw [SymbolKind.name_inj hkind,
    (List.map_inj_right fun _ _ => Parameter.toJson_inj).mp hparameters, typeToJson_inj _ hreturn,
    ofTexts_inj hgenerics, ofTexts_inj hraises, fieldsToJson_inj _ hfields]

end DocContract
