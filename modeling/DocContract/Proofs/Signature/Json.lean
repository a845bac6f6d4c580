import DocContract.Proofs.Json.Regular

/-!
# Signatures are read back

What is written for a type, a field, a parameter or a symbol is read as the same one, however deep
the types of its fields are nested. The only number in it is the line of the declaration.
-/

namespace DocContract

open Json

/-! ### Types and fields -/

private theorem TypeRef.record?_toJson (text : Text) (fields : List Field) (elsewhere : Bool) :
    record? TypeRef.members (TypeRef.toJson ⟨text, fields, elsewhere⟩)
      = some [some (.string text), some (.array (fieldsToJson fields)),
        some (.bool elsewhere)] := rfl

private theorem Field.record?_toJson (name : Text) (type? : Option TypeRef) (optional : Bool) :
    record? Field.members (Field.toJson ⟨name, type?, optional⟩)
      = some [some (.string name), some (typeToJson type?), some (.bool optional)] := rfl

mutual
private theorem TypeRef.ofJson?_toJson : ∀ t : TypeRef, TypeRef.ofJson? t.toJson = some t
  | ⟨text, fields, elsewhere⟩ => by
    have hrecord := TypeRef.record?_toJson text fields elsewhere
    rw [TypeRef.ofJson?]
    split
    · next t fs e h =>
      rw [hrecord] at h
      cases h
      simp [need?, asText?, orDefault?, asBool?, fieldsOfJson?_fieldsToJson fields]
    · next h => exact absurd hrecord (h _ _ _)

private theorem Field.ofJson?_toJson : ∀ f : Field, Field.ofJson? f.toJson = some f
  | ⟨name, none, optional⟩ => by
    have hrecord := Field.record?_toJson name none optional
    rw [Field.ofJson?]
    split
    · next n t o h =>
      rw [hrecord] at h
      cases h
      rfl
    · next h => exact absurd hrecord (h _ _ _)
  | ⟨name, some type, optional⟩ => by
    have hrecord := Field.record?_toJson name (some type) optional
    have htype := TypeRef.ofJson?_toJson type
    rw [Field.ofJson?]
    split
    · next n t o h =>
      rw [hrecord] at h
      cases h
      obtain ⟨text, fields, elsewhere⟩ := type
      rw [TypeRef.toJson] at htype
      simp only [need?, asText?, orDefault?, asBool?, typeToJson, TypeRef.toJson, htype]
      rfl
    · next h => exact absurd hrecord (h _ _ _)

private theorem fieldsOfJson?_fieldsToJson : ∀ fs : List Field,
    fieldsOfJson? (fieldsToJson fs) = some fs
  | [] => by rw [fieldsToJson, fieldsOfJson?]
  | f :: fs => by
    rw [fieldsToJson, fieldsOfJson?, Field.ofJson?_toJson f, fieldsOfJson?_fieldsToJson fs]
    rfl
end

private theorem orNull?_typeToJson (type? : Option TypeRef) :
    orNull? TypeRef.ofJson? (some (typeToJson type?)) = some type? := by
  cases type? with
  | none => rfl
  | some type =>
    obtain ⟨text, fields, elsewhere⟩ := type
    exact orNull?_of_ne_null (by simp [typeToJson, TypeRef.toJson]) (TypeRef.ofJson?_toJson _)

private theorem fieldListOfJson?_fieldsToJson (fs : List Field) :
    fieldListOfJson? (.array (fieldsToJson fs)) = some fs := fieldsOfJson?_fieldsToJson fs

mutual
private theorem TypeRef.isRegular_toJson : ∀ t : TypeRef, t.toJson.isRegular = true
  | ⟨text, fields, elsewhere⟩ => by
    simp [TypeRef.toJson, isRegular, membersRegular, areRegular_fieldsToJson fields]

private theorem isRegular_typeToJson : ∀ t : Option TypeRef, (typeToJson t).isRegular = true
  | none => rfl
  | some t => t.isRegular_toJson

private theorem Field.isRegular_toJson : ∀ f : Field, f.toJson.isRegular = true
  | ⟨name, type, optional⟩ => by
    simp [Field.toJson, isRegular, membersRegular, isRegular_typeToJson type]

private theorem areRegular_fieldsToJson : ∀ fs : List Field, areRegular (fieldsToJson fs) = true
  | [] => rfl
  | f :: fs => by simp [fieldsToJson, areRegular, f.isRegular_toJson, areRegular_fieldsToJson fs]
end

/-! ### Parameters and symbols -/

private theorem Parameter.ofJson?_toJson (p : Parameter) : Parameter.ofJson? p.toJson = some p := by
  have hrecord : record? Parameter.members p.toJson
      = some [some (.string p.name), some (typeToJson p.type?), some (.bool p.optional)] := rfl
  unfold Parameter.ofJson?
  rw [hrecord]
  simp only [need?, asText?, orNull?_typeToJson, orDefault?, asBool?]
  rfl

private theorem Parameter.isRegular_toJson (p : Parameter) : p.toJson.isRegular = true := by
  simp [Parameter.toJson, isRegular, membersRegular, isRegular_typeToJson]

private theorem SymbolKind.ofName?_name (k : SymbolKind) : ofName? k.name = some k := by
  cases k <;> decide

/-- A symbol is read back from its JSON form when its line is in range. -/
theorem Symbol.ofJson?_toJson {s : Symbol} (h : s.declarationLine < natBound) :
    Symbol.ofJson? s.toJson = some s := by
  have hrecord : record? Symbol.members s.toJson = some [some (.string s.kind.name),
      some (.string s.name), some (.array (s.parameters.map Parameter.toJson)),
      some (typeToJson s.returnType?), some (.ofTexts s.generics), some (.ofTexts s.raiseKinds),
      some (.bool s.isAsync), some (.bool s.isExported), some (.array (fieldsToJson s.fields)),
      some (.bool s.requiresDocs), some (.nat s.declarationLine)] := rfl
  have hkind : SymbolKind.ofJson? (.string s.kind.name) = some s.kind := s.kind.ofName?_name
  have hparameters : asList? Parameter.ofJson? (.array (s.parameters.map Parameter.toJson))
      = some s.parameters := asList?_map fun p _ => p.ofJson?_toJson
  have hline : asNat? (.nat s.declarationLine) = some s.declarationLine := if_pos h
  unfold Symbol.ofJson?
  rw [hrecord]
  simp only [need?, hkind, asText?, orDefault?, hparameters, orNull?_typeToJson, asList?_ofTexts,
    asBool?, fieldListOfJson?_fieldsToJson, hline]
  rfl

/-- The JSON form of a symbol is regular when its line is in range. -/
theorem Symbol.isRegular_toJson {s : Symbol} (h : s.declarationLine < natBound) :
    s.toJson.isRegular = true := by
  have hparameters : areRegular (s.parameters.map Parameter.toJson) = true :=
    areRegular_eq_true.mpr (List.forall_mem_map.mpr fun p _ => p.isRegular_toJson)
  simp [Symbol.toJson, isRegular, membersRegular, isRegular_typeToJson, isRegular_ofTexts,
    areRegular_fieldsToJson, hparameters, h]

end DocContract
