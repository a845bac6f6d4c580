import DocContract.Signature

/-!
# Signatures in JSON

The JSON form of a symbol lists its members in the order of the structure and leaves nothing out.
Reading it fills in the members that are missing and refuses a value of the wrong kind.
-/

namespace DocContract

/-! ### Writing -/

mutual
/-- The JSON form of a type. -/
def TypeRef.toJson : TypeRef → Json
  | ⟨text, fields, elsewhere⟩ =>
    .object [("text", .string text), ("fields", .array (fieldsToJson fields)),
      ("documented_elsewhere", .bool elsewhere)]

/-- The JSON form of a type that may be missing. -/
def typeToJson : Option TypeRef → Json
  | none => .null
  | some t => t.toJson

/-- The JSON form of a field. -/
def Field.toJson : Field → Json
  | ⟨name, type, optional⟩ =>
    .object [("name", .string name), ("ty", typeToJson type), ("optional", .bool optional)]

/-- The JSON forms of fields. -/
def fieldsToJson : List Field → List Json
  | [] => []
  | f :: fs => f.toJson :: fieldsToJson fs
end

/-- The JSON form of a parameter. -/
def Parameter.toJson (p : Parameter) : Json :=
  .object [("name", .string p.name), ("type", typeToJson p.type?), ("optional", .bool p.optional)]

/-- The JSON form of a symbol. -/
def Symbol.toJson (s : Symbol) : Json :=
  .object [
    ("kind", .string s.kind.name),
    ("name", .string s.name),
    ("parameters", .array (s.parameters.map Parameter.toJson)),
    ("returnType", typeToJson s.returnType?),
    ("generics", .ofTexts s.generics),
    ("raiseKinds", .ofTexts s.raiseKinds),
    ("isAsync", .bool s.isAsync),
    ("isExported", .bool s.isExported),
    ("fields", .array (fieldsToJson s.fields)),
    ("requiresDocs", .bool s.requiresDocs),
    ("declarationLine", .nat s.declarationLine)]

/-! ### Reading -/

/-- The members of a type. -/
def TypeRef.members : List Json.MemberSpec :=
  [.required "text", .defaulted "fields", .defaulted "documented_elsewhere"]

/-- The members of a field. -/
def Field.members : List Json.MemberSpec :=
  [.required "name", .defaulted "ty", .defaulted "optional"]

mutual
/-- Reads a type. -/
def TypeRef.ofJson? (j : Json) : Option TypeRef :=
  match _hr : Json.record? TypeRef.members j with
  | some [text, fields, elsewhere] => do
    let text ← Json.need? Json.asText? text
    let fields ←
      match _hf : fields with
      | none => some []
      | some (.array items) => fieldsOfJson? items
      | some _ => none
    let elsewhere ← Json.orDefault? Json.asBool? false elsewhere
    return ⟨text, fields, elsewhere⟩
  | _ => none
termination_by sizeOf j
decreasing_by
  have := Json.sizeOf_lt_of_record? _hr (v := .array items) (by simp [_hf])
  simp only [Json.array.sizeOf_spec] at this
  omega

/-- Reads a field. -/
def Field.ofJson? (j : Json) : Option Field :=
  match _hr : Json.record? Field.members j with
  | some [name, type, optional] => do
    let name ← Json.need? Json.asText? name
    let type ←
      match _hf : type with
      | none => some none
      | some .null => some none
      | some v => (TypeRef.ofJson? v).map some
    let optional ← Json.orDefault? Json.asBool? false optional
    return ⟨name, type, optional⟩
  | _ => none
termination_by sizeOf j
decreasing_by exact Json.sizeOf_lt_of_record? _hr (by simp [_hf])

/-- Reads fields. -/
def fieldsOfJson? (items : List Json) : Option (List Field) :=
  match items with
  | [] => some []
  | v :: vs => do
    let f ← Field.ofJson? v
    let fs ← fieldsOfJson? vs
    return f :: fs
termination_by sizeOf items
end

/-- Reads an array of fields. -/
def fieldListOfJson? : Json → Option (List Field)
  | .array items => fieldsOfJson? items
  | _ => none

/-- The members of a parameter. -/
def Parameter.members : List Json.MemberSpec :=
  [.required "name", .defaulted "type", .defaulted "optional"]

/-- Reads a parameter. -/
def Parameter.ofJson? (j : Json) : Option Parameter :=
  match Json.record? Parameter.members j with
  | some [name, type, optional] => do
    return {
      name := ← Json.need? Json.asText? name
      type? := ← Json.orNull? TypeRef.ofJson? type
      optional := ← Json.orDefault? Json.asBool? false optional }
  | _ => none

/-- Reads the kind of a symbol. -/
def SymbolKind.ofJson? (j : Json) : Option SymbolKind := (Json.asName? j).bind SymbolKind.ofName?

/-- The members of a symbol. -/
def Symbol.members : List Json.MemberSpec :=
  [.required "kind", .required "name", .defaulted "parameters", .defaulted "returnType",
   .defaulted "generics", .defaulted "raiseKinds", .defaulted "isAsync", .defaulted "isExported",
   .defaulted "fields", .defaulted "requiresDocs", .required "declarationLine"]

/-- Reads a symbol. -/
def Symbol.ofJson? (j : Json) : Option Symbol :=
  match Json.record? Symbol.members j with
  | some [kind, name, parameters, returnType, generics, raiseKinds, isAsync, isExported, fields,
      requiresDocs, declarationLine] => do
    return {
      kind := ← Json.need? SymbolKind.ofJson? kind
      name := ← Json.need? Json.asText? name
      parameters := ← Json.orDefault? (Json.asList? Parameter.ofJson?) [] parameters
      returnType? := ← Json.orNull? TypeRef.ofJson? returnType
      generics := ← Json.orDefault? (Json.asList? Json.asText?) [] generics
      raiseKinds := ← Json.orDefault? (Json.asList? Json.asText?) [] raiseKinds
      isAsync := ← Json.orDefault? Json.asBool? false isAsync
      isExported := ← Json.orDefault? Json.asBool? false isExported
      fields := ← Json.orDefault? fieldListOfJson? [] fields
      requiresDocs := ← Json.orDefault? Json.asBool? false requiresDocs
      declarationLine := ← Json.need? Json.asNat? declarationLine }
  | _ => none

end DocContract
