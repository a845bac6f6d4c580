import DocContract.Json

/-!
# Records in JSON

Typed values are read from JSON by these rules. A record is an object whose members are found by
name, or an array that lists the members in their order. Unknown members do not count, but a known
member that is written twice, under one of its names or under two, is refused. A name of an
enumeration is a string, or an object whose only member has that name and the value null.
-/

namespace DocContract.Json

/-- A member that a record may have. -/
structure MemberSpec where
  /-- The names under which the member may be written. -/
  names : List Text
  /-- Does the array form have to hold it? -/
  listed : Bool

namespace MemberSpec

/-- A member that has to be there. -/
def required (name : Text) : MemberSpec := ⟨[name], true⟩

/-- A member that may be left out, in the array form as well when all later ones are. -/
def defaulted (name : Text) : MemberSpec := ⟨[name], false⟩

/-- A member with a default that has two names. -/
def either (name other : Text) : MemberSpec := ⟨[name, other], false⟩

/-- The values written for a member. -/
def occurrences (spec : MemberSpec) (members : List (Text × Json)) : List Json :=
  (members.filter fun m => spec.names.contains m.1).map (·.2)

end MemberSpec

/-- The value of each member of a record written as an object. -/
def recordOfMembers? : List MemberSpec → List (Text × Json) → Option (List (Option Json))
  | [], _ => some []
  | spec :: specs, members =>
    match spec.occurrences members with
    | [] => (recordOfMembers? specs members).map (none :: ·)
    | [v] => (recordOfMembers? specs members).map (some v :: ·)
    | _ :: _ :: _ => none

/-- The value of each member of a record written as an array. -/
def recordOfItems? : List MemberSpec → List Json → Option (List (Option Json))
  | [], [] => some []
  | [], _ :: _ => none
  | spec :: specs, [] =>
    if spec.listed then none else (recordOfItems? specs []).map (none :: ·)
  | _ :: specs, v :: vs => (recordOfItems? specs vs).map (some v :: ·)

/-- The value of each member of a record, in the order of the members. -/
def record? (specs : List MemberSpec) : Json → Option (List (Option Json))
  | .object members => recordOfMembers? specs members
  | .array items => recordOfItems? specs items
  | _ => none

private theorem MemberSpec.exists_of_mem_occurrences {spec : MemberSpec}
    {members : List (Text × Json)}
    {v : Json} (h : v ∈ spec.occurrences members) : ∃ name, (name, v) ∈ members := by
  simp only [MemberSpec.occurrences, List.mem_map, List.mem_filter] at h
  obtain ⟨⟨name, w⟩, ⟨hm, _⟩, rfl⟩ := h
  exact ⟨name, hm⟩

private theorem exists_of_recordOfMembers? {specs : List MemberSpec} {members : List (Text × Json)}
    {vs : List (Option Json)} {v : Json} (h : recordOfMembers? specs members = some vs)
    (hv : some v ∈ vs) : ∃ name, (name, v) ∈ members := by
  induction specs generalizing vs with
  | nil => simp [recordOfMembers?] at h; subst h; simp at hv
  | cons spec specs ih =>
    simp only [recordOfMembers?] at h
    split at h
    · simp only [Option.map_eq_some_iff] at h
      obtain ⟨ws, hw, rfl⟩ := h
      exact ih hw (by simpa using hv)
    · next w ho =>
      simp only [Option.map_eq_some_iff] at h
      obtain ⟨ws, hw, rfl⟩ := h
      rcases List.mem_cons.mp hv with hv | hv
      · cases hv
        exact spec.exists_of_mem_occurrences (by rw [ho]; exact List.mem_singleton_self _)
      · exact ih hw hv
    · cases h

private theorem mem_of_recordOfItems? {specs : List MemberSpec} {items : List Json}
    {vs : List (Option Json)} {v : Json} (h : recordOfItems? specs items = some vs)
    (hv : some v ∈ vs) : v ∈ items := by
  induction specs generalizing items vs with
  | nil =>
    cases items with
    | nil => simp [recordOfItems?] at h; subst h; simp at hv
    | cons => simp [recordOfItems?] at h
  | cons spec specs ih =>
    cases items with
    | nil =>
      simp only [recordOfItems?] at h
      split at h
      · cases h
      · simp only [Option.map_eq_some_iff] at h
        obtain ⟨ws, hw, rfl⟩ := h
        exact ih hw (by simpa using hv)
    | cons w items =>
      simp only [recordOfItems?, Option.map_eq_some_iff] at h
      obtain ⟨ws, hw, rfl⟩ := h
      rcases List.mem_cons.mp hv with hv | hv
      · cases hv
        exact List.mem_cons_self
      · exact List.mem_cons_of_mem _ (ih hw hv)

/-- What a record holds is smaller than the record. -/
theorem sizeOf_lt_of_record? {specs : List MemberSpec} {j v : Json} {vs : List (Option Json)}
    (h : record? specs j = some vs) (hv : some v ∈ vs) : sizeOf v < sizeOf j := by
  unfold record? at h
  split at h
  · next members =>
    obtain ⟨name, hm⟩ := exists_of_recordOfMembers? h hv
    have := List.sizeOf_lt_of_mem hm
    simp only [Json.object.sizeOf_spec, Prod.mk.sizeOf_spec] at *
    omega
  · next items =>
    have := List.sizeOf_lt_of_mem (mem_of_recordOfItems? h hv)
    simp only [Json.array.sizeOf_spec] at *
    omega
  · cases h

/-- A string. -/
def asText? : Json → Option Text
  | .string t => some t
  | _ => none

/-- A truth value. -/
def asBool? : Json → Option Bool
  | .bool b => some b
  | _ => none

/-- One more than the greatest number that can be read. -/
def natBound : Nat := Nat.pow 2 64

/-- A natural number below the bound. -/
def asNat? : Json → Option Nat
  | .nat n => if n < natBound then some n else none
  | _ => none

/-- An array whose items are all read by `item?`. -/
def asList? {α : Type} (item? : Json → Option α) : Json → Option (List α)
  | .array items => items.mapM item?
  | _ => none

/-- A value that may be null. -/
def asOption? {α : Type} (value? : Json → Option α) : Json → Option (Option α)
  | .null => some none
  | v => (value? v).map some

/-- The name of an enumeration's value. -/
def asName? : Json → Option Text
  | .string t => some t
  | .object [(name, .null)] => some name
  | _ => none

/-- A member that has to be there. -/
def need? {α : Type} (value? : Json → Option α) : Option Json → Option α
  | none => none
  | some v => value? v

/-- A member that has a default; null is not taken for it. -/
def orDefault? {α : Type} (value? : Json → Option α) (default : α) : Option Json → Option α
  | none => some default
  | some v => value? v

/-- A member that may be missing or null. -/
def orNull? {α : Type} (value? : Json → Option α) : Option Json → Option (Option α)
  | none => some none
  | some v => asOption? value? v

end DocContract.Json
