import DocContract.Manifest
import DocContract.Proofs.Json.Written
import Mathlib.Data.List.Forall2
import Mathlib.Data.List.Nodup

/-!
# Values that reading leaves as they are

A value is regular when it holds no decimal literals, no number that is too big to be read, and no
object with two members of one name. Such a value passes the check of its numbers, and there is no
repeated member to drop.
-/

namespace DocContract.Json

mutual
/-- Does the value hold neither decimal literals nor numbers that are too big nor objects with two
members of one name? -/
def isRegular : Json → Bool
  | .nat n => n < natBound
  | .decimal _ => false
  | .array items => areRegular items
  | .object members => decide (members.map Prod.fst).Nodup && membersRegular members
  | _ => true

/-- `isRegular` of every item. -/
def areRegular : List Json → Bool
  | [] => true
  | v :: vs => isRegular v && areRegular vs

/-- `isRegular` of every member's value. -/
def membersRegular : List (Text × Json) → Bool
  | [] => true
  | (_, v) :: ms => isRegular v && membersRegular ms
end

/-- Values are regular when each of them is. -/
theorem areRegular_eq_true {items : List Json} :
    areRegular items = true ↔ ∀ v ∈ items, isRegular v = true := by
  induction items with
  | nil => simp [areRegular]
  | cons v vs ih => rw [areRegular, Bool.and_eq_true, ih, List.forall_mem_cons]

private theorem membersRegular_eq_true {members : List (Text × Json)} :
    membersRegular members = true ↔ ∀ m ∈ members, isRegular m.2 = true := by
  induction members with
  | nil => simp [membersRegular]
  | cons m ms ih => rw [membersRegular, Bool.and_eq_true, ih, List.forall_mem_cons]

/-- Values that go with some items one by one are regular when each of them is. -/
theorem areRegular_of_forall₂ {α : Type} {xs : List α} {items : List Json}
    (h : List.Forall₂ (fun _ v => isRegular v = true) xs items) : areRegular items = true := by
  induction h with
  | nil => rfl
  | cons hv _ ih => exact Bool.and_eq_true_iff.mpr ⟨hv, ih⟩

/-! ### Repeated names -/

private theorem foldl_put {done members : List (Text × Json)}
    (h : ((done ++ members).map Prod.fst).Nodup) :
    members.foldl lastOfEach.put done = done ++ members := by
  induction members generalizing done with
  | nil => rw [List.foldl_nil, List.append_nil]
  | cons m members ih =>
    have hnew : done.any (·.1 == m.1) = false := by
      rw [List.any_eq_false]
      intro d hd heq
      rw [List.map_append, List.nodup_append] at h
      exact h.2.2 d.1 (List.mem_map_of_mem hd) m.1 (by simp) (by simpa using heq)
    have hput : lastOfEach.put done m = done ++ [m] := by
      rw [lastOfEach.put, hnew, if_neg Bool.false_ne_true]
    have hsplit : done ++ m :: members = (done ++ [m]) ++ members := by simp
    rw [hsplit] at h
    rw [List.foldl_cons, hput, ih h, hsplit]

/-- Members of different names stay as they are. -/
theorem lastOfEach_eq_self {members : List (Text × Json)} (h : (members.map Prod.fst).Nodup) :
    lastOfEach members = members := by
  rw [lastOfEach]
  exact foldl_put h

/-! ### Regular values -/

private theorem natBound_lt_doubleBound : natBound < Decimal.doubleBound := by decide +kernel

private theorem isFinite_nat {n : Nat} (h : n < natBound) : isFinite (.nat n) = true := by
  rw [isFinite, decide_eq_true_eq]
  exact h.trans natBound_lt_doubleBound

mutual
/-- A regular value is written without decimal literals, has no number out of range and no member to
drop. -/
theorem regular : ∀ v : Json, isRegular v = true →
    isPlain v = true ∧ isFinite v = true ∧ collapse v = v
  | .null, _ => ⟨rfl, rfl, rfl⟩
  | .bool _, _ => ⟨rfl, rfl, rfl⟩
  | .string _, _ => ⟨rfl, rfl, rfl⟩
  | .decimal _, h => by cases h
  | .nat n, h => ⟨rfl, isFinite_nat (of_decide_eq_true h), rfl⟩
  | .array items, h => by
    obtain ⟨hplain, hfinite, hcollapse⟩ := regular_items items h
    exact ⟨hplain, hfinite, congrArg Json.array hcollapse⟩
  | .object members, h => by
    obtain ⟨hnames, hmembers⟩ := Bool.and_eq_true_iff.mp h
    obtain ⟨hplain, hfinite, hcollapse⟩ := regular_members members hmembers
    refine ⟨hplain, hfinite, ?_⟩
    rw [collapse, hcollapse, lastOfEach_eq_self (of_decide_eq_true hnames)]

private theorem regular_items : ∀ items : List Json, areRegular items = true →
    arePlain items = true ∧ areFinite items = true ∧ collapseItems items = items
  | [], _ => ⟨rfl, rfl, rfl⟩
  | v :: vs, h => by
    obtain ⟨hv, hvs⟩ := Bool.and_eq_true_iff.mp h
    obtain ⟨hplain, hfinite, hcollapse⟩ := regular v hv
    obtain ⟨hplains, hfinites, hcollapses⟩ := regular_items vs hvs
    refine ⟨Bool.and_eq_true_iff.mpr ⟨hplain, hplains⟩,
      Bool.and_eq_true_iff.mpr ⟨hfinite, hfinites⟩, ?_⟩
    rw [collapseItems, hcollapse, hcollapses]

private theorem regular_members : ∀ members : List (Text × Json), membersRegular members = true →
    membersPlain members = true ∧ membersFinite members = true
      ∧ collapseMembers members = members
  | [], _ => ⟨rfl, rfl, rfl⟩
  | (name, v) :: ms, h => by
    obtain ⟨hv, hms⟩ := Bool.and_eq_true_iff.mp h
    obtain ⟨hplain, hfinite, hcollapse⟩ := regular v hv
    obtain ⟨hplains, hfinites, hcollapses⟩ := regular_members ms hms
    refine ⟨Bool.and_eq_true_iff.mpr ⟨hplain, hplains⟩,
      Bool.and_eq_true_iff.mpr ⟨hfinite, hfinites⟩, ?_⟩
    rw [collapseMembers, hcollapse, hcollapses]
end

/-- An object is regular when its members have different names and regular values. -/
theorem isRegular_object {members : List (Text × Json)} :
    isRegular (.object members) = true
      ↔ (members.map Prod.fst).Nodup ∧ ∀ m ∈ members, isRegular m.2 = true := by
  rw [isRegular, Bool.and_eq_true, decide_eq_true_eq, membersRegular_eq_true]

private theorem isRegular_array {items : List Json} :
    isRegular (.array items) = true ↔ ∀ v ∈ items, isRegular v = true := by
  rw [isRegular, areRegular_eq_true]

/-! ### Parts of records -/

/-- A text that may be missing has a regular form. -/
theorem isRegular_ofText? (t? : Option Text) : isRegular (ofText? t?) = true := by
  cases t? <;> rfl

/-- Texts have a regular form. -/
theorem isRegular_ofTexts (ts : List Text) : isRegular (ofTexts ts) = true :=
  isRegular_array.mpr (List.forall_mem_map.mpr fun _ _ => rfl)

/-- A number that may be missing has a regular form when it is in range. -/
theorem isRegular_ofNat? {n? : Option Nat} (h : ∀ n ∈ n?, n < natBound) :
    isRegular (ofNat? n?) = true := by
  cases n? with
  | none => rfl
  | some n => exact decide_eq_true (h n rfl)

/-- A list is read when each item is read as the element in its place. -/
theorem asList?_of_forall₂ {α : Type} {item? : Json → Option α} {xs : List α} {items : List Json}
    (h : List.Forall₂ (fun x v => item? v = some x) xs items) :
    asList? item? (.array items) = some xs := by
  rw [asList?]
  induction h with
  | nil => rfl
  | cons hx _ ih =>
    rw [List.mapM_cons, hx, ih]
    rfl

/-- A list is read back from the forms of its items when each item is. -/
theorem asList?_map {α : Type} {item? : Json → Option α} {toJson : α → Json} {xs : List α}
    (h : ∀ x ∈ xs, item? (toJson x) = some x) : asList? item? (.array (xs.map toJson)) = some xs :=
  asList?_of_forall₂ (List.forall₂_map_right_iff.mpr (List.forall₂_same.mpr h))

/-- Texts are read back from their form. -/
theorem asList?_ofTexts (ts : List Text) : asList? asText? (ofTexts ts) = some ts :=
  asList?_map fun _ _ => rfl

/-- A member that is not null is read as its value. -/
theorem orNull?_of_ne_null {α : Type} {value? : Json → Option α} {v : Json} {a : α} (hv : v ≠ .null)
    (h : value? v = some a) : orNull? value? (some v) = some (some a) := by
  have hread : orNull? value? (some v) = (value? v).map some := by
    cases v with
    | null => exact absurd rfl hv
    | _ => rfl
  rw [hread, h, Option.map_some]

/-- A text that may be missing is read back from its form. -/
theorem orNull?_ofText? (t? : Option Text) : orNull? asText? (some (ofText? t?)) = some t? := by
  cases t? <;> rfl

/-- A number that may be missing is read back from its form when it is in range. -/
theorem orNull?_ofNat? {n? : Option Nat} (h : ∀ n ∈ n?, n < natBound) :
    orNull? asNat? (some (ofNat? n?)) = some n? := by
  cases n? with
  | none => rfl
  | some n =>
    exact orNull?_of_ne_null (by simp [ofNat?]) (if_pos (h n rfl))

end DocContract.Json
