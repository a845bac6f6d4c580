import DocContract.Proofs.Schema.Forest

/-!
# The paths of a signature in preorder

A field of a signature has an address: its number among its siblings, behind the numbers of the
fields around it. The paths of a signature are those of all its fields in the order of their
addresses, where a field comes before the fields of its type and these before its next sibling. So
the path around a path is the one at the address without the last number.
-/

namespace DocContract

open Text

/-! ### Addresses -/

/-- The fields of the type of a field. -/
def Field.inner (f : Field) : List Field := (f.type?.map TypeRef.fields).getD []

/-- The field at an address. -/
def fieldAt? : List Field → List Nat → Option Field
  | _, [] => none
  | fs, [i] => fs[i]?
  | fs, i :: j :: a => fs[i]?.bind fun f => fieldAt? f.inner (j :: a)

private theorem fieldAt?_nil (a : List Nat) : fieldAt? [] a = none := by
  match a with
  | [] => rfl
  | [i] => rfl
  | i :: j :: a => rfl

private theorem fieldAt?_zero {f g : Field} {fs : List Field} {a : List Nat} :
    fieldAt? (f :: fs) (0 :: a) = some g ↔ a = [] ∧ g = f ∨ fieldAt? f.inner a = some g := by
  cases a with
  | nil => simp [fieldAt?, eq_comm]
  | cons j a => simp [fieldAt?]

private theorem fieldAt?_succ {f : Field} {fs : List Field} {i : Nat} {a : List Nat} :
    fieldAt? (f :: fs) ((i + 1) :: a) = fieldAt? fs (i :: a) := by
  cases a <;> simp [fieldAt?]

/-- An address comes before all that continue it. -/
theorem lt_append_cons (a : List Nat) (i : Nat) (b : List Nat) : a < a ++ i :: b := by
  have h : a ++ [] < a ++ i :: b := List.append_left_lt (List.nil_lt_cons i b)
  rwa [List.append_nil] at h

/-- Where there is a field, there is one at each address on the way to it. -/
theorem exists_fieldAt?_dropLast {fs : List Field} {a : List Nat} {f : Field}
    (h : fieldAt? fs a = some f) (ha : a.dropLast ≠ []) :
    ∃ g, fieldAt? fs a.dropLast = some g := by
  induction a generalizing fs with
  | nil => cases h
  | cons i a ih =>
    cases a with
    | nil => exact absurd rfl ha
    | cons j a =>
      obtain ⟨g, hg, hf⟩ := Option.bind_eq_some_iff.mp h
      rw [List.dropLast_cons_cons]
      cases hd : (j :: a).dropLast with
      | nil => exact ⟨g, hg⟩
      | cons k b =>
        obtain ⟨g', hg'⟩ := ih hf (by simp [hd])
        exact ⟨g', Option.bind_eq_some_iff.mpr ⟨g, hg, hd ▸ hg'⟩⟩

/-- A field has fields below it exactly when there is a first one. -/
theorem fieldAt?_concat {fs : List Field} {a : List Nat} {f : Field} (h : fieldAt? fs a = some f)
    (i : Nat) : fieldAt? fs (a ++ [i]) = f.inner[i]? := by
  induction a generalizing fs with
  | nil => cases h
  | cons k a ih =>
    cases a with
    | nil =>
      have hk : fs[k]? = some f := h
      simp [fieldAt?, hk]
    | cons j a =>
      obtain ⟨g, hg, hf⟩ := Option.bind_eq_some_iff.mp h
      have := ih hf
      simpa [fieldAt?, hg] using this

/-! ### Nodes -/

mutual
/-- A field with its address and the fields of its type with theirs. -/
def nodesOfField (address : List Nat) : Field → List (List Nat × Field)
  | ⟨name, type, optional⟩ => (address, ⟨name, type, optional⟩) :: nodesOfType address type

/-- The fields of the type of the field at an address. -/
def nodesOfType (address : List Nat) : Option TypeRef → List (List Nat × Field)
  | none => []
  | some ⟨_, fields, _⟩ => nodesOfFields address 0 fields

/-- Siblings, numbered from `number` on, with the fields below them. -/
def nodesOfFields (above : List Nat) (number : Nat) : List Field → List (List Nat × Field)
  | [] => []
  | f :: fs => nodesOfField (above ++ [number]) f ++ nodesOfFields above (number + 1) fs
end

/-- The nodes are the fields of the forest with their addresses, in the order of these. -/
structure IsPreorder (fs : List Field) (nodes : List (List Nat × Field)) : Prop where
  ascending : nodes.Pairwise fun m n => m.1 < n.1
  mem_iff : ∀ a f, (a, f) ∈ nodes ↔ fieldAt? fs a = some f

mutual
private theorem mem_nodesOfField {address a : List Nat} {g : Field} : ∀ f : Field,
    (a, g) ∈ nodesOfField address f
      ↔ a = address ∧ g = f ∨ ∃ b, a = address ++ b ∧ fieldAt? f.inner b = some g
  | ⟨name, type, optional⟩ => by
    rw [nodesOfField, List.mem_cons, Prod.mk.injEq, mem_nodesOfType type]
    rfl

private theorem mem_nodesOfType {address a : List Nat} {g : Field} : ∀ t : Option TypeRef,
    (a, g) ∈ nodesOfType address t
      ↔ ∃ b, a = address ++ b ∧ fieldAt? ((t.map TypeRef.fields).getD []) b = some g
  | none => by simp [nodesOfType, fieldAt?_nil]
  | some ⟨text, fields, elsewhere⟩ => by
    rw [nodesOfType, mem_nodesOfFields fields]
    simp only [Nat.zero_add, Option.map_some, Option.getD_some]
    constructor
    · rintro ⟨i, b, rfl, h⟩
      exact ⟨i :: b, rfl, h⟩
    · rintro ⟨_ | ⟨i, b⟩, rfl, h⟩
      · cases h
      · exact ⟨i, b, rfl, h⟩

private theorem mem_nodesOfFields {above a : List Nat} {number : Nat} {g : Field} :
    ∀ fs : List Field,
    (a, g) ∈ nodesOfFields above number fs
      ↔ ∃ i b, a = above ++ (number + i) :: b ∧ fieldAt? fs (i :: b) = some g
  | [] => by simp [nodesOfFields, fieldAt?_nil]
  | f :: fs => by
    rw [nodesOfFields, List.mem_append, mem_nodesOfField f, mem_nodesOfFields fs]
    constructor
    · rintro ((⟨rfl, rfl⟩ | ⟨b, rfl, h⟩) | ⟨i, b, rfl, h⟩)
      · exact ⟨0, [], rfl, fieldAt?_zero.mpr (.inl ⟨rfl, rfl⟩)⟩
      · exact ⟨0, b, by simp, fieldAt?_zero.mpr (.inr h)⟩
      · exact ⟨i + 1, b, by rw [Nat.add_assoc, Nat.add_comm 1 i], by rw [fieldAt?_succ, h]⟩
    · rintro ⟨_ | i, b, rfl, h⟩
      · rcases fieldAt?_zero.mp h with ⟨rfl, rfl⟩ | h
        · exact .inl (.inl ⟨rfl, rfl⟩)
        · exact .inl (.inr ⟨b, by simp, h⟩)
      · rw [fieldAt?_succ] at h
        exact .inr ⟨i, b, by rw [Nat.add_assoc, Nat.add_comm 1 i], h⟩
end

mutual
private theorem ascending_nodesOfField (address : List Nat) : ∀ f : Field,
    (nodesOfField address f).Pairwise fun m n => m.1 < n.1
  | ⟨name, type, optional⟩ => by
    rw [nodesOfField, List.pairwise_cons]
    refine ⟨fun ⟨a, g⟩ hm => ?_, ascending_nodesOfType address type⟩
    obtain ⟨_ | ⟨i, b⟩, rfl, h⟩ := (mem_nodesOfType _).mp hm
    · cases h
    · exact lt_append_cons address i b

private theorem ascending_nodesOfType (address : List Nat) : ∀ t : Option TypeRef,
    (nodesOfType address t).Pairwise fun m n => m.1 < n.1
  | none => .nil
  | some ⟨_, fields, _⟩ => ascending_nodesOfFields address 0 fields

private theorem ascending_nodesOfFields (above : List Nat) (number : Nat) : ∀ fs : List Field,
    (nodesOfFields above number fs).Pairwise fun m n => m.1 < n.1
  | [] => .nil
  | f :: fs => by
    rw [nodesOfFields, List.pairwise_append]
    refine ⟨ascending_nodesOfField _ f, ascending_nodesOfFields above (number + 1) fs, ?_⟩
    rintro ⟨a, g⟩ hm ⟨a', g'⟩ hm'
    obtain ⟨i, b', rfl, -⟩ := (mem_nodesOfFields fs).mp hm'
    -- The number among the siblings decides, whatever stands behind it.
    have hlt : ∀ b, above ++ number :: b < above ++ (number + 1 + i) :: b' := fun b =>
      List.append_left_lt (List.cons_lt_cons_iff.mpr (.inl (by omega)))
    rcases (mem_nodesOfField f).mp hm with ⟨rfl, -⟩ | ⟨b, rfl, -⟩
    · exact hlt []
    · rw [List.append_assoc]
      exact hlt b
end

/-- The nodes of a forest. -/
def nodesOf (fs : List Field) : List (List Nat × Field) := nodesOfFields [] 0 fs

/-- The nodes of a forest are its preorder. -/
theorem isPreorder_nodesOf (fs : List Field) : IsPreorder fs (nodesOf fs) where
  ascending := ascending_nodesOfFields [] 0 fs
  mem_iff a f := by
    rw [nodesOf, mem_nodesOfFields]
    simp only [List.nil_append, Nat.zero_add]
    constructor
    · rintro ⟨i, b, rfl, h⟩
      exact h
    · intro h
      cases a with
      | nil => cases h
      | cons i b => exact ⟨i, b, rfl, h⟩

example : (nodesOf [⟨"id", none, false⟩, ⟨"options", some ⟨"Options", [⟨"timeout", none, true⟩,
      ⟨"retry", some ⟨"Retry", [⟨"limit", none, false⟩], false⟩, false⟩], false⟩, false⟩]).map
      (fun node => (node.1, node.2.name))
    = [([0], "id".toList), ([1], "options".toList), ([1, 0], "timeout".toList),
      ([1, 1], "retry".toList), ([1, 1, 0], "limit".toList)] := by
  rfl

/-! ### Places of nodes -/

/-- The place of the node at an address. -/
def placeOf (nodes : List (List Nat × Field)) (a : List Nat) : Option Nat :=
  nodes.findIdx? fun node => node.1 == a

section Places

variable {fs : List Field} {nodes : List (List Nat × Field)} (hn : IsPreorder fs nodes)
include hn

private theorem IsPreorder.lt_of_lt {i j : Nat} {m n : List Nat × Field} (hi : nodes[i]? = some m)
    (hj : nodes[j]? = some n) (h : i < j) : m.1 < n.1 := by
  obtain ⟨hilen, rfl⟩ := List.getElem?_eq_some_iff.mp hi
  obtain ⟨hjlen, rfl⟩ := List.getElem?_eq_some_iff.mp hj
  exact List.pairwise_iff_getElem.mp hn.ascending i j hilen hjlen h

/-- Places are in the order of addresses. -/
theorem IsPreorder.lt_of_address_lt {i j : Nat} {a b : List Nat} {f g : Field}
    (hi : nodes[i]? = some (a, f)) (hj : nodes[j]? = some (b, g)) (h : a < b) : i < j := by
  rcases Nat.lt_trichotomy i j with hlt | rfl | hgt
  · exact hlt
  · rw [hi] at hj
    cases hj
    exact absurd h (List.lt_irrefl a)
  · exact absurd (List.lt_trans h (hn.lt_of_lt hj hi hgt)) (List.lt_irrefl a)

/-- The place of an address is where its node stands. -/
theorem IsPreorder.placeOf_eq_some_iff {a : List Nat} {i : Nat} :
    placeOf nodes a = some i ↔ ∃ f, nodes[i]? = some (a, f) := by
  rw [placeOf, List.findIdx?_eq_some_iff_getElem]
  simp only [beq_iff_eq]
  constructor
  · rintro ⟨hi, rfl, -⟩
    exact ⟨nodes[i].2, List.getElem?_eq_getElem hi⟩
  · rintro ⟨f, hf⟩
    obtain ⟨hi, heq⟩ := List.getElem?_eq_some_iff.mp hf
    refine ⟨hi, by rw [heq], fun j hj ha => ?_⟩
    have hlt := hn.lt_of_lt (List.getElem?_eq_getElem (Nat.lt_trans hj hi)) hf hj
    rw [ha] at hlt
    exact List.lt_irrefl a hlt

/-- The place of a node is where its address stands. -/
theorem IsPreorder.placeOf_node {i : Nat} {node : List Nat × Field}
    (h : nodes[i]? = some node) : placeOf nodes node.1 = some i :=
  hn.placeOf_eq_some_iff.mpr ⟨node.2, h⟩

/-- A node has the field of its address. -/
theorem IsPreorder.fieldAt?_node {i : Nat} {a : List Nat} {f : Field}
    (h : nodes[i]? = some (a, f)) : fieldAt? fs a = some f :=
  (hn.mem_iff a f).mp (List.mem_of_getElem? h)

/-- No node has the empty address. -/
theorem IsPreorder.ne_nil {i : Nat} {a : List Nat} {f : Field} (h : nodes[i]? = some (a, f)) :
    a ≠ [] := by
  rintro rfl
  cases hn.fieldAt?_node h

/-- Every field of the forest is a node. -/
theorem IsPreorder.exists_node {a : List Nat} {f : Field} (h : fieldAt? fs a = some f) :
    ∃ i : Nat, nodes[i]? = some (a, f) :=
  List.getElem?_of_mem ((hn.mem_iff a f).mpr h)

/-- The empty address has no place. -/
theorem IsPreorder.placeOf_nil : placeOf nodes [] = none := by
  refine Option.eq_none_iff_forall_ne_some.mpr fun i hi => ?_
  obtain ⟨f, hf⟩ := hn.placeOf_eq_some_iff.mp hi
  cases hn.fieldAt?_node hf

end Places

/-! ### Paths of nodes -/

/-- The key of the field at an address, with the key that stands in front of all. -/
def keyAt : Text → List Field → List Nat → Text
  | above, _, [] => above
  | above, fs, i :: a =>
    match fs[i]? with
    | none => above
    | some f => keyAt (joinKey above f.segment) f.inner a

/-- The key at an address is the key above it, with the segment of its field. -/
theorem keyAt_eq {above : Text} {fs : List Field} {a : List Nat} {f : Field}
    (h : fieldAt? fs a = some f) :
    keyAt above fs a = joinKey (keyAt above fs a.dropLast) f.segment := by
  induction a generalizing above fs with
  | nil => cases h
  | cons i a ih =>
    cases a with
    | nil =>
      have hi : fs[i]? = some f := h
      simp [keyAt, hi]
    | cons j a =>
      obtain ⟨g, hg, hf⟩ := Option.bind_eq_some_iff.mp h
      rw [List.dropLast_cons_cons, keyAt, keyAt, hg]
      exact ih hf

/-- The path of a node, given the places and the keys of addresses. -/
def pathOfNode (place : List Nat → Option Nat) (key : List Nat → Text) (node : List Nat × Field) :
    SignaturePath :=
  .ofName (place node.1.dropLast) (key node.1) node.2.type? node.2.optional

/-- The nodes have the places from `start` on. -/
def PlacedBy (place : List Nat → Option Nat) (start : Nat) (nodes : List (List Nat × Field)) :
    Prop :=
  ∀ (j : Nat) (node : List Nat × Field), nodes[j]? = some node → place node.1 = some (start + j)

/-- The nodes have the keys that their names make below the keys around them. -/
def KeyedBy (key : List Nat → Text) (nodes : List (List Nat × Field)) : Prop :=
  ∀ node ∈ nodes, key node.1 = joinKey (key node.1.dropLast) node.2.segment

section Paths

variable {place : List Nat → Option Nat} {key : List Nat → Text}

private theorem PlacedBy.cons {start : Nat} {node : List Nat × Field}
    {nodes : List (List Nat × Field)}
    (h : PlacedBy place start (node :: nodes)) :
    place node.1 = some start ∧ PlacedBy place (start + 1) nodes := by
  refine ⟨h 0 node rfl, fun j n hj => ?_⟩
  rw [Nat.add_assoc, Nat.add_comm 1 j]
  exact h (j + 1) n hj

private theorem PlacedBy.append {start : Nat} {nodes nodes' : List (List Nat × Field)}
    (h : PlacedBy place start (nodes ++ nodes')) :
    PlacedBy place start nodes ∧ PlacedBy place (start + nodes.length) nodes' := by
  constructor
  · intro j node hj
    apply h j node
    rw [List.getElem?_append_left (List.getElem?_eq_some_iff.mp hj).1, hj]
  · intro j node hj
    rw [Nat.add_assoc]
    apply h _ node
    rw [List.getElem?_append_right (Nat.le_add_right _ _), Nat.add_sub_cancel_left, hj]

mutual
/-- The paths of a field are those of its nodes. -/
theorem pathsOfField_eq (start : Nat) (address : List Nat) : ∀ f : Field,
    PlacedBy place start (nodesOfField address f) → KeyedBy key (nodesOfField address f) →
    pathsOfField start (place address.dropLast) (key address.dropLast) f
      = (nodesOfField address f).map (pathOfNode place key)
  | ⟨name, type, optional⟩, hplace, hkey => by
    obtain ⟨hhead, hplace⟩ := hplace.cons
    obtain ⟨hown, hkey⟩ := List.forall_mem_cons.mp hkey
    rw [pathsOfField, nodesOfField, List.map_cons, ← pathsOfType_eq (start + 1) start address type
      hhead hplace hkey, pathOfNode]
    dsimp only at hown
    rw [hown]
    rfl

private theorem pathsOfType_eq (start parent : Nat) (address : List Nat) : ∀ t : Option TypeRef,
    place address = some parent → PlacedBy place start (nodesOfType address t) →
    KeyedBy key (nodesOfType address t) →
    pathsOfType start parent (key address) t
      = (nodesOfType address t).map (pathOfNode place key)
  | none, _, _, _ => rfl
  | some ⟨_, fields, _⟩, hparent, hplace, hkey => by
    rw [pathsOfType, nodesOfType, ← hparent]
    exact pathsOfFields_eq start address 0 fields hplace hkey

private theorem pathsOfFields_eq (start : Nat) (above : List Nat) (number : Nat) :
    ∀ fs : List Field,
    PlacedBy place start (nodesOfFields above number fs) →
    KeyedBy key (nodesOfFields above number fs) →
    pathsOfFields start (place above) (key above) fs
      = (nodesOfFields above number fs).map (pathOfNode place key)
  | [], _, _ => rfl
  | f :: fs, hplace, hkey => by
    obtain ⟨hown, hrest⟩ := hplace.append
    obtain ⟨hkown, hkrest⟩ := List.forall_mem_append.mp hkey
    have hfield := pathsOfField_eq start (above ++ [number]) f hown hkown
    rw [List.dropLast_concat] at hfield
    have hfields := pathsOfFields_eq _ above (number + 1) fs hrest hkrest
    rw [pathsOfFields, nodesOfFields, List.map_append, hfield, List.length_map, hfields]
end

end Paths

/-- The paths of fields are those of the nodes, each below the path at the address without the last
number. -/
theorem fieldPaths_eq (fs : List Field) : fieldPaths fs
    = (nodesOf fs).map (pathOfNode (placeOf (nodesOf fs)) (keyAt [] fs)) := by
  have hn := isPreorder_nodesOf fs
  have hplace : PlacedBy (placeOf (nodesOf fs)) 0 (nodesOf fs) := fun j node hj => by
    rw [hn.placeOf_node hj, Nat.zero_add]
  have hkey : KeyedBy (keyAt [] fs) (nodesOf fs) := fun node hnode =>
    keyAt_eq ((hn.mem_iff node.1 node.2).mp hnode)
  have hpaths := pathsOfFields_eq 0 [] 0 fs hplace hkey
  rwa [hn.placeOf_nil] at hpaths

end DocContract
