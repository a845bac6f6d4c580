import DocContract.Proofs.Schema.Preorder

/-!
# The walk to the root

The paths of a signature are a forest in preorder: a path knows the place of the path around it,
which is in front of it, and its key continues the key there. So the walk from a path to the paths
around it goes to smaller and smaller places, finds a path at each of them and comes to an end, and
it meets exactly the paths around. It decides whether a path should have been documented.
-/

namespace DocContract

open Text

/-! ### What a path says -/

/-- The path at place `i` is the one of the field `f` at address `a`: it has the content of the
field, the place of the path around it, which is in front, the key that continues the one there,
and the mark that paths below it follow. -/
structure IsEntry (nodes : List (List Nat × Field)) (signature : List SignaturePath) (i : Nat)
    (a : List Nat) (f : Field) (p : SignaturePath) : Prop where
  content : p = .ofName p.parent? p.key f.type? f.optional
  root : p.parent? = none ↔ a.length = 1
  parent : ∀ up, p.parent? = some up ↔ ∃ g, nodes[up]? = some (a.dropLast, g)
  parent_lt : ∀ up, p.parent? = some up → up < i
  rootKey : p.parent? = none → p.key = f.segment
  key : ∀ up u, p.parent? = some up → signature[up]? = some u →
    p.key = if u.key = [] then f.segment else u.key ++ '.' :: f.segment
  structured : p.structured = true ↔ ∃ j q, i < j ∧ signature[j]? = some q ∧ q.parent? = some i

/-- The type of the field exposes fields when there are fields below it. -/
theorem any_fields_iff (f : Field) :
    (f.type?.any fun t => !t.fields.isEmpty) = true ↔ f.inner ≠ [] := by
  rw [Field.inner]
  cases f.type? <;> simp

private theorem dropLast_lt {a : List Nat} (h : a ≠ []) : a.dropLast < a := by
  have hlt := lt_append_cons a.dropLast (a.getLast h) []
  rwa [List.dropLast_concat_getLast h] at hlt

private theorem dropLast_ne_nil {a : List Nat} (h : a ≠ []) (hlen : a.length ≠ 1) :
    a.dropLast ≠ [] := by
  have hpos := List.length_pos_iff.mpr h
  rw [← List.length_pos_iff, List.length_dropLast]
  omega

private theorem not_prefix_dropLast {a : List Nat} (h : a ≠ []) : ¬ a <+: a.dropLast := by
  intro hp
  have hlen := hp.length_le
  have hpos := List.length_pos_iff.mpr h
  rw [List.length_dropLast] at hlen
  omega

/-- An address in front of the end is one of the address without the last number. -/
theorem prefix_dropLast {a b : List Nat} (h : b <+: a) (hne : b ≠ a) : b <+: a.dropLast := by
  obtain ⟨c, rfl⟩ := h
  have hc : c ≠ [] := by
    rintro rfl
    exact hne (List.append_nil b).symm
  rw [List.dropLast_append_of_ne_nil hc]
  exact List.prefix_append b c.dropLast

section Entries

variable {fs : List Field} {nodes : List (List Nat × Field)} {signature : List SignaturePath}
  (hn : IsPreorder fs nodes)
  (hs : signature = nodes.map (pathOfNode (placeOf nodes) (keyAt [] fs)))
include hn hs

omit hn in
private theorem eq_pathOfNode {i : Nat} {node : List Nat × Field} {p : SignaturePath}
    (hi : nodes[i]? = some node) (hp : signature[i]? = some p) :
    p = pathOfNode (placeOf nodes) (keyAt [] fs) node := by
  rw [hs, List.getElem?_map, hi] at hp
  exact (Option.some.inj hp).symm

omit hn in
private theorem exists_path {i : Nat} {node : List Nat × Field} (hi : nodes[i]? = some node) :
    signature[i]? = some (pathOfNode (placeOf nodes) (keyAt [] fs) node) := by
  rw [hs, List.getElem?_map, hi, Option.map_some]

omit hn in
private theorem exists_node_of_path {i : Nat} {p : SignaturePath} (hp : signature[i]? = some p) :
    ∃ node, nodes[i]? = some node := by
  rw [hs, List.getElem?_map] at hp
  obtain ⟨node, hi, -⟩ := Option.map_eq_some_iff.mp hp
  exact ⟨node, hi⟩

private theorem parent_iff {i up : Nat} {a : List Nat} {f : Field} {p : SignaturePath}
    (hi : nodes[i]? = some (a, f)) (hp : signature[i]? = some p) :
    p.parent? = some up ↔ ∃ g, nodes[up]? = some (a.dropLast, g) := by
  rw [eq_pathOfNode hs hi hp]
  exact hn.placeOf_eq_some_iff

private theorem parent_lt {i up : Nat} {a : List Nat} {f : Field} {p : SignaturePath}
    (hi : nodes[i]? = some (a, f)) (hp : signature[i]? = some p) (hup : p.parent? = some up) :
    up < i := by
  obtain ⟨g, hg⟩ := (parent_iff hn hs hi hp).mp hup
  exact hn.lt_of_address_lt hg hi (dropLast_lt (hn.ne_nil hi))

private theorem parentsFirst : ParentsFirst signature := by
  intro i p hp up hup
  obtain ⟨⟨a, f⟩, hi⟩ := exists_node_of_path hs hp
  exact parent_lt hn hs hi hp hup

private theorem parent?_eq_none_iff {i : Nat} {a : List Nat} {f : Field} {p : SignaturePath}
    (hi : nodes[i]? = some (a, f)) (hp : signature[i]? = some p) :
    p.parent? = none ↔ a.length = 1 := by
  constructor
  · intro hnone
    by_contra hlen
    have hne := dropLast_ne_nil (hn.ne_nil hi) hlen
    obtain ⟨g, hg⟩ := exists_fieldAt?_dropLast (hn.fieldAt?_node hi) hne
    obtain ⟨up, hup⟩ := hn.exists_node hg
    rw [(parent_iff hn hs hi hp).mpr ⟨g, hup⟩] at hnone
    cases hnone
  · intro hlen
    have hnil : a.dropLast = [] := by
      rw [← List.length_eq_zero_iff, List.length_dropLast, hlen]
    rw [eq_pathOfNode hs hi hp]
    change placeOf nodes a.dropLast = none
    rw [hnil, hn.placeOf_nil]

/-- The key continues what stands at the address without the last number. -/
theorem key_eq {i : Nat} {a : List Nat} {f : Field} {p : SignaturePath}
    (hi : nodes[i]? = some (a, f)) (hp : signature[i]? = some p) :
    p.key = joinKey (keyAt [] fs a.dropLast) f.segment := by
  rw [eq_pathOfNode hs hi hp]
  exact keyAt_eq (hn.fieldAt?_node hi)

private theorem structured_iff {i : Nat} {a : List Nat} {f : Field} {p : SignaturePath}
    (hi : nodes[i]? = some (a, f)) (hp : signature[i]? = some p) :
    p.structured = true ↔ ∃ j q, i < j ∧ signature[j]? = some q ∧ q.parent? = some i := by
  have hfield := hn.fieldAt?_node hi
  have hinner : p.structured = true ↔ f.inner ≠ [] := by
    rw [eq_pathOfNode hs hi hp]
    exact any_fields_iff f
  rw [hinner]
  constructor
  · intro hne
    -- The first field of the type comes directly below.
    obtain ⟨g, gs, hg⟩ := List.exists_cons_of_ne_nil hne
    have hchild : fieldAt? fs (a ++ [0]) = some g := by
      rw [fieldAt?_concat hfield, hg, List.getElem?_cons_zero]
    obtain ⟨j, hj⟩ := hn.exists_node hchild
    have hq := exists_path hs hj
    have hparent := (parent_iff hn hs hj hq).mpr ⟨f, by rw [List.dropLast_concat]; exact hi⟩
    exact ⟨j, _, parent_lt hn hs hj hq hparent, hq, hparent⟩
  · rintro ⟨j, q, -, hq, hparent⟩ hnil
    obtain ⟨⟨b, g⟩, hj⟩ := exists_node_of_path hs hq
    obtain ⟨g', hg'⟩ := (parent_iff hn hs hj hq).mp hparent
    rw [hi] at hg'
    obtain ⟨rfl, rfl⟩ := Prod.mk.inj (Option.some.inj hg')
    have hb := hn.ne_nil hj
    have hchild := hn.fieldAt?_node hj
    rw [← List.dropLast_concat_getLast hb, fieldAt?_concat hfield, hnil] at hchild
    cases hchild

private theorem isEntry {i : Nat} {a : List Nat} {f : Field} {p : SignaturePath}
    (hi : nodes[i]? = some (a, f)) (hp : signature[i]? = some p) :
    IsEntry nodes signature i a f p where
  content := by
    rw [eq_pathOfNode hs hi hp]
    rfl
  root := parent?_eq_none_iff hn hs hi hp
  parent _ := parent_iff hn hs hi hp
  parent_lt _ := parent_lt hn hs hi hp
  rootKey hroot := by
    have hnil : a.dropLast = [] := by
      rw [← List.length_eq_zero_iff, List.length_dropLast,
        (parent?_eq_none_iff hn hs hi hp).mp hroot]
    rw [key_eq hn hs hi hp, hnil]
    rfl
  key up u hup hu := by
    obtain ⟨g, hg⟩ := (parent_iff hn hs hi hp).mp hup
    have hkey : u.key = keyAt [] fs a.dropLast := by rw [eq_pathOfNode hs hg hu]; rfl
    rw [key_eq hn hs hi hp, hkey, joinKey]
    simp only [List.isEmpty_iff]
  structured := structured_iff hn hs hi hp

end Entries

/-! ### The walk -/

/-- The walk from a place up: the places that it looks at in turn, and whether it meets a path that
is documented elsewhere. It ends there or at a root, and there has to be a path at each place. -/
inductive WalksUp (signature : List SignaturePath) : Nat → List Nat → Bool → Prop
  | found {i : Nat} {p : SignaturePath} (hp : signature[i]? = some p)
      (helse : p.documentedElsewhere = true) : WalksUp signature i [i] true
  | root {i : Nat} {p : SignaturePath} (hp : signature[i]? = some p)
      (helse : p.documentedElsewhere = false) (hroot : p.parent? = none) :
      WalksUp signature i [i] false
  | up {i up : Nat} {p : SignaturePath} {visited : List Nat} {found : Bool}
      (hp : signature[i]? = some p) (helse : p.documentedElsewhere = false)
      (hparent : p.parent? = some up) (hrest : WalksUp signature up visited found) :
      WalksUp signature i (i :: visited) found

/-- Each walk comes to an end, by way of smaller and smaller places. -/
theorem exists_walksUp {signature : List SignaturePath} (hf : ParentsFirst signature) {i : Nat}
    (hi : i < signature.length) : ∃ visited, WalksUp signature i visited (isElsewhere signature i)
      ∧ (∀ j ∈ visited, j ≤ i) ∧ visited.Pairwise (· > ·) := by
  induction i using Nat.strongRecOn with
  | ind i ih =>
    have hp := List.getElem?_eq_getElem hi
    generalize signature[i] = p at hp
    rw [isElsewhere]
    simp only [hp]
    cases helse : p.documentedElsewhere with
    | true => exact ⟨[i], .found hp helse, by simp, by simp⟩
    | false =>
      cases hparent : p.parent? with
      | none => exact ⟨[i], .root hp helse hparent, by simp, by simp⟩
      | some up =>
        have hlt : up < i := hf i p hp up hparent
        obtain ⟨visited, hwalk, hle, hdown⟩ := ih up hlt (Nat.lt_trans hlt hi)
        refine ⟨i :: visited, ?_, ?_, ?_⟩
        · simpa [hlt] using WalksUp.up hp helse hparent hwalk
        · exact List.forall_mem_cons.mpr ⟨Nat.le_refl i, fun j hj => by have := hle j hj; omega⟩
        · exact List.pairwise_cons.mpr ⟨fun j hj => by have := hle j hj; omega, hdown⟩

/-- A walk depends on nothing but where it begins. -/
theorem WalksUp.unique {signature : List SignaturePath} {i : Nat} {visited visited' : List Nat}
    {found found' : Bool} (h : WalksUp signature i visited found)
    (h' : WalksUp signature i visited' found') : visited' = visited ∧ found' = found := by
  induction h generalizing visited' found' with
  | found hp helse =>
    cases h' with
    | found => exact ⟨rfl, rfl⟩
    | root hp' helse' | up hp' helse' =>
      cases Option.some.inj (hp.symm.trans hp')
      cases helse.symm.trans helse'
  | root hp helse hroot =>
    cases h' with
    | found hp' helse' =>
      cases Option.some.inj (hp.symm.trans hp')
      cases helse.symm.trans helse'
    | root => exact ⟨rfl, rfl⟩
    | up hp' helse' hparent' =>
      cases Option.some.inj (hp.symm.trans hp')
      cases hroot.symm.trans hparent'
  | up hp helse hparent hrest ih =>
    cases h' with
    | found hp' helse' =>
      cases Option.some.inj (hp.symm.trans hp')
      cases helse.symm.trans helse'
    | root hp' helse' hroot' =>
      cases Option.some.inj (hp.symm.trans hp')
      cases hparent.symm.trans hroot'
    | up hp' helse' hparent' hrest' =>
      cases Option.some.inj (hp.symm.trans hp')
      cases Option.some.inj (hparent.symm.trans hparent')
      obtain ⟨rfl, rfl⟩ := ih hrest'
      exact ⟨rfl, rfl⟩

/-- What decides whether the path at place `i` should have been documented, when the paths at some
places are. Behind a path that is not a root there is one walk, to places in front of it and of each
other which all have paths. The path is expected when it is a root, or when the path around it is
documented and no path at an address that its own continues is documented elsewhere. -/
structure IsDecided (nodes : List (List Nat × Field)) (signature : List SignaturePath)
    (documented : List Nat) (i : Nat) (a : List Nat) (p : SignaturePath) : Prop where
  walk : ∀ up, p.parent? = some up → ∃ visited found,
    (∀ v b, WalksUp signature up v b ↔ v = visited ∧ b = found)
      ∧ (i :: visited).Pairwise (· > ·) ∧ (∀ j ∈ visited, j < signature.length)
      ∧ isExpected signature documented p = (documented.contains up && !found)
  expected : isExpected signature documented p = true ↔ p.parent? = none
    ∨ (∃ up ∈ documented, p.parent? = some up)
      ∧ ∀ (j : Nat) (b : List Nat) (g : Field) (q : SignaturePath), nodes[j]? = some (b, g) →
        b <+: a → b ≠ a → signature[j]? = some q → q.documentedElsewhere = false

/-! ### The paths around a path -/

section Around

variable {fs : List Field} {nodes : List (List Nat × Field)} {signature : List SignaturePath}
  (hn : IsPreorder fs nodes)
  (hs : signature = nodes.map (pathOfNode (placeOf nodes) (keyAt [] fs)))
include hn hs

/-- The paths around a path are those at the addresses that its address continues. -/
theorem encloses_iff {i : Nat} {a : List Nat} {f : Field} {p q : SignaturePath}
    (hi : nodes[i]? = some (a, f)) (hp : signature[i]? = some p) : Encloses signature q p
      ↔ ∃ (j : Nat) (b : List Nat) (g : Field), nodes[j]? = some (b, g) ∧ b <+: a ∧ b ≠ a
        ∧ signature[j]? = some q := by
  constructor
  · intro h
    induction h generalizing i a f with
    | single hparent =>
      obtain ⟨up, hup, hq⟩ := hparent
      obtain ⟨g, hg⟩ := (parent_iff hn hs hi hp).mp hup
      have hne : a.dropLast ≠ a := fun heq =>
        not_prefix_dropLast (hn.ne_nil hi) (heq.symm ▸ List.prefix_rfl)
      exact ⟨up, _, g, hg, List.dropLast_prefix a, hne, hq⟩
    | tail _ hparent ih =>
      obtain ⟨up, hup, hu⟩ := hparent
      obtain ⟨g, hg⟩ := (parent_iff hn hs hi hp).mp hup
      obtain ⟨j, b, g', hj, hb, -, hq⟩ := ih hg hu
      refine ⟨j, b, g', hj, hb.trans (List.dropLast_prefix a), ?_, hq⟩
      rintro rfl
      exact not_prefix_dropLast (hn.ne_nil hi) hb
  · rintro ⟨j, b, g, hj, hb, hne, hq⟩
    induction i using Nat.strongRecOn generalizing a f p with
    | ind i ih =>
      have hb' := prefix_dropLast hb hne
      have hdrop : a.dropLast ≠ [] := fun hnil => by
        rw [hnil] at hb'
        exact hn.ne_nil hj (List.prefix_nil.mp hb')
      obtain ⟨g', hg'⟩ := exists_fieldAt?_dropLast (hn.fieldAt?_node hi) hdrop
      obtain ⟨up, hup⟩ := hn.exists_node hg'
      have hu := exists_path hs hup
      have hparent := (parent_iff hn hs hi hp).mpr ⟨g', hup⟩
      by_cases heq : b = a.dropLast
      · -- The address is the one directly above.
        subst heq
        obtain rfl : j = up := by
          have := hn.placeOf_node hj
          rw [hn.placeOf_node hup] at this
          exact (Option.some.inj this).symm
        exact .single ⟨j, hparent, hq⟩
      · exact .tail (ih up (parent_lt hn hs hi hp hparent) hup hu hb' heq) ⟨up, hparent, hu⟩

private theorem isExpected_iff {documented : List Nat} {i : Nat} {a : List Nat} {f : Field}
    {p : SignaturePath} (hi : nodes[i]? = some (a, f)) (hp : signature[i]? = some p) :
    isExpected signature documented p = true ↔ p.parent? = none
      ∨ (∃ up ∈ documented, p.parent? = some up)
        ∧ ∀ (j : Nat) (b : List Nat) (g : Field) (q : SignaturePath), nodes[j]? = some (b, g) →
          b <+: a → b ≠ a → signature[j]? = some q → q.documentedElsewhere = false := by
  cases hparent : p.parent? with
  | none => simp [isExpected, hparent]
  | some up =>
    have hdocumented : (∃ up' ∈ documented, some up = some up') ↔ up ∈ documented := by simp
    have helsewhere : (∀ (j : Nat) (b : List Nat) (g : Field) (q : SignaturePath),
        nodes[j]? = some (b, g) → b <+: a → b ≠ a → signature[j]? = some q →
          q.documentedElsewhere = false)
        ↔ ¬ ∃ q, Encloses signature q p ∧ q.documentedElsewhere = true := by
      constructor
      · rintro hnone ⟨q, hq, he⟩
        obtain ⟨j, b, g, hj, hb, hne, hq⟩ := (encloses_iff hn hs hi hp).mp hq
        rw [hnone j b g q hj hb hne hq] at he
        cases he
      · intro hnone j b g q hj hb hne hq
        have hencloses := (encloses_iff hn hs hi hp).mpr ⟨j, b, g, hj, hb, hne, hq⟩
        exact Bool.eq_false_iff.mpr fun he => hnone ⟨q, hencloses, he⟩
    rw [← Bool.not_eq_false, isExpected_eq_false_iff (parentsFirst hn hs) hp, hdocumented,
      helsewhere, hparent]
    simp

private theorem isDecided (documented : List Nat) {i : Nat} {a : List Nat} {f : Field}
    {p : SignaturePath} (hi : nodes[i]? = some (a, f)) (hp : signature[i]? = some p) :
    IsDecided nodes signature documented i a p where
  walk up hup := by
    have hlt : up < i := parent_lt hn hs hi hp hup
    have hlen : i < signature.length := (List.getElem?_eq_some_iff.mp hp).1
    obtain ⟨visited, hwalk, hle, hdown⟩ :=
      exists_walksUp (parentsFirst hn hs) (Nat.lt_trans hlt hlen)
    refine ⟨visited, isElsewhere signature up, fun v b => ⟨hwalk.unique, ?_⟩, ?_, ?_, ?_⟩
    · rintro ⟨rfl, rfl⟩
      exact hwalk
    · exact List.pairwise_cons.mpr ⟨fun j hj => Nat.lt_of_le_of_lt (hle j hj) hlt, hdown⟩
    · exact fun j hj => Nat.lt_of_le_of_lt (hle j hj) (Nat.lt_trans hlt hlen)
    · rw [isExpected, hup]
  expected := isExpected_iff hn hs hi hp

end Around

/-- The paths are those of the fields of a forest, each field once and in preorder, and the walk to
the root decides for each of them whether it should have been documented. -/
def ListsForest (fs : List Field) (signature : List SignaturePath) : Prop :=
  ∃ nodes, IsPreorder fs nodes ∧ signature.length = nodes.length
    ∧ ∀ (i : Nat) (a : List Nat) (f : Field) (p : SignaturePath), nodes[i]? = some (a, f) →
      signature[i]? = some p → IsEntry nodes signature i a f p
        ∧ ∀ documented, IsDecided nodes signature documented i a p

/-- The paths of any fields and of any parameters are a forest in preorder. -/
theorem paths_listForest (fs : List Field) (ps : List Parameter) :
    ListsForest fs (fieldPaths fs)
      ∧ ListsForest (ps.map Parameter.toField) (parameterPaths ps) := by
  have hforest : ∀ fs, ListsForest fs (fieldPaths fs) := fun fs => by
    have hn := isPreorder_nodesOf fs
    have hs := fieldPaths_eq fs
    refine ⟨nodesOf fs, hn, by rw [hs, List.length_map], fun i a f p hi hp => ?_⟩
    exact ⟨isEntry hn hs hi hp, fun documented => isDecided hn hs documented hi hp⟩
  exact ⟨hforest fs, hforest (ps.map Parameter.toField)⟩

end DocContract
