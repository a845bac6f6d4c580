import DocContract.Proofs.Schema.Path
import DocContract.Proofs.Text.Lines

/-!
# Keys and places of a forest

The paths of fields are a forest that is told in two ways: by the places of the paths and by the
dots of their keys. When every name is one segment the two agree: the path around a path is the one
whose key ends in front of the last dot, and keys are different when the names of siblings are.
-/

namespace DocContract

open Text

/-! ### Fields all the way down -/

/-- The property holds of the field and of all fields below it. -/
inductive Field.Everywhere (P : Field → Prop) : Field → Prop
  | intro {f : Field} (own : P f)
      (below : ∀ type ∈ f.type?, ∀ g ∈ type.fields, Field.Everywhere P g) : Field.Everywhere P f

/-- What holds everywhere in a field holds of the field. -/
theorem Field.Everywhere.own {P : Field → Prop} {f : Field} : f.Everywhere P → P f
  | .intro h _ => h

/-- What holds everywhere in a field holds everywhere in the fields of its type. -/
theorem Field.Everywhere.inner {P : Field → Prop} {f : Field} :
    f.Everywhere P → ∀ type ∈ f.type?, ∀ g ∈ type.fields, g.Everywhere P
  | .intro _ h => h

@[simp] private theorem Field.everywhere_leaf {P : Field → Prop} {name : Text} {optional : Bool} :
    Field.Everywhere P ⟨name, none, optional⟩ ↔ P ⟨name, none, optional⟩ :=
  ⟨Field.Everywhere.own, fun h => .intro h nofun⟩

@[simp] private theorem Field.everywhere_node {P : Field → Prop} {name text : Text}
    {fields : List Field}
    {documentedElsewhere optional : Bool} :
    Field.Everywhere P ⟨name, some ⟨text, fields, documentedElsewhere⟩, optional⟩
      ↔ P ⟨name, some ⟨text, fields, documentedElsewhere⟩, optional⟩
        ∧ ∀ g ∈ fields, g.Everywhere P := by
  refine ⟨fun h => ⟨h.own, h.inner _ rfl⟩, fun ⟨hown, hfields⟩ => .intro hown ?_⟩
  rintro type ⟨⟩
  exact hfields

/-- A property of all fields may be weakened. -/
theorem Field.Everywhere.mono {P Q : Field → Prop} (hPQ : ∀ f, P f → Q f) {f : Field}
    (h : f.Everywhere P) : f.Everywhere Q := by
  induction h with
  | intro own _ ih => exact .intro (hPQ _ own) ih

/-- The part that a name contributes to keys. -/
def Field.segment (f : Field) : Text := dropElementMarks f.name

/-- The name is one segment: something is left of it without its element markers, and it holds no
dot. -/
def Field.HasSegment (f : Field) : Prop := f.segment ≠ [] ∧ '.' ∉ f.name

/-! ### Segments and keys -/

private theorem dropElementMarks_go_suffix (t : Text) :
    ∃ marks, t = marks ++ (dropElementMarks.go t).reverse := by
  induction t using dropElementMarks.go.induct with
  | case1 r ih =>
    obtain ⟨marks, h⟩ := ih
    refine ⟨']' :: '[' :: marks, ?_⟩
    rw [dropElementMarks.go, List.cons_append, List.cons_append, ← h]
  | case2 t hne =>
    refine ⟨[], ?_⟩
    rw [dropElementMarks.go.eq_2 t hne, List.reverse_reverse, List.nil_append]

/-- Element markers are dropped at the end. -/
theorem dropElementMarks_prefix (t : Text) : ∃ marks, t = dropElementMarks t ++ marks := by
  obtain ⟨marks, h⟩ := dropElementMarks_go_suffix t.reverse
  refine ⟨marks.reverse, ?_⟩
  have := congrArg List.reverse h
  rwa [List.reverse_reverse, List.reverse_append, List.reverse_reverse] at this

private theorem Field.HasSegment.not_mem {f : Field} (h : f.HasSegment) : '.' ∉ f.segment := by
  obtain ⟨marks, hm⟩ := dropElementMarks_prefix f.name
  intro hdot
  apply h.2
  rw [hm]
  exact List.mem_append_left _ hdot

private theorem joinKey_ne_nil {above own : Text} (h : own ≠ []) : joinKey above own ≠ [] := by
  cases above with
  | nil => exact h
  | cons c r => simp [joinKey]

/-- A key below another one is written behind a dot. -/
theorem joinKey_of_ne_nil {above own : Text} (h : above ≠ []) :
    joinKey above own = above ++ '.' :: own := by
  cases above with
  | nil => exact absurd rfl h
  | cons c r => rfl

/-- A key stands above the keys that are joined to it. -/
theorem isAbove_joinKey {above own : Text} (h : above ≠ []) : IsAbove above (joinKey above own) :=
  ⟨own, joinKey_of_ne_nil h⟩

/-- A key stands above those below the keys that it stands above. -/
theorem IsAbove.trans {a b c : Text} (hab : IsAbove a b) (hbc : IsAbove b c) : IsAbove a c := by
  obtain ⟨r, rfl⟩ := hab
  obtain ⟨s, rfl⟩ := hbc
  exact ⟨r ++ '.' :: s, by simp⟩

/-- The key is the given one or lies below it. -/
def IsWithin (root key : Text) : Prop := key = root ∨ IsAbove root key

private theorem IsAbove.ne {up key : Text} (h : IsAbove up key) : key ≠ up := by
  obtain ⟨rest, rfl⟩ := h
  intro he
  have := congrArg List.length he
  simp at this

private theorem IsAbove.of_within {up root key : Text} (h : IsAbove up root)
    (hw : IsWithin root key) : IsAbove up key := by
  rcases hw with rfl | hw
  · exact h
  · exact h.trans hw

/-- What is joined to a key does not depend on what stands behind it. -/
theorem exists_joinKey_eq (above : Text) : ∃ front, ∀ own, joinKey above own = front ++ own := by
  by_cases h : above = []
  · exact ⟨[], fun own => by rw [h]; rfl⟩
  · exact ⟨above ++ ['.'], fun own => by rw [joinKey_of_ne_nil h]; simp⟩

/-- A key that a dot is put behind is continued from the key that it lies within. -/
theorem IsWithin.exists_append_dot {root key : Text} (h : IsWithin root key) :
    ∃ rest, key ++ ['.'] = root ++ '.' :: rest := by
  rcases h with rfl | ⟨rest, rfl⟩
  · exact ⟨[], rfl⟩
  · exact ⟨rest ++ ['.'], by simp⟩

/-- The keys within different segments are different. -/
theorem eq_of_isWithin_joinKey {above own own' key : Text} (h : '.' ∉ own) (h' : '.' ∉ own')
    (hw : IsWithin (joinKey above own) key) (hw' : IsWithin (joinKey above own') key) :
    own = own' := by
  obtain ⟨front, hfront⟩ := exists_joinKey_eq above
  obtain ⟨rest, hrest⟩ := hw.exists_append_dot
  obtain ⟨rest', hrest'⟩ := hw'.exists_append_dot
  rw [hfront, List.append_assoc] at hrest hrest'
  exact (append_cons_inj_first h h' (List.append_cancel_left (hrest.symm.trans hrest'))).1

/-- The key above a key that was joined. -/
theorem keyAbove?_append {up last : Text} (h : '.' ∉ last) :
    keyAbove? (up ++ '.' :: last) = some up := by
  induction up with
  | nil => simp [keyAbove?, keyAbove?_eq_none.mpr h]
  | cons c r ih => simp [keyAbove?, ih]

/-! ### Links between places and keys -/

/-- Places and keys agree on what is around a path. -/
def Linked (signature : List SignaturePath) (p : SignaturePath) : Prop :=
  (p.parent? = none ∧ keyAbove? p.key = none)
    ∨ ∃ u, IsParent signature u p ∧ keyAbove? p.key = some u.key

/-- Paths below a place have keys below the key there; at the root they have neither. -/
def HangsAt (signature : List SignaturePath) (parent? : Option Nat) (above : Text) : Prop :=
  (parent? = none ∧ above = [])
    ∨ ∃ i u, parent? = some i ∧ signature[i]? = some u ∧ u.key = above ∧ above ≠ []

/-- The paths stand in the signature from a place on. -/
def StandsFrom (signature : List SignaturePath) (start : Nat) (ps : List SignaturePath) : Prop :=
  ∀ (j : Nat) (p : SignaturePath), ps[j]? = some p → signature[start + j]? = some p

private theorem StandsFrom.cons {signature ps : List SignaturePath} {start : Nat}
    {p : SignaturePath}
    (h : StandsFrom signature start (p :: ps)) :
    signature[start]? = some p ∧ StandsFrom signature (start + 1) ps := by
  refine ⟨h 0 p rfl, fun j q hq => ?_⟩
  rw [Nat.add_right_comm, Nat.add_assoc]
  exact h (j + 1) q hq

private theorem StandsFrom.append {signature ps qs : List SignaturePath} {start : Nat}
    (h : StandsFrom signature start (ps ++ qs)) :
    StandsFrom signature start ps ∧ StandsFrom signature (start + ps.length) qs := by
  constructor
  · intro j p hp
    apply h j p
    rw [List.getElem?_append_left (List.getElem?_eq_some_iff.mp hp).1, hp]
  · intro j q hq
    rw [Nat.add_assoc]
    apply h _ q
    rw [List.getElem?_append_right (Nat.le_add_right _ _), Nat.add_sub_cancel_left, hq]

section Links

variable {signature : List SignaturePath}

private theorem linked_ofName {parent? : Option Nat} {above own : Text} {type : Option TypeRef}
    {optional : Bool} (hat : HangsAt signature parent? above) (hown : '.' ∉ own) :
    Linked signature (SignaturePath.ofName parent? (joinKey above own) type optional) := by
  rcases hat with ⟨rfl, rfl⟩ | ⟨i, u, rfl, hu, rfl, hne⟩
  · exact .inl ⟨rfl, keyAbove?_eq_none.mpr hown⟩
  · refine .inr ⟨u, ⟨i, rfl, hu⟩, ?_⟩
    change keyAbove? (joinKey u.key own) = some u.key
    rw [joinKey_of_ne_nil hne, keyAbove?_append hown]

mutual
private theorem linked_pathsOfField {start : Nat} {parent? : Option Nat} {above : Text} :
    ∀ {f : Field}, f.Everywhere Field.HasSegment → HangsAt signature parent? above →
      StandsFrom signature start (pathsOfField start parent? above f) →
      ∀ p ∈ pathsOfField start parent? above f, Linked signature p
  | ⟨name, type, optional⟩, hseg, hat, hstand, p, hp => by
    rw [pathsOfField] at hstand hp
    obtain ⟨hhead, hrest⟩ := hstand.cons
    rcases List.mem_cons.mp hp with rfl | hp
    · exact linked_ofName hat hseg.own.not_mem
    · exact linked_pathsOfType hseg.inner
        (.inr ⟨start, _, rfl, hhead, rfl, joinKey_ne_nil hseg.own.1⟩) hrest p hp

private theorem linked_pathsOfType {start parent : Nat} {above : Text} :
    ∀ {t : Option TypeRef}, (∀ type ∈ t, ∀ g ∈ type.fields, g.Everywhere Field.HasSegment) →
      HangsAt signature (some parent) above →
      StandsFrom signature start (pathsOfType start parent above t) →
      ∀ p ∈ pathsOfType start parent above t, Linked signature p
  | none, _, _, _, _, hp => nomatch hp
  | some ⟨_, _, _⟩, hseg, hat, hstand, p, hp =>
    linked_pathsOfFields (hseg _ rfl) hat hstand p hp

private theorem linked_pathsOfFields {start : Nat} {parent? : Option Nat} {above : Text} :
    ∀ {fs : List Field}, (∀ f ∈ fs, f.Everywhere Field.HasSegment) →
      HangsAt signature parent? above →
      StandsFrom signature start (pathsOfFields start parent? above fs) →
      ∀ p ∈ pathsOfFields start parent? above fs, Linked signature p
  | [], _, _, _, _, hp => nomatch hp
  | f :: fs, hseg, hat, hstand, p, hp => by
    rw [pathsOfFields] at hstand hp
    obtain ⟨hf, hfs⟩ := List.forall_mem_cons.mp hseg
    obtain ⟨hown, hrest⟩ := hstand.append
    rcases List.mem_append.mp hp with hp | hp
    · exact linked_pathsOfField hf hat hown p hp
    · exact linked_pathsOfFields hfs hat hrest p hp
end

end Links

/-- In the paths of fields, the path around a path has the key above its key. -/
theorem linked_fieldPaths {fs : List Field} (h : ∀ f ∈ fs, f.Everywhere Field.HasSegment) :
    ∀ p ∈ fieldPaths fs, Linked (fieldPaths fs) p :=
  linked_pathsOfFields h (.inl ⟨rfl, rfl⟩) fun j p hp => by rwa [Nat.zero_add]

/-! ### Distinct keys -/

/-- The names of siblings are told apart by their segments, all the way down. -/
structure DistinctlyNamed (fs : List Field) : Prop where
  siblings : (fs.map Field.segment).Nodup
  fields : ∀ f ∈ fs, f.Everywhere fun f =>
    f.HasSegment ∧ ∀ type ∈ f.type?, (type.fields.map Field.segment).Nodup

private theorem DistinctlyNamed.inner {fs : List Field} (h : DistinctlyNamed fs) {f : Field}
    (hf : f ∈ fs)
    {type : TypeRef} (ht : type ∈ f.type?) : DistinctlyNamed type.fields :=
  ⟨(h.fields f hf).own.2 type ht, (h.fields f hf).inner type ht⟩

private theorem DistinctlyNamed.tail {f : Field} {fs : List Field} (h : DistinctlyNamed (f :: fs)) :
    DistinctlyNamed fs :=
  ⟨(List.nodup_cons.mp h.siblings).2, (List.forall_mem_cons.mp h.fields).2⟩

mutual
/-- The keys of a field and of what lies below it are different, and within its own. -/
theorem distinct_pathsOfField (start : Nat) (parent? : Option Nat) (above : Text) :
    ∀ f : Field, f.HasSegment → (∀ type ∈ f.type?, DistinctlyNamed type.fields) →
      ((pathsOfField start parent? above f).map SignaturePath.key).Nodup
        ∧ ∀ p ∈ pathsOfField start parent? above f, IsWithin (joinKey above f.segment) p.key
  | ⟨name, type, optional⟩, hseg, hinner => by
    obtain ⟨hnodup, hbelow⟩ := distinct_pathsOfType (start + 1) start
      (joinKey above (dropElementMarks name)) (joinKey_ne_nil hseg.1) type hinner
    rw [pathsOfField]
    constructor
    · rw [List.map_cons, List.nodup_cons]
      refine ⟨fun hm => ?_, hnodup⟩
      obtain ⟨p, hp, hkey⟩ := List.mem_map.mp hm
      exact (hbelow p hp).ne hkey
    · exact List.forall_mem_cons.mpr ⟨.inl rfl, fun p hp => .inr (hbelow p hp)⟩

private theorem distinct_pathsOfType (start parent : Nat) (above : Text) (ha : above ≠ []) :
    ∀ t : Option TypeRef, (∀ type ∈ t, DistinctlyNamed type.fields) →
      ((pathsOfType start parent above t).map SignaturePath.key).Nodup
        ∧ ∀ p ∈ pathsOfType start parent above t, IsAbove above p.key
  | none, _ => ⟨.nil, List.forall_mem_nil _⟩
  | some ⟨_, fields, _⟩, h => by
    obtain ⟨hnodup, hwithin⟩ := distinct_pathsOfFields start (some parent) above fields (h _ rfl)
    refine ⟨hnodup, fun p hp => ?_⟩
    obtain ⟨f, -, hf⟩ := hwithin p hp
    exact (isAbove_joinKey ha).of_within hf

private theorem distinct_pathsOfFields (start : Nat) (parent? : Option Nat) (above : Text) :
    ∀ fs : List Field, DistinctlyNamed fs →
      ((pathsOfFields start parent? above fs).map SignaturePath.key).Nodup
        ∧ ∀ p ∈ pathsOfFields start parent? above fs,
          ∃ f ∈ fs, IsWithin (joinKey above f.segment) p.key
  | [], _ => ⟨.nil, List.forall_mem_nil _⟩
  | f :: fs, h => by
    have hmem : f ∈ f :: fs := List.mem_cons_self
    obtain ⟨hown, hwithin⟩ := distinct_pathsOfField start parent? above f (h.fields f hmem).own.1
      fun type ht => h.inner hmem ht
    obtain ⟨hrest, hothers⟩ := distinct_pathsOfFields
      (start + (pathsOfField start parent? above f).length) parent? above fs h.tail
    rw [pathsOfFields]
    constructor
    · rw [List.map_append, List.nodup_append]
      refine ⟨hown, hrest, ?_⟩
      intro key hk key' hk' he
      obtain ⟨p, hp, rfl⟩ := List.mem_map.mp hk
      obtain ⟨q, hq, rfl⟩ := List.mem_map.mp hk'
      obtain ⟨g, hg, hwithin'⟩ := hothers q hq
      -- The key would lie within two siblings.
      have hsegment := eq_of_isWithin_joinKey (h.fields f hmem).own.1.not_mem
        (h.fields g (List.mem_cons_of_mem _ hg)).own.1.not_mem (he ▸ hwithin p hp) hwithin'
      apply (List.nodup_cons.mp h.siblings).1
      rw [hsegment]
      exact List.mem_map_of_mem hg
    · refine List.forall_mem_append.mpr ⟨fun p hp => ?_, fun p hp => ?_⟩
      · exact ⟨f, hmem, hwithin p hp⟩
      · obtain ⟨g, hg, hwithin'⟩ := hothers p hp
        exact ⟨g, List.mem_cons_of_mem _ hg, hwithin'⟩
end

/-- Fields whose siblings are told apart have paths with different keys. -/
theorem nodup_fieldPaths {fs : List Field} (h : DistinctlyNamed fs) :
    ((fieldPaths fs).map SignaturePath.key).Nodup :=
  (distinct_pathsOfFields 0 none [] fs h).1

/-- Each field has a path of its own. -/
theorem exists_mem_pathsOfFields (start : Nat) (parent? : Option Nat) (above : Text) {f : Field}
    {fs : List Field} (hf : f ∈ fs) : ∃ p ∈ pathsOfFields start parent? above fs,
      p.key = joinKey above f.segment ∧ p.optional = f.optional ∧ p.parent? = parent? := by
  induction fs generalizing start with
  | nil => cases hf
  | cons g gs ih =>
    rcases List.mem_cons.mp hf with rfl | hf
    · obtain ⟨name, type, optional⟩ := f
      refine ⟨_, List.mem_append_left _ List.mem_cons_self, rfl, rfl, rfl⟩
    · obtain ⟨p, hp, h⟩ := ih _ hf
      exact ⟨p, List.mem_append_right _ hp, h⟩

end DocContract
