import DocContract.Proofs.Comment.Depth
import Mathlib.Logic.Relation

/-!
# Nested lines that cannot be read

A nested line without a readable header is reported and otherwise passed over: the fields that are
open remain so. The nested lines behind it, also those that are indented further and so are meant to
lie below it, find their parents among the fields in front of it. They lie below none of these just
when the first of them that can be read is not indented further than any field in front.
-/

namespace DocContract

open Text

/-! ### Chains of nearest smaller numbers -/

/-- The place `i` holds the nearest smaller number of the one at the place `j`. -/
def IsNearest (is : List Nat) (i j : Nat) : Prop := (nearestEach [] is)[j]? = some (some i)

private theorem isNearest_iff {is : List Nat} {i j : Nat} : IsNearest is i j
    ↔ ∃ n, is[j]? = some n ∧ nearestBelow (is.take j) n = some i := by
  constructor
  · intro h
    have hj : j < is.length := by
      rw [← length_nearestEach [] is]
      exact (List.getElem?_eq_some_iff.mp h).1
    have hvalue : is[j]? = some is[j] := List.getElem?_eq_getElem hj
    rw [IsNearest, getElem?_nearestEach is hvalue] at h
    exact ⟨is[j], hvalue, Option.some.inj h⟩
  · rintro ⟨n, hvalue, hnearest⟩
    rw [IsNearest, getElem?_nearestEach is hvalue, hnearest]

/-- The place `i` is in front of `j`, and its number is smaller than all those up to `j`. -/
def IsLowest (is : List Nat) (i j : Nat) : Prop :=
  i < j ∧ ∃ n, is[i]? = some n ∧ ∀ k m, i < k → k ≤ j → is[k]? = some m → n < m

private theorem IsNearest.isLowest {is : List Nat} {i j : Nat} (h : IsNearest is i j) :
    IsLowest is i j := by
  obtain ⟨n, hj, hnearest⟩ := isNearest_iff.mp h
  obtain ⟨⟨m, hi, hmn⟩, hbetween⟩ := nearestBelow_eq_some hnearest
  have hij : i < j := by
    have hlt : i < (is.take j).length := (List.getElem?_eq_some_iff.mp hi).1
    exact Nat.lt_of_lt_of_le hlt (List.length_take_le _ _)
  refine ⟨hij, m, by rw [← hi, List.getElem?_take_of_lt hij], fun k v hik hkj hk => ?_⟩
  rcases Nat.lt_or_eq_of_le hkj with hlt | rfl
  · have hle := hbetween k v hik (by rw [List.getElem?_take_of_lt hlt, hk])
    omega
  · rw [hj] at hk
    obtain rfl := Option.some.inj hk
    exact hmn

/-- All numbers between an end of a chain of nearest smaller numbers and its other end are greater
than the one at its start. -/
theorem isLowest_of_transGen {is : List Nat} {i j : Nat}
    (h : Relation.TransGen (IsNearest is) i j) : IsLowest is i j := by
  induction h with
  | single h => exact h.isLowest
  | @tail a b _ hlast ih =>
    obtain ⟨hia, n, hi, hfirst⟩ := ih
    obtain ⟨hab, m, ha, hrest⟩ := hlast.isLowest
    have hnm : n < m := hfirst a m hia (Nat.le_refl a) ha
    refine ⟨hia.trans hab, n, hi, fun k v hik hkb hk => ?_⟩
    rcases Nat.lt_or_ge a k with hak | hka
    · exact hnm.trans (hrest k v hak hkb hk)
    · exact hfirst k v hik hka hk

/-- No number of a middle part has a chain to a number of the first part just when the first number
of the middle part is at most as great as each one of the first part. -/
theorem forall_not_transGen_iff (front middle back : List Nat) :
    (∀ i j, i < front.length → front.length ≤ j → j < front.length + middle.length →
      ¬ Relation.TransGen (IsNearest (front ++ (middle ++ back))) i j)
      ↔ ∀ m ∈ middle.head?, ∀ n ∈ front, m ≤ n := by
  constructor
  · intro h m hm
    by_contra hlow
    cases middle with
    | nil => cases hm
    | cons m' middle =>
      obtain rfl := Option.some.inj hm
      cases hnearest : nearestBelow front m' with
      | none => exact hlow (nearestBelow_eq_none.mp hnearest)
      | some i =>
        obtain ⟨⟨n, hi, -⟩, -⟩ := nearestBelow_eq_some hnearest
        have hlink : IsNearest (front ++ (m' :: middle ++ back)) i front.length :=
          isNearest_iff.mpr ⟨m', by simp, by rwa [List.take_left]⟩
        exact h i front.length (List.getElem?_eq_some_iff.mp hi).1 (Nat.le_refl _) (by simp)
          (.single hlink)
  · intro h i j hi hfront hmiddle hchain
    cases middle with
    | nil => simp at hmiddle; omega
    | cons m middle =>
      obtain ⟨-, n, hn, hlowest⟩ := isLowest_of_transGen hchain
      rw [List.getElem?_append_left hi] at hn
      have hmn := h m rfl n (List.mem_of_getElem? hn)
      have hnm := hlowest front.length m hi hfront (by simp)
      omega

/-! ### Fields beneath fields -/

/-- The field at the place `j` lies beneath the one at the place `i`, at any depth. -/
def Tag.Beneath (t : Tag) : Nat → Nat → Prop :=
  Relation.TransGen fun i j => t.parents[j]? = some (some i)

private theorem Tag.Nests.beneath_iff {t : Tag} {fs : List (Located FieldLine)} (h : t.Nests fs)
    (i j : Nat) : t.Beneath i j ↔ Relation.TransGen (IsNearest (fs.map (·.value.indent))) i j := by
  unfold Tag.Beneath
  rw [h.parents]
  rfl

/-- Let a nested line of a tag be unreadable, with nested lines in front of it and behind it. The
tag has a field for each line that can be read. No field of the lines behind the unreadable one lies
beneath a field of the lines in front of it just when the first of them is not indented further than
any of those. -/
theorem unreadable_confined_iff (s : Settings) {as rest : List InteriorLine} {l : InteriorLine}
    {kind : TagKind} {header : Header} (hopens : OpensTag s as l kind header)
    (hk : kind.acceptsChildren = true) {front below back : List (Located FieldLine)}
    {u : Located FieldLine} (hlines : fieldLines (ownLines l rest) = front ++ u :: (below ++ back))
    (hu : u.isReadable = false) :
    ∃ t : Tag, (parseLines s (as ++ l :: rest)).block.tags
        = (parseLines s as).block.tags ++ t :: (parseLines s (linesBehind l rest)).block.tags
      ∧ t.Nests (front.filter (·.isReadable)
        ++ (below.filter (·.isReadable) ++ back.filter (·.isReadable)))
      ∧ ((∀ i j, i < (front.filter (·.isReadable)).length →
          (front.filter (·.isReadable)).length ≤ j →
          j < (front.filter (·.isReadable)).length + (below.filter (·.isReadable)).length →
          ¬ t.Beneath i j)
        ↔ ∀ f ∈ (below.filter (·.isReadable)).head?, ∀ g ∈ front.filter (·.isReadable),
          f.value.indent ≤ g.value.indent) := by
  obtain ⟨t, htags, -, hnests⟩ := exists_tag hopens hk rest
  rw [readableFields, hlines, List.filter_append, List.filter_cons_of_neg (by simp [hu]),
    List.filter_append] at hnests
  refine ⟨t, htags, hnests, ?_⟩
  simp only [hnests.beneath_iff, List.map_append]
  generalize front.filter (·.isReadable) = fs, below.filter (·.isReadable) = bs
  have hiff := forall_not_transGen_iff (fs.map (·.value.indent)) (bs.map (·.value.indent))
    ((back.filter (·.isReadable)).map (·.value.indent))
  rw [List.length_map, List.length_map] at hiff
  rw [hiff]
  cases bs <;> simp

/-- The line of a parameter. -/
def aLine : InteriorLine := ⟨1, 1, "@param a - x"⟩

private theorem opensTag_aLine : OpensTag {} [] aLine .param ⟨some "a", none, false, "x"⟩ :=
  ⟨⟨"param", "a - x"⟩, by decide, by decide, by decide⟩

/-- The fields on the lines in front of an unreadable line, on that line and on the lines below it:
their first one is indented as far as the one in front. -/
def outdentedLines : List InteriorLine :=
  [⟨2, 1, "    - b - y"⟩, ⟨3, 1, "  - !!"⟩, ⟨4, 1, "    - d - z"⟩, ⟨5, 1, "  - e - w"⟩]

/-- Here the field below the unreadable line does not come beneath the one in front of it. -/
theorem unreadable_confined_outdentedLines :
    OpensTag {} [] aLine .param ⟨some "a", none, false, "x"⟩
      ∧ TagKind.param.acceptsChildren = true
      ∧ ∃ b u d e : Located FieldLine,
        fieldLines (ownLines aLine outdentedLines) = [b] ++ u :: ([d] ++ [e])
        ∧ u.isReadable = false ∧ u.value.indent < d.value.indent
        ∧ ∃ t : Tag, (parseLines {} (aLine :: outdentedLines)).block.tags = [t]
          ∧ t.Nests [b, d, e] ∧ ¬ t.Beneath 0 1 := by
  have hlines : fieldLines (ownLines aLine outdentedLines)
      = [⟨2, 5, 4, .dash, .dashPlus, some ⟨some "b", none, false, "y"⟩⟩]
        ++ ⟨3, 3, 2, .dash, .dashPlus, none⟩
          :: ([⟨4, 5, 4, .dash, .dashPlus, some ⟨some "d", none, false, "z"⟩⟩]
            ++ [⟨5, 3, 2, .dash, .dashPlus, some ⟨some "e", none, false, "w"⟩⟩]) := by
    decide +kernel
  obtain ⟨t, htags, hnests, hiff⟩ := unreadable_confined_iff {} opensTag_aLine rfl hlines rfl
  have hcondition := hiff.mpr (by decide)
  exact ⟨opensTag_aLine, rfl, _, _, _, _, hlines, rfl, by decide, t, htags, hnests,
    hcondition 0 1 (by decide) (by decide) (by decide)⟩

/-- An unreadable line below a field, and a field below the unreadable line. -/
def indentedLines : List InteriorLine :=
  [⟨2, 1, "  - b - y"⟩, ⟨3, 1, "    + !!"⟩, ⟨4, 1, "      - d - z"⟩]

/-- Here the field below the unreadable line comes beneath the field in front of it. There its own
marker, which is right for the depth that is written, belongs to another depth. -/
theorem beneath_indentedLines :
    OpensTag {} [] aLine .param ⟨some "a", none, false, "x"⟩
      ∧ TagKind.param.acceptsChildren = true
      ∧ ∃ b u d : Located FieldLine, fieldLines (ownLines aLine indentedLines) = [b, u, d]
        ∧ u.isReadable = false ∧ u.value.indent < d.value.indent
        ∧ ∃ t : Tag, (parseLines {} (aLine :: indentedLines)).block.tags = [t]
          ∧ t.fieldPlaces = [(b.line, b.column), (d.line, d.column)] ∧ t.Beneath 0 1
          ∧ (parseLines {} (aLine :: indentedLines)).warnings
            = [⟨d.line, d.column, .marker 2 d.value.marker⟩] := by
  have hlines : fieldLines (ownLines aLine indentedLines)
      = [⟨2, 3, 2, .dash, .dashPlus, some ⟨some "b", none, false, "y"⟩⟩,
        ⟨3, 5, 4, .plus, .dashPlus, none⟩,
        ⟨4, 7, 6, .dash, .dashPlus, some ⟨some "d", none, false, "z"⟩⟩] := by decide +kernel
  obtain ⟨t, htags, -, hnests⟩ := exists_tag opensTag_aLine rfl indentedLines
  rw [readableFields, hlines] at hnests
  have hparents : t.parents = [none, some 0] := hnests.parents
  refine ⟨opensTag_aLine, rfl, _, _, _, hlines, rfl, by decide, t, htags, hnests.places, ?_, ?_⟩
  · exact .single (by rw [hparents]; rfl)
  · decide +kernel

end DocContract
