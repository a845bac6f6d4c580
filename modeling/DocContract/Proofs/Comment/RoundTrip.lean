import DocContract.Proofs.Comment.WrittenBlock

/-!
# Reading what was written

An expressible block is read back from its interior with the same content exactly when all of its
tags are settled. So a canonical block survives being written and read in both conventions, and no
other expressible block does.
-/

namespace DocContract

open Text

namespace Tag

/-- Tags are read one for one as they are exactly when each of them is. -/
theorem forall_reread_iff {ts : List Tag} :
    ((∀ t ∈ ts, t.reread?.isSome = true)
        ∧ (ts.filterMap reread?).map unplaced = ts.map unplaced)
      ↔ ∀ t ∈ ts, ∃ t', t.reread? = some t' ∧ t'.unplaced = t.unplaced := by
  induction ts with
  | nil => simp
  | cons t ts ih =>
    rw [List.forall_mem_cons, List.forall_mem_cons, ← ih]
    constructor
    · rintro ⟨⟨ht, hts⟩, hmap⟩
      obtain ⟨t', ht'⟩ := Option.isSome_iff_exists.mp ht
      rw [List.filterMap_cons_some ht', List.map_cons, List.map_cons] at hmap
      obtain ⟨hhead, htail⟩ := List.cons.inj hmap
      exact ⟨⟨t', ht', hhead⟩, hts, htail⟩
    · rintro ⟨⟨t', ht', hu⟩, hts, hmap⟩
      refine ⟨⟨by rw [ht']; rfl, hts⟩, ?_⟩
      rw [List.filterMap_cons_some ht', List.map_cons, List.map_cons, hu, hmap]

/-- A brief is settled. -/
theorem IsBrief.isSettled {t : Tag} (h : t.IsBrief) : t.IsSettled where
  named := fun hk => by rw [h.kind] at hk; cases hk
  undashed := fun hk => by rw [h.kind] at hk; cases hk
  ended := by simp [h.snippet]

private theorem IsBrief.reread {t : Tag} (h : t.IsBrief) :
    ∃ t', t.reread? = some t' ∧ t'.unplaced = t.unplaced :=
  ⟨t, h.reread?_eq, rfl⟩

end Tag

namespace CommentBlock

variable {c : Convention} {b : CommentBlock}

/-- Of an expressible block, the tags are read as they are exactly when they are settled. -/
theorem IsExpressible.forall_settled_iff (h : b.IsExpressible c) :
    (∀ t ∈ b.tags, ∃ t', t.reread? = some t' ∧ t'.unplaced = t.unplaced)
      ↔ ∀ t ∈ b.tags, t.IsSettled := by
  rw [tags_eq, List.forall_mem_append, List.forall_mem_append]
  have hbrief : ∀ t ∈ b.brief?.toList, t.IsBrief := fun t ht => h.brief t (by simpa using ht)
  constructor
  · rintro ⟨-, hall⟩
    exact ⟨fun t ht => (hbrief t ht).isSettled,
      fun t ht => (Tag.isSettled_iff_reread (h.entries t ht)).mpr (hall t ht)⟩
  · rintro ⟨-, hall⟩
    exact ⟨fun t ht => (hbrief t ht).reread,
      fun t ht => (Tag.isSettled_iff_reread (h.entries t ht)).mp (hall t ht)⟩

/-- A reading that gives the tags of an expressible block as they are read from their lines, and the
rest as it is, gives the block exactly when its tags are settled. -/
theorem IsExpressible.reads_iff {p : ParsedComment} (h : b.IsExpressible c)
    (hread : p.block.asyncMarker = b.asyncMarker ∧ p.block.details = b.details
      ∧ p.block.tags.map Tag.unplaced = (b.tags.filterMap Tag.reread?).map Tag.unplaced
      ∧ (p.errors = [] ↔ ∀ t ∈ b.tags, t.reread?.isSome = true)) :
    (p.errors = [] ∧ b.SameContent p.block) ↔ ∀ t ∈ b.tags, t.IsSettled := by
  obtain ⟨hasync, hdetails, htags, herrors⟩ := hread
  rw [← h.forall_settled_iff, ← Tag.forall_reread_iff, herrors]
  constructor
  · rintro ⟨hall, hsame⟩
    exact ⟨hall, by rw [← htags, hsame.tags]⟩
  · rintro ⟨hall, hmap⟩
    exact ⟨hall, hasync.symm, hdetails.symm, by rw [htags, hmap]⟩

/-- An expressible block is read back from its interior exactly when its tags are settled. -/
theorem IsExpressible.readsBack_iff (s : Settings) (h : b.IsExpressible c) :
    ((parseText s (b.renderInterior c)).errors = []
        ∧ b.SameContent (parseText s (b.renderInterior c)).block)
      ↔ ∀ t ∈ b.tags, t.IsSettled :=
  h.reads_iff (parseText_renderInterior h)

/-- A canonical block is read from its interior without an error and with the same content, by every
reader and in both conventions. -/
theorem parseText_of_isCanonical (s : Settings) (h : b.IsCanonical c) :
    (parseText s (b.renderInterior c)).errors = []
      ∧ b.SameContent (parseText s (b.renderInterior c)).block :=
  (h.expressible.readsBack_iff s).mpr h.settled

/-- A block with every kind of tag, fields on two levels and a type that holds a separator. -/
def nestedExample : CommentBlock where
  asyncMarker := true
  details := ["In two ways."]
  tags :=
    [{ Tag.ofKind .brief 1 1 with description := "Adds." },
     { Tag.ofKind .template 5 1 with name? := some "T", type? := some "Base" },
     { Tag.ofKind .param 6 1 with
        name? := some "a.b[]", type? := some "A", optional := true, description := "the - first"
        children := [{ Tag.ofKind .property 7 3 with
          name? := some "x", type? := some "{k - v}", depth := 1
          children := [{ Tag.ofKind .property 8 5 with
            name? := some "y", depth := 2, description := "deep" }] }] },
     { Tag.ofKind .return 9 1 with type? := some "R" },
     { Tag.ofKind .throws 10 1 with name? := some "E", description := "-1 on failure" },
     { Tag.ofKind .usage 11 1 with
        description := "run", snippet? := some ⟨"ts", "f();\n\n  g();"⟩ }]

/-- The example block is canonical. -/
theorem nestedExample_isCanonical : nestedExample.IsCanonical .braceTyped := by
  have hparagraph : ∀ p : Text, p ≠ [] ∧ IsTidy p ∧ SigilLine.parse? p = none → IsParagraph p :=
    fun _ h => ⟨h.1, h.2.1, (SigilLine.parse?_eq_none_iff h.2.1.oneLine).mp h.2.2⟩
  refine ⟨⟨?_, ?_, ?_, by simp [brief?, nestedExample, Tag.ofKind]⟩, ?_⟩
  · rintro t ⟨⟩
    exact ⟨rfl, rfl, ⟨⟨rfl, rfl, rfl⟩, by decide⟩, hparagraph _ (by decide), rfl, rfl⟩
  · intro t ht
    simp only [nestedExample, brief?, Tag.ofKind, if_true, Option.toList, List.length_singleton,
      List.drop_succ_cons, List.drop_zero, List.mem_cons, List.not_mem_nil, or_false] at ht
    rcases ht with rfl | rfl | rfl | rfl | rfl
    · refine ⟨by decide, rfl, ⟨⟨⟨_, rfl, by decide⟩, rfl, ?_⟩, by decide⟩, rfl, by simp,
        fun _ => rfl⟩
      rintro _ ⟨⟩
      decide
    · refine ⟨by decide, rfl, ⟨⟨⟨_, rfl, by decide⟩, ?_⟩, by decide⟩, rfl, ?_, by decide⟩
      · rintro _ ⟨⟩
        decide
      · rw [List.forall_mem_singleton]
        refine .intro rfl rfl ⟨⟨_, rfl, by decide⟩, ?_, by decide⟩ rfl ?_
        · rintro _ ⟨⟩
          decide
        · rw [List.forall_mem_singleton]
          exact .intro rfl rfl ⟨⟨_, rfl, by decide⟩, by rintro _ ⟨⟩, by decide⟩ rfl (by simp)
    · refine ⟨by decide, rfl, ⟨⟨by rintro _ ⟨⟩, fun _ => rfl, ?_⟩, by decide⟩, rfl, by simp,
        fun _ => rfl⟩
      rintro _ ⟨⟩
      decide
    · refine ⟨by decide, rfl, ⟨⟨?_, rfl, rfl⟩, by decide⟩, rfl, by simp, fun _ => rfl⟩
      rintro _ ⟨⟩
      decide
    · exact ⟨by decide, rfl, ⟨⟨rfl, rfl, rfl⟩, by decide⟩,
        ⟨_, rfl, by decide, by decide, by decide, by decide⟩, by simp, fun _ => rfl⟩
  · intro p hp
    rw [List.mem_singleton.mp hp]
    exact hparagraph _ (by decide)
  · intro t ht
    simp only [nestedExample, Tag.ofKind, List.mem_cons, List.not_mem_nil, or_false] at ht
    rcases ht with rfl | rfl | rfl | rfl | rfl | rfl <;>
      exact ⟨by decide, by decide, by simp⟩

/-- A block with fields in braces is read back. -/
theorem parseText_nestedExample :
    nestedExample.IsCanonical .braceTyped
      ∧ (parseText {} (nestedExample.renderInterior .braceTyped)).errors = []
      ∧ nestedExample.SameContent (parseText {} (nestedExample.renderInterior .braceTyped)).block :=
  ⟨nestedExample_isCanonical, parseText_of_isCanonical {} nestedExample_isCanonical⟩

end CommentBlock

end DocContract
