import DocContract.Proofs.Comment.Accepted
import DocContract.Proofs.Comment.RoundTrip

/-!
# Reading, writing and reading again

A text that is read without a defect gives an expressible block. Its written form is read as the
same block, and is written in the same way again, exactly when all tags of the block are settled. An
error tag that begins with a lone dash is not: each reading takes one dash for the separator.
-/

namespace DocContract

open Text

/-! ### The written form does not show places -/

namespace Tag

variable {c : Convention}

mutual
private theorem fieldLines_unplaced (depth : Nat) :
    ∀ t : Tag, fieldLines c depth t.unplaced = fieldLines c depth t
  | ⟨_, _, _, _, _, _, _, _, _, children⟩ => by
    rw [unplaced, fieldLines, fieldLines, childLines_unplaced (depth + 1) children]
    rfl

private theorem childLines_unplaced (depth : Nat) :
    ∀ ts : List Tag, childLines c depth (unplacedAll ts) = childLines c depth ts
  | [] => rfl
  | t :: ts => by
    rw [unplacedAll, childLines, childLines, fieldLines_unplaced depth t,
      childLines_unplaced depth ts]
end

private theorem tagLines_unplaced (t : Tag) : t.unplaced.tagLines c = t.tagLines c := by
  obtain ⟨kind, name?, description, type?, optional, depth, line, column, snippet?, children⟩ := t
  have hchildren := childLines_unplaced (c := c) 1 children
  cases kind <;> simp only [unplaced, tagLines, hchildren] <;> rfl

end Tag

namespace CommentBlock

variable {a b : CommentBlock}

private theorem brief?_unplaced (b : CommentBlock) : b.brief?.toList.map Tag.unplaced
    = (b.tags.map Tag.unplaced).head?.toList.filter fun t => t.kind = .brief := by
  unfold brief?
  cases b.tags with
  | nil => rfl
  | cons t ts =>
    have hk : t.unplaced.kind = t.kind := by rw [Tag.unplaced_eq]
    by_cases h : t.kind = .brief <;> simp [hk, h]

/-- Blocks with the same content are written in the same way. -/
theorem SameContent.renderInterior (h : a.SameContent b) (c : Convention) :
    a.renderInterior c = b.renderInterior c := by
  have hbrief : a.brief?.toList.map Tag.description = b.brief?.toList.map Tag.description := by
    have hdesc : ∀ x : CommentBlock, x.brief?.toList.map Tag.description
        = (x.brief?.toList.map Tag.unplaced).map Tag.description := by
      intro x
      rw [List.map_map]
      exact List.map_congr_left fun t _ => by rw [Function.comp, Tag.unplaced_eq]
    rw [hdesc, hdesc, brief?_unplaced, brief?_unplaced, h.tags]
  have hlines : a.tags.flatMap (Tag.tagLines c) = b.tags.flatMap (Tag.tagLines c) := by
    have hflat : ∀ ts : List Tag, ts.flatMap (Tag.tagLines c)
        = (ts.map Tag.unplaced).flatMap (Tag.tagLines c) := by
      intro ts
      rw [List.flatMap_map]
      exact List.flatMap_congr fun t _ => (Tag.tagLines_unplaced t).symm
    rw [hflat, hflat b.tags, h.tags]
  rw [CommentBlock.renderInterior, CommentBlock.renderInterior, interiorLines, interiorLines,
    proseLines, proseLines, markedLines, markedLines, hbrief, h.details, h.asyncMarker, hlines]

end CommentBlock

/-! ### One pass -/

/-- A text without defects keeps its content through being written and read, and its written form is
final, exactly when its tags are settled. -/
theorem parseText_stable_iff (s : Settings) (t : Text) (he : (parseText s t).errors = [])
    (hw : (parseText s t).warnings = []) :
    let first := (parseText s t).block
    let again := parseText s (first.renderInterior s.markerConvention)
    (again.errors = [] ∧ first.SameContent again.block
        ∧ again.block.renderInterior s.markerConvention = first.renderInterior s.markerConvention)
      ↔ ∀ tag ∈ first.tags, tag.IsSettled := by
  intro first again
  rw [← (isExpressible_parseText he hw).readsBack_iff s]
  constructor
  · rintro ⟨herrors, hsame, -⟩
    exact ⟨herrors, hsame⟩
  · rintro ⟨herrors, hsame⟩
    exact ⟨herrors, hsame, (hsame.renderInterior s.markerConvention).symm⟩

/-- A text with continued lines, a nested field, an error and an indented snippet. -/
def stableExample : Text :=
  "Adds\nthings.\n\n@param a: A - b\n  c\n  - x?: X\n@throws {E} when\n@usage\n```ts\n  f();\n```"

/-- The example is read without a defect and is stable. -/
theorem parseText_stableExample :
    (parseText {} stableExample).errors = [] ∧ (parseText {} stableExample).warnings = []
      ∧ (let first := (parseText {} stableExample).block
        let again := parseText {} (first.renderInterior .dashPlus)
        again.errors = [] ∧ first.SameContent again.block
          ∧ again.block.renderInterior .dashPlus = first.renderInterior .dashPlus) := by
  have he : (parseText {} stableExample).errors = [] := by decide +kernel
  have hw : (parseText {} stableExample).warnings = [] := by decide +kernel
  have hs : ∀ tag ∈ (parseText {} stableExample).block.tags, tag.IsSettled := by decide +kernel
  exact ⟨he, hw, (parseText_stable_iff {} stableExample he hw).mpr hs⟩

/-- A second dash in front of the description of an error is lost when it is written. -/
theorem parseText_unstable_dash :
    (parseText {} "@throws {K} - - boom").errors = []
      ∧ (parseText {} "@throws {K} - - boom").warnings = []
      ∧ ¬ (parseText {} "@throws {K} - - boom").block.SameContent
        (parseText {}
          ((parseText {} "@throws {K} - - boom").block.renderInterior .dashPlus)).block := by
  refine ⟨by decide, by decide, fun h => ?_⟩
  have hdesc := congrArg (List.map Tag.description) h.tags
  revert hdesc
  decide +kernel

end DocContract
