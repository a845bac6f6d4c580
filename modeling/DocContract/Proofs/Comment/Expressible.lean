import DocContract.Comment.Group
import DocContract.Proofs.Comment.Separator
import Mathlib.Data.List.Infix

/-!
# What the written form can express

The written form has a place for some parts of a tag only: the header of a kind of tag, the line of
a nested field, the lines of a snippet. A tag is expressible when everything it holds has its place
and is of the shape that belongs there. Every tag that is read is expressible, and an expressible
tag is read back from its written form, apart from the few shapes that `IsSettled` rules out.
-/

namespace DocContract

open Text

/-- No closing brace comes before the brace that it closes, and no brace is left open. -/
def IsBalanced (t : Text) : Prop :=
  (∀ p, p <+: t → p.count '}' ≤ p.count '{') ∧ t.count '{' = t.count '}'

instance (t : Text) : Decidable (IsBalanced t) :=
  decidable_of_iff ((∀ p ∈ t.inits, p.count '}' ≤ p.count '{') ∧ t.count '{' = t.count '}')
    (by simp only [List.mem_inits, IsBalanced])

/-- What stands between the braces of an error tag. -/
structure IsErrorKind (t : Text) : Prop where
  nonempty : t ≠ []
  tidy : IsTidy t
  unopened : '{' ∉ t
  unclosed : '}' ∉ t

instance (t : Text) : Decidable (IsErrorKind t) :=
  decidable_of_iff (t ≠ [] ∧ IsTidy t ∧ '{' ∉ t ∧ '}' ∉ t)
    ⟨fun h => ⟨h.1, h.2.1, h.2.2.1, h.2.2.2⟩,
      fun h => ⟨h.nonempty, h.tidy, h.unopened, h.unclosed⟩⟩

/-- The text begins with a dash that stands alone. -/
def LeadsWithDash (t : Text) : Prop := ∃ r, t = '-' :: r ∧ ∀ c ∈ r.head?, isBlank c = true

instance (t : Text) : Decidable (LeadsWithDash t) :=
  decidable_of_iff _ Header.opensWithDash_iff

/-- The types that a nested field is written with in a convention. -/
def Convention.IsFieldType : Convention → Text → Prop
  | .dashPlus, type => Header.IsType type
  | .braceTyped, type => type ≠ [] ∧ IsTidy type ∧ IsBalanced type

instance (c : Convention) (type : Text) : Decidable (c.IsFieldType type) :=
  match c with
  | .dashPlus => inferInstanceAs (Decidable (Header.IsType type))
  | .braceTyped => inferInstanceAs (Decidable (type ≠ [] ∧ IsTidy type ∧ IsBalanced type))

/-- The headers that the line of a nested field can express. -/
structure Convention.Expresses (c : Convention) (h : Header) : Prop where
  name : ∃ name, h.name? = some name ∧ Header.isName name = true
  type : ∀ type ∈ h.type?, c.IsFieldType type
  description : IsTidy h.description

/-- The parts of a header, the description apart, that the tags of a kind can express. -/
def TagKind.HasPlaces (h : Header) : TagKind → Prop
  | .brief => h.name? = none ∧ h.type? = none ∧ h.optional = false
  | .param | .property =>
    (∃ name, h.name? = some name ∧ Header.isName name = true) ∧ ∀ type ∈ h.type?, Header.IsType type
  | .return =>
    (∀ name ∈ h.name?, Header.isName name = true) ∧ (h.name? = none → h.optional = false)
      ∧ ∀ type ∈ h.type?, Header.IsType type
  | .throws => (∀ kind ∈ h.name?, IsErrorKind kind) ∧ h.type? = none ∧ h.optional = false
  | .template =>
    (∃ name, h.name? = some name ∧ Header.isIdentifier name = true) ∧ h.optional = false
      ∧ ∀ bound ∈ h.type?, Header.IsType bound
  | .usage => h.name? = none ∧ h.type? = none ∧ h.optional = false

/-- The headers that the tags of a kind can express. -/
structure TagKind.Expresses (kind : TagKind) (h : Header) : Prop where
  places : kind.HasPlaces h
  description : IsTidy h.description

/-- A snippet that its lines between the fences determine: no line ends with blanks or is a fence,
and the least indented line is not indented. -/
structure Snippet.IsWritable (s : Snippet) : Prop where
  language : IsTidy s.language
  endsSolid : ∀ l ∈ rawLines s.body, EndsSolid l
  unfenced : ∀ l ∈ rawLines s.body, trim l ≠ fenceMark
  unindented : commonIndent (rawLines s.body) = 0

/-- The header of a tag. -/
def Tag.header (t : Tag) : Header := ⟨t.name?, t.type?, t.optional, t.description⟩

/-- A nested field that its line and the lines below it can express. -/
inductive Tag.IsField (c : Convention) : Nat → Tag → Prop
  | intro {depth : Nat} {t : Tag} (kind : t.kind = .property) (level : t.depth = depth)
      (header : c.Expresses t.header) (plain : t.snippet? = none)
      (children : ∀ child ∈ t.children, IsField c (depth + 1) child) : IsField c depth t

/-- A tag with a sigil that its lines can express. -/
structure Tag.IsExpressible (c : Convention) (t : Tag) : Prop where
  sigil : t.kind ≠ .brief
  level : t.depth = 0
  header : t.kind.Expresses t.header
  snippet : if t.kind = .usage then ∃ s, t.snippet? = some s ∧ s.IsWritable else t.snippet? = none
  children : ∀ child ∈ t.children, child.IsField c 1
  childless : t.kind.acceptsChildren = false → t.children = []

/-- Only a usage example that can be written has a snippet. -/
theorem Tag.IsExpressible.plain {c : Convention} {t : Tag} (h : t.IsExpressible c)
    (hu : t.kind ≠ .usage) : t.snippet? = none := by
  have hsnippet := h.snippet
  rwa [if_neg hu] at hsnippet

/-- A usage example that can be written has a snippet that can be written. -/
theorem Tag.IsExpressible.exists_snippet {c : Convention} {t : Tag} (h : t.IsExpressible c)
    (hu : t.kind = .usage) : ∃ s, t.snippet? = some s ∧ s.IsWritable := by
  have hsnippet := h.snippet
  rwa [if_pos hu] at hsnippet

/-- The shapes that are read from a comment but not from the written form: an error without a kind,
an error whose description begins with a lone dash, and a snippet with a newline at its end. -/
structure Tag.IsSettled (t : Tag) : Prop where
  named : t.kind = .throws → t.name?.isSome
  undashed : t.kind = .throws → ¬ LeadsWithDash t.description
  ended : ∀ s ∈ t.snippet?, s.body.getLast? ≠ some '\n'

instance (t : Tag) : Decidable t.IsSettled :=
  decidable_of_iff ((t.kind = .throws → t.name?.isSome)
      ∧ (t.kind = .throws → ¬ LeadsWithDash t.description)
      ∧ t.snippet?.all (fun s => s.body.getLast? ≠ some '\n') = true)
    ⟨fun h => ⟨h.1, h.2.1, by simpa [Option.all_eq_true] using h.2.2⟩,
      fun h => ⟨h.named, h.undashed, by simpa [Option.all_eq_true] using h.ended⟩⟩

/-- A text that would be taken for a sigil line: `@`, a letter, then word characters and dashes up
to a blank or the end. -/
def IsSigilText (t : Text) : Prop :=
  ∃ c word rest, t = '@' :: c :: (word ++ rest) ∧ c.isAlpha = true
    ∧ (∀ x ∈ word, SigilLine.isTagChar x = true) ∧ ∀ x ∈ rest.head?, isBlank x = true

/-- A paragraph of the brief or of the details: tidy, not empty and no sigil line. -/
structure IsParagraph (t : Text) : Prop where
  nonempty : t ≠ []
  tidy : IsTidy t
  unmarked : ¬ IsSigilText t

/-- A brief that its line can express. -/
structure Tag.IsBrief (t : Tag) : Prop where
  kind : t.kind = .brief
  level : t.depth = 0
  header : t.kind.Expresses t.header
  paragraph : IsParagraph t.description
  snippet : t.snippet? = none
  childless : t.children = []

/-- A block that its written form can express: the brief comes first, if there is one, and details
need a brief. -/
structure CommentBlock.IsExpressible (c : Convention) (b : CommentBlock) : Prop where
  brief : ∀ t ∈ b.brief?, t.IsBrief
  entries : ∀ t ∈ b.tags.drop b.brief?.toList.length, t.IsExpressible c
  details : ∀ p ∈ b.details, IsParagraph p
  unbriefed : b.brief? = none → b.details = []

/-- A block that is read back from its written form. -/
structure CommentBlock.IsCanonical (c : Convention) (b : CommentBlock) : Prop where
  expressible : b.IsExpressible c
  settled : ∀ t ∈ b.tags, t.IsSettled

/-! ### The same content at other places -/

namespace Tag

mutual
/-- The tag without its places in the source. -/
def unplaced : Tag → Tag
  | ⟨kind, name?, description, type?, optional, depth, _, _, snippet?, children⟩ =>
    ⟨kind, name?, description, type?, optional, depth, 0, 0, snippet?, unplacedAll children⟩

/-- The tags without their places in the source. -/
def unplacedAll : List Tag → List Tag
  | [] => []
  | t :: ts => unplaced t :: unplacedAll ts
end

/-- Places are removed from each tag of a list. -/
theorem unplacedAll_eq_map (ts : List Tag) : unplacedAll ts = ts.map unplaced := by
  induction ts with
  | nil => rfl
  | cons t ts ih => rw [unplacedAll, ih, List.map_cons]

/-- The nested fields without their places. -/
theorem unplaced_eq (t : Tag) :
    t.unplaced = { t with line := 0, column := 0, children := t.children.map unplaced } := by
  cases t
  rw [unplaced, unplacedAll_eq_map]

end Tag

/-- Two blocks hold the same marker, the same details and the same tags, at whatever places. -/
structure CommentBlock.SameContent (a b : CommentBlock) : Prop where
  asyncMarker : a.asyncMarker = b.asyncMarker
  details : a.details = b.details
  tags : a.tags.map Tag.unplaced = b.tags.map Tag.unplaced

end DocContract
