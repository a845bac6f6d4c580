import DocContract.Text

/-!
# Tags

A doc comment in its parts: the brief and the paragraphs of details, then the tags in source order.
The tags of parameters, properties and results carry the fields that are documented beneath them, to
any depth.
-/

namespace DocContract

/-- The kinds of tags. -/
inductive TagKind where
  /-- The first paragraph, which no sigil introduces. -/
  | brief
  | template
  | property
  | param
  | return
  | throws
  | usage
  deriving DecidableEq, Repr

namespace TagKind

/-- All kinds. -/
def all : List TagKind := [.brief, .template, .property, .param, .return, .throws, .usage]

/-- The name of a kind. -/
def name : TagKind → Text
  | .brief => "brief"
  | .template => "template"
  | .property => "property"
  | .param => "param"
  | .return => "return"
  | .throws => "throws"
  | .usage => "usage"

/-- The kind of a name. -/
def ofName? (t : Text) : Option TagKind := all.find? fun k => k.name == t

/-- The names that introduce a tag, with its kind; some kinds have two. -/
def sigils : List (String × TagKind) :=
  [("template", .template), ("property", .property), ("prop", .property), ("param", .param),
   ("arg", .param), ("return", .return), ("returns", .return), ("throws", .throws),
   ("throw", .throws), ("usage", .usage)]

/-- The kind that a sigil's name introduces. -/
def ofSigil? (t : Text) : Option TagKind :=
  (sigils.find? fun row => row.1.toList == t).map (·.2)

/-- The sigil that the kind is written with; the brief has none. -/
def sigil : TagKind → Text
  | .brief => []
  | k => '@' :: k.name

/-- May nested fields follow the header? -/
def acceptsChildren : TagKind → Bool
  | .param => true
  | .property => true
  | .return => true
  | _ => false

end TagKind

/-- A fenced piece of code. -/
structure Snippet where
  language : Text
  body : Text
  deriving DecidableEq, Repr

/-- One entry of the tree of tags. -/
structure Tag where
  kind : TagKind
  name? : Option Text
  description : Text
  /-- The type, if one is written. -/
  type? : Option Text
  optional : Bool
  /-- Zero for a tag with a sigil, one more than its parent for a nested field. -/
  depth : Nat
  line : Nat
  column : Nat
  snippet? : Option Snippet
  children : List Tag

namespace Tag

/-- A tag of a kind at a place, with nothing in it. -/
def ofKind (kind : TagKind) (line column : Nat) : Tag :=
  ⟨kind, none, [], none, false, 0, line, column, none, []⟩

/-- The tag with trimmed text added to its description, after a space; blank text adds nothing. -/
def extend (t : Tag) (text : Text) : Tag :=
  match Text.trim text with
  | [] => t
  | c :: r =>
    if t.description.isEmpty then { t with description := c :: r }
    else { t with description := t.description ++ ' ' :: c :: r }

/-- The tag with one more child at the end. -/
def addChild (t child : Tag) : Tag := { t with children := t.children ++ [child] }

mutual
/-- The number of levels below a tag. -/
def height : Tag → Nat
  | ⟨_, _, _, _, _, _, _, _, _, children⟩ => heightBelow children

/-- The number of levels that some tags make up, themselves included. -/
def heightBelow : List Tag → Nat
  | [] => 0
  | t :: ts => max (height t + 1) (heightBelow ts)
end

end Tag

/-- The text without the element markers at its end. -/
def dropElementMarks (t : Text) : Text :=
  go t.reverse
where
  /-- Works on the reversed text. -/
  go : Text → Text
    | ']' :: '[' :: r => go r
    | t => t.reverse

/-- The segments of a dotted name, without their element markers; empty ones do not count. -/
def pathSegments (name : Text) : List Text :=
  ((Text.splitOn '.' name).map dropElementMarks).filter fun s => !s.isEmpty

/-- The segments of a tag's name; a tag without a name has none. -/
def Tag.segments (t : Tag) : List Text :=
  match t.name? with
  | none => []
  | some name => pathSegments name

/-- A doc comment in its parts. -/
structure CommentBlock where
  /-- The byte range of the block in its file. -/
  spanStart : Nat := 0
  spanEnd : Nat := 0
  startLine : Nat := 0
  endLine : Nat := 0
  /-- Is the symbol marked as asynchronous? -/
  asyncMarker : Bool := false
  /-- The paragraphs between the brief and the first tag. -/
  details : List Text := []
  tags : List Tag := []

namespace CommentBlock

/-- The brief, which can only be the first tag. -/
def brief? (b : CommentBlock) : Option Tag :=
  match b.tags with
  | [] => none
  | t :: _ => if t.kind = .brief then some t else none

/-- The tags of one kind. -/
def tagsOf (b : CommentBlock) (kind : TagKind) : List Tag := b.tags.filter fun t => t.kind == kind

end CommentBlock

end DocContract
