import DocContract.Comment.Defect

/-!
# Tag groups

A group starts at a sigil line and runs to the next one. The reader goes over the lines once. Its
state is the group that is open, and each line has an output: the tags that it completes and the
defects that it shows. A tag is handed out when its group is closed, so the state holds all of an
unfinished tag and the output of a run is the outputs of its lines, one after the other.

Nested fields are kept as a branch from the tag to the field that was added last. A new field closes
the fields of the branch that are indented at least as far as itself, so its depth depends on the
order of the indentations alone.
-/

namespace DocContract

open Text

/-- A line of the interior of a comment, with the place where its text starts. -/
structure InteriorLine where
  line : Nat
  column : Nat
  text : Text
  deriving DecidableEq, Repr

namespace InteriorLine

/-- Does the line hold nothing but blanks? -/
def isBlank (l : InteriorLine) : Bool := isBlankText l.text

/-- The column of the first character that is not blank. -/
def contentColumn (l : InteriorLine) : Nat := l.column + Text.indent l.text

/-- The sigil line that the line is. -/
def sigil? (l : InteriorLine) : Option SigilLine := SigilLine.parse? (trimStart l.text)

end InteriorLine

/-- A nested field to which deeper fields may still be added. -/
structure OpenField where
  indent : Nat
  field : Tag

/-- A tag with the branch of nested fields below it that is still open, deepest first. -/
structure Branch where
  root : Tag
  path : List OpenField

namespace Branch

/-- The branch with its deepest field put into the field or tag above it. -/
def closeDeepest (root : Tag) (field : Tag) : List OpenField → Branch
  | [] => ⟨root.addChild field, []⟩
  | up :: path => ⟨root, { up with field := up.field.addChild field } :: path⟩

/-- The branch without the fields that are indented at least as far as `indent`. -/
def closeTo (indent : Nat) (root : Tag) : List OpenField → Branch
  | [] => ⟨root, []⟩
  | f :: [] => if indent ≤ f.indent then ⟨root.addChild f.field, []⟩ else ⟨root, [f]⟩
  | f :: up :: path =>
    if indent ≤ f.indent then
      closeTo indent root ({ up with field := up.field.addChild f.field } :: path)
    else ⟨root, f :: up :: path⟩
termination_by path => path.length

/-- The tag with all its fields in place. -/
def close (root : Tag) : List OpenField → Tag
  | [] => root
  | f :: [] => root.addChild f.field
  | f :: up :: path => close root ({ up with field := up.field.addChild f.field } :: path)
termination_by path => path.length

/-- The whole tag of a branch. -/
def toTag (b : Branch) : Tag := close b.root b.path

/-- The branch with text added to the description of the entry that came last. -/
def extend (b : Branch) (text : Text) : Branch :=
  match b.path with
  | [] => { b with root := b.root.extend text }
  | f :: path => { b with path := { f with field := f.field.extend text } :: path }

/-- The branch with a new field at an indentation. The field lies one level below the one that
remains open. -/
def push (b : Branch) (indent : Nat) (field : Tag) : Branch :=
  let b := closeTo indent b.root b.path
  { b with path := ⟨indent, { field with depth := b.path.length + 1 }⟩ :: b.path }

/-- The depth of the deepest open field. -/
def depth (b : Branch) : Nat := b.path.length

end Branch

/-- The group that is being read. -/
inductive Group where
  /-- Lines belong to nothing. -/
  | skip
  /-- Lines extend a tag. After a nested line that cannot be read, `swallow` is set and lines that
  are no nested fields are dropped. -/
  | entry (branch : Branch) (swallow : Bool)
  /-- A usage tag waits for its fence. -/
  | awaitFence (tag : Tag)
  /-- Lines are code. The lines of the snippet so far are kept latest first. -/
  | fence (tag : Tag) (language : Text) (body : List Text)

/-- What lines give out. -/
structure Output where
  asyncMarker : Bool := false
  tags : List Tag := []
  errors : List (Located ParseError) := []
  warnings : List (Located ParseWarning) := []

namespace Output

/-- Nothing at all. -/
def empty : Output := {}

/-- The output of some lines, then of others. -/
def append (a b : Output) : Output :=
  ⟨a.asyncMarker || b.asyncMarker, a.tags ++ b.tags, a.errors ++ b.errors,
    a.warnings ++ b.warnings⟩

instance : Append Output := ⟨append⟩

/-- One error. -/
def ofError (line column : Nat) (e : ParseError) : Output := { errors := [⟨line, column, e⟩] }

end Output

/-- The tag with the parts of a header. -/
def Tag.withHeader (t : Tag) (h : Header) : Tag :=
  { t with name? := h.name?, type? := h.type?, optional := h.optional,
           description := h.description }

/-- The header of a tag of a kind that has one. -/
def TagKind.header? (kind : TagKind) (rest : Text) : Option Header :=
  match kind with
  | .param => Header.named? rest
  | .property => Header.named? rest
  | .return => Header.returned? rest
  | .throws => Header.thrown? rest
  | .template => Header.template? rest
  | .brief => none
  | .usage => none

/-- Three backquotes open and close a snippet. -/
def fenceMark : Text := "```"

/-- The text from a byte offset on; nothing if the offset lies inside a character or behind the
end. -/
def dropBytes : Nat → Text → Text
  | 0, t => t
  | _ + 1, [] => []
  | n + 1, c :: r => if c.utf8Size ≤ n + 1 then dropBytes (n + 1 - c.utf8Size) r else []
termination_by _ t => t.length

/-- The least indentation of the lines that are not blank; zero if there is none. -/
def commonIndent (lines : List Text) : Nat :=
  match (lines.filter fun l => !isBlankText l).map Text.indent with
  | [] => 0
  | n :: ns => ns.foldl min n

/-- The lines of a snippet without their common indentation and their trailing blanks. -/
def dedent (lines : List Text) : Text :=
  join ['\n'] (lines.map fun l => trimEnd (dropBytes (commonIndent lines) l))

namespace Group

/-- The output when a group ends. -/
def finish : Group → Output
  | .skip => {}
  | .entry branch _ => { tags := [branch.toTag] }
  | .awaitFence tag => Output.ofError tag.line tag.column .missingFence
  | .fence tag _ _ => Output.ofError tag.line tag.column .openFence

/-- Does a sigil at the column continue the group? It does when it is indented further than the
group's own. -/
def nests (column : Nat) : Group → Bool
  | .entry branch _ => column > branch.root.column
  | _ => false

/-- The group that a sigil line opens, and the output of opening it. -/
def opened (s : Settings) (sigil : SigilLine) (line column : Nat) : Group × Output :=
  if sigil.tag = "async" then (.skip, { asyncMarker := true })
  else match TagKind.ofSigil? sigil.tag with
    | none =>
      if s.isExtraTag sigil.tag then (.skip, {})
      else (.skip, Output.ofError line column (.unknownTag sigil.tag))
    | some .usage => (.awaitFence ((Tag.ofKind .usage line column).extend sigil.rest), {})
    | some kind =>
      match kind.header? sigil.rest with
      | some header => (.entry ⟨(Tag.ofKind kind line column).withHeader header, []⟩ false, {})
      | none => (.skip, Output.ofError line column (.badHeader kind sigil.tag sigil.rest))

/-- The warnings about a nested field at a depth. -/
def fieldWarnings (s : Settings) (field : FieldLine) (depth : Nat) : List ParseWarning :=
  (if field.marker = Marker.ofDepth depth then [] else [.marker depth field.marker])
    ++ (if field.convention = s.markerConvention then []
        else [.convention field.convention s.markerConvention])
    ++ match s.maxTagDepth? with
      | none => []
      | some limit => if depth > limit then [.depth depth limit] else []

/-- The effect of a nested field on an open tag. -/
def addField (s : Settings) (branch : Branch) (l : InteriorLine) (field : FieldLine) :
    Group × Output :=
  let column := l.column + field.indent
  match field.header? with
  | none => (.entry branch true, Output.ofError l.line column (.badField l.text))
  | some header =>
    let branch := branch.push field.indent ((Tag.ofKind .property l.line column).withHeader header)
    (.entry branch false,
      { warnings := (fieldWarnings s field branch.depth).map fun w => ⟨l.line, column, w⟩ })

/-- The nested field that a line adds to an open tag. -/
def fieldOf? (branch : Branch) (l : InteriorLine) : Option FieldLine :=
  if branch.root.kind.acceptsChildren then FieldLine.parse? l.text else none

/-- The effect of a line that opens no group. -/
def continued (s : Settings) (l : InteriorLine) : Group → Group × Output
  | .skip => (.skip, {})
  | .entry branch swallow =>
    if l.isBlank then (.entry branch swallow, {})
    else match fieldOf? branch l with
      | some field => addField s branch l field
      | none => (.entry (if swallow then branch else branch.extend l.text) swallow, {})
  | .awaitFence tag =>
    match after? fenceMark (trimStart l.text) with
    | some language => (.fence tag (trim language) [], {})
    | none => (.awaitFence (tag.extend l.text), {})
  | .fence tag language body =>
    if trim l.text = fenceMark then
      (.entry ⟨{ tag with snippet? := some ⟨language, dedent body.reverse⟩ }, []⟩ false, {})
    else (.fence tag language (l.text :: body), {})

/-- The sigil line that opens a new group after this one. Inside a snippet there is none. -/
def opening? (g : Group) (l : InteriorLine) : Option SigilLine :=
  match g with
  | .fence _ _ _ => none
  | g => if g.nests l.contentColumn then none else l.sigil?

/-- The effect of one line. -/
def step (s : Settings) (g : Group) (l : InteriorLine) : Group × Output :=
  match g.opening? l with
  | some sigil =>
    let (next, out) := opened s sigil l.line l.contentColumn
    (next, g.finish ++ out)
  | none => continued s l g

/-- The output of the lines that follow, and of the end. -/
def run (s : Settings) (g : Group) : List InteriorLine → Output
  | [] => g.finish
  | l :: ls =>
    let (next, out) := step s g l
    out ++ run s next ls

end Group

end DocContract
