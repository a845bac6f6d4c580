import DocContract.Comment.Defect

/-!
# The canonical form of a comment

The written form of a comment in a convention: the brief, the details between blank lines, the
asynchronous marker, then the tags in order, with nested fields indented by two spaces for each
level.
-/

namespace DocContract

open Text

/-- A description after a head that needs no dash. -/
def withText (head description : Text) : Text :=
  if description.isEmpty then head else head ++ ' ' :: description

/-- A description after a head and a dash; the dash stays when there is no description. -/
def withDash (head description : Text) : Text := withText (head ++ " -") description

namespace Tag

/-- The name, or nothing. -/
def nameText (t : Tag) : Text := t.name?.getD []

/-- The name with the mark of an optional one. -/
def flaggedName (t : Tag) : Text := t.nameText ++ (if t.optional then ['?'] else [])

/-- The type after a colon, if there is one. -/
def typeClause (t : Tag) : Text :=
  match t.type? with
  | none => []
  | some type => ": " ++ type

/-- The line of a nested field. -/
def fieldLine (c : Convention) (depth : Nat) (t : Tag) : Text :=
  let lead := List.replicate (2 * depth) ' ' ++ [(Marker.ofDepth depth).symbol, ' ']
  let head :=
    match c, t.type? with
    | .braceTyped, some type => lead ++ '{' :: (type ++ ['}', ' ']) ++ t.flaggedName
    | _, _ => lead ++ t.flaggedName ++ t.typeClause
  if t.description.isEmpty then head else withDash head t.description

mutual
/-- The lines of a nested field and of the fields below it. -/
def fieldLines (c : Convention) (depth : Nat) : Tag → List Text
  | t@⟨_, _, _, _, _, _, _, _, _, children⟩ =>
    fieldLine c depth t :: childLines c (depth + 1) children

/-- The lines of the nested fields at one depth. -/
def childLines (c : Convention) (depth : Nat) : List Tag → List Text
  | [] => []
  | t :: ts => fieldLines c depth t ++ childLines c depth ts
end

/-- The header line of a tag without its nested fields. -/
def headLine (t : Tag) : Text :=
  match t.kind with
  | .brief => []
  | .param => withDash ("@param " ++ t.flaggedName ++ t.typeClause) t.description
  | .property => withDash ("@property " ++ t.flaggedName ++ t.typeClause) t.description
  | .return =>
    match t.name?, t.type? with
    | some _, _ => withDash ("@return " ++ t.flaggedName ++ t.typeClause) t.description
    | none, some type => withDash ("@return : " ++ type) t.description
    | none, none => withDash "@return" t.description
  | .throws => withText ("@throws " ++ '{' :: (t.nameText ++ ['}'])) t.description
  | .template =>
    match t.type? with
    | some bound => withDash ("@template " ++ t.nameText ++ " extends " ++ bound) t.description
    | none => withDash ("@template " ++ t.nameText) t.description
  | .usage => withText "@usage" t.description

/-- The lines of a snippet between its fences. -/
def snippetLines : Option Snippet → List Text
  | none => []
  | some s => ("```" ++ s.language) :: (lines s.body ++ ["```".toList])

/-- The lines of a tag. -/
def tagLines (c : Convention) (t : Tag) : List Text :=
  match t.kind with
  | .brief => []
  | .usage => t.headLine :: snippetLines t.snippet?
  | .throws => [t.headLine]
  | .template => t.headLine :: childLines c 1 t.children
  | .param => t.headLine :: childLines c 1 t.children
  | .property => t.headLine :: childLines c 1 t.children
  | .return => t.headLine :: childLines c 1 t.children

end Tag

namespace CommentBlock

/-- The lines of the brief and of the details, with a blank line between paragraphs. -/
def proseLines (b : CommentBlock) : List Text :=
  (b.brief?.toList.map Tag.description ++ b.details).intersperse []

/-- The lines of the asynchronous marker and of the tags. -/
def markedLines (c : Convention) (b : CommentBlock) : List Text :=
  (if b.asyncMarker then ["@async".toList] else []) ++ b.tags.flatMap (Tag.tagLines c)

/-- The lines of the interior. -/
def interiorLines (c : Convention) (b : CommentBlock) : List Text :=
  let prose := b.proseLines
  let marked := b.markedLines c
  if prose.isEmpty || marked.isEmpty then prose ++ marked else prose ++ [] :: marked

/-- The interior, without delimiters and leaders. -/
def renderInterior (c : Convention) (b : CommentBlock) : Text := join ['\n'] (b.interiorLines c)

/-- A line of the interior behind its leader. -/
def leaderLine (line : Text) : Text := if line.isEmpty then " *\n" else " * " ++ line ++ ['\n']

/-- The whole block with delimiters and leaders. -/
def render (c : Convention) (b : CommentBlock) : Text :=
  "/**\n" ++ (lines (b.renderInterior c)).flatMap leaderLine ++ " */"

end CommentBlock

end DocContract
