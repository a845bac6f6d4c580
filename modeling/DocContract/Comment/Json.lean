import DocContract.Comment.Tag
import DocContract.Json.Record

/-!
# Comments in JSON

The JSON form of a tag leaves out a snippet that is missing and a list of children that is empty.
Reading is stricter than writing: the list of children has to be there.
-/

namespace DocContract

/-- The JSON form of a snippet. -/
def Snippet.toJson (s : Snippet) : Json :=
  .object [("language", .string s.language), ("body", .string s.body)]

/-- The member of a snippet, if there is one. -/
def snippetMember : Option Snippet → List (Text × Json)
  | none => []
  | some s => [("snippet", s.toJson)]

/-- The member of the children, if there are any. -/
def childrenMember (children : List Json) : List (Text × Json) :=
  if children.isEmpty then [] else [("children", .array children)]

mutual
/-- The JSON form of a tag. -/
def Tag.toJson : Tag → Json
  | ⟨kind, name, description, type, optional, depth, line, column, snippet, children⟩ =>
    .object (("kind", .string kind.name) :: ("name", Json.ofText? name)
      :: ("description", .string description) :: ("ty", Json.ofText? type)
      :: ("optional", .bool optional) :: ("depth", .nat depth) :: ("line", .nat line)
      :: ("column", .nat column)
      :: (snippetMember snippet ++ childrenMember (tagsToJson children)))

/-- The JSON forms of tags. -/
def tagsToJson : List Tag → List Json
  | [] => []
  | t :: ts => t.toJson :: tagsToJson ts
end

/-- The JSON form of a comment. -/
def CommentBlock.toJson (b : CommentBlock) : Json :=
  .object [("span", .object [("start", .nat b.spanStart), ("end", .nat b.spanEnd)]),
    ("start_line", .nat b.startLine), ("end_line", .nat b.endLine),
    ("async_marker", .bool b.asyncMarker), ("details", .ofTexts b.details),
    ("tags", .array (tagsToJson b.tags))]

/-- Reads a snippet. -/
def Snippet.ofJson? (j : Json) : Option Snippet :=
  match Json.record? [.required "language", .required "body"] j with
  | some [language, body] => do
    return {
      language := ← Json.need? Json.asText? language
      body := ← Json.need? Json.asText? body }
  | _ => none

/-- Reads the kind of a tag. -/
def TagKind.ofJson? (j : Json) : Option TagKind := (Json.asName? j).bind TagKind.ofName?

/-- The members of a tag. -/
def Tag.members : List Json.MemberSpec :=
  [.required "kind", .required "name", .required "description", .required "ty",
   .required "optional", .required "depth", .required "line", .required "column",
   .required "snippet", .required "children"]

mutual
/-- Reads a tag. -/
def Tag.ofJson? (j : Json) : Option Tag :=
  match _hr : Json.record? Tag.members j with
  | some [kind, name, description, type, optional, depth, line, column, snippet,
      some (.array children)] => do
    return {
      kind := ← Json.need? TagKind.ofJson? kind
      name? := ← Json.orNull? Json.asText? name
      description := ← Json.need? Json.asText? description
      type? := ← Json.orNull? Json.asText? type
      optional := ← Json.need? Json.asBool? optional
      depth := ← Json.need? Json.asNat? depth
      line := ← Json.need? Json.asNat? line
      column := ← Json.need? Json.asNat? column
      snippet? := ← Json.orNull? Snippet.ofJson? snippet
      children := ← tagsOfJson? children }
  | _ => none
termination_by sizeOf j
decreasing_by
  have := Json.sizeOf_lt_of_record? _hr (v := .array children) (by simp)
  simp only [Json.array.sizeOf_spec] at this
  omega

/-- Reads tags. -/
def tagsOfJson? (items : List Json) : Option (List Tag) :=
  match items with
  | [] => some []
  | v :: vs => do
    let t ← Tag.ofJson? v
    let ts ← tagsOfJson? vs
    return t :: ts
termination_by sizeOf items
end

/-- Reads an array of tags. -/
def tagListOfJson? : Json → Option (List Tag)
  | .array items => tagsOfJson? items
  | _ => none

/-- Has the value no members but those of a byte range? -/
def isSpanShaped : Json → Bool
  | .object members => members.all fun m => m.1 == "start".toList || m.1 == "end".toList
  | _ => true

/-- Reads a byte range, which tolerates no unknown members. -/
def spanOfJson? (j : Json) : Option (Nat × Nat) :=
  match Json.record? [.required "start", .required "end"] j with
  | some [first, last] => do
    let first ← Json.need? Json.asNat? first
    let last ← Json.need? Json.asNat? last
    if isSpanShaped j then return (first, last) else none
  | _ => none

/-- The members of a comment. -/
def CommentBlock.members : List Json.MemberSpec :=
  [.required "span", .required "start_line", .required "end_line", .required "async_marker",
   .required "details", .required "tags"]

/-- Reads a comment. -/
def CommentBlock.ofJson? (j : Json) : Option CommentBlock :=
  match Json.record? CommentBlock.members j with
  | some [span, startLine, endLine, asyncMarker, details, tags] => do
    let (spanStart, spanEnd) ← Json.need? spanOfJson? span
    return {
      spanStart, spanEnd
      startLine := ← Json.need? Json.asNat? startLine
      endLine := ← Json.need? Json.asNat? endLine
      asyncMarker := ← Json.need? Json.asBool? asyncMarker
      details := ← Json.need? (Json.asList? Json.asText?) details
      tags := ← Json.need? tagListOfJson? tags }
  | _ => none

end DocContract
