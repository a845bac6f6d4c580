import DocContract.Schema.Finding
import DocContract.Schema.Path

/-!
# Checking a comment against a signature

The checks of one comment, in the order of their findings: the brief and the asynchronous marker,
the templates, the parameters, the properties, the result, the errors and the usage snippets. A
nested path is expected only below a documented one, and never below a type that is documented
elsewhere.
-/

namespace DocContract

open Text

/-- The texts without repetition, in the order of their code points. -/
def sortedSet (ts : List Text) : List Text :=
  ts.eraseDups.mergeSort fun a b => (compare a b).isLE

/-- A finding at a tag. -/
def Tag.finding (t : Tag) (f : SchemaFinding) : Located SchemaFinding := ⟨t.line, t.column, f⟩

/-! ### Paths -/

/-- The place of the last path with a key. -/
def lastPlace? (signature : List SignaturePath) (key : Text) : Option Nat :=
  go 0 signature
where
  /-- Looks through the paths from place `i` on. -/
  go (i : Nat) : List SignaturePath → Option Nat
    | [] => none
    | p :: ps =>
      match go (i + 1) ps with
      | some j => some j
      | none => if p.key = key then some i else none

/-- Findings about a documented path that the signature has. -/
def matchedFindings (family : PathFamily) (d : DocPath) (p : SignaturePath) :
    List (Located SchemaFinding) :=
  (if d.tag.optional = p.optional then []
    else [d.tag.finding (.optionality family d.key p.optional)])
  ++ match d.tag.type?, p.type? with
    | some _, some type => [d.tag.finding (.typeRepeated family d.key type)]
    | _, _ => []

/-- Does the nearest key above that the signature has belong to an opaque type? Below such a type
the signature can neither confirm nor refute a path. -/
def isUnderOpaque (signature : List SignaturePath) (key : Text) : Bool :=
  match (keysAbove key).findSome? (lastPlace? signature) with
  | none => false
  | some i =>
    match signature[i]? with
    | none => false
    | some p => !p.structured

/-- Findings about a documented path that the signature does not have. -/
def unmatchedFindings (family : PathFamily) (signature : List SignaturePath) (d : DocPath) :
    List (Located SchemaFinding) :=
  (if isUnderOpaque signature d.key then [] else [d.tag.finding (.pathUnknown family d.key)])
  ++ (if d.tag.type?.isNone then [d.tag.finding (.typeUnresolved family d.key)] else [])

/-- Findings about documented paths, given the places that earlier ones have taken. -/
def documentedFindings (family : PathFamily) (signature : List SignaturePath) (seen : List Nat) :
    List DocPath → List (Located SchemaFinding)
  | [] => []
  | d :: ds =>
    match lastPlace? signature d.key with
    | none =>
      unmatchedFindings family signature d ++ documentedFindings family signature seen ds
    | some i =>
      (if seen.contains i then [d.tag.finding (.pathTwice family d.key)]
        else match signature[i]? with
          | none => []
          | some p => matchedFindings family d p)
      ++ documentedFindings family signature (i :: seen) ds

/-- The places of the signature that are documented. -/
def documentedPlaces (signature : List SignaturePath) (docs : List DocPath) : List Nat :=
  docs.filterMap fun d => lastPlace? signature d.key

/-- Is the path at a place, or one that encloses it, documented elsewhere? A path stands behind the
ones that enclose it. -/
def isElsewhere (signature : List SignaturePath) (i : Nat) : Bool :=
  match signature[i]? with
  | none => false
  | some p =>
    p.documentedElsewhere ||
      match p.parent? with
      | none => false
      | some up => if _h : up < i then isElsewhere signature up else false
termination_by i

/-- Should the path have been documented? A root always should; a nested path only when the path
around it is documented here and nothing above is documented elsewhere. -/
def isExpected (signature : List SignaturePath) (documented : List Nat) (p : SignaturePath) :
    Bool :=
  match p.parent? with
  | none => true
  | some up => documented.contains up && !isElsewhere signature up

/-- Findings about the paths of the signature from place `i` on that are not documented. -/
def missingFindings (family : PathFamily) (signature : List SignaturePath) (documented : List Nat)
    (place : Nat × Nat) (i : Nat) : List SignaturePath → List (Located SchemaFinding)
  | [] => []
  | p :: ps =>
    (if documented.contains i || p.optional || !isExpected signature documented p then []
      else [⟨place.1, place.2, .pathMissing family p.key⟩])
    ++ missingFindings family signature documented place (i + 1) ps

/-- Findings about the paths of a family. What is missing is reported at `place`, if it has to be
there at all. -/
def pathFindings (family : PathFamily) (docs : List DocPath) (signature : List SignaturePath)
    (place : Nat × Nat) (complete : Bool) : List (Located SchemaFinding) :=
  documentedFindings family signature [] docs
  ++ if complete then
      missingFindings family signature (documentedPlaces signature docs) place 0 signature
    else []

/-! ### The checks -/

/-- A comment and the signature that it is held against. -/
structure SchemaCheck where
  language : Language
  symbol : Symbol
  block : CommentBlock

namespace SchemaCheck

/-- The place of findings about what a comment lacks. -/
def anchor (c : SchemaCheck) : Nat × Nat := (max c.block.startLine 1, 1)

/-- A finding about what the comment lacks. -/
def lacking (c : SchemaCheck) (f : SchemaFinding) : Located SchemaFinding :=
  ⟨c.anchor.1, c.anchor.2, f⟩

/-- Does the comment have a brief that says something? -/
def hasBrief (c : SchemaCheck) : Bool :=
  c.block.brief?.any fun t => !isBlankText t.description

/-- Findings about the brief and the asynchronous marker. -/
def briefFindings (c : SchemaCheck) : List (Located SchemaFinding) :=
  (if c.hasBrief then [] else [c.lacking .briefMissing])
  ++ (if c.symbol.isAsync = c.block.asyncMarker then []
      else [c.lacking (if c.symbol.isAsync then .asyncMissing else .asyncUnexpected)])

/-- Findings about the template tags, given the generics that earlier ones name. -/
def templateTagFindings (generics seen : List Text) : List Tag → List (Located SchemaFinding)
  | [] => []
  | t :: ts =>
    let name := t.name?.getD []
    if !generics.contains name then
      t.finding (.templateUnknown name) :: templateTagFindings generics seen ts
    else if seen.contains name then
      t.finding (.templateTwice name) :: templateTagFindings generics seen ts
    else templateTagFindings generics (name :: seen) ts

/-- Findings about the templates. -/
def templateFindings (c : SchemaCheck) : List (Located SchemaFinding) :=
  let tags := c.block.tagsOf .template
  let documented := tags.map fun t => t.name?.getD []
  templateTagFindings c.symbol.generics [] tags
  ++ ((sortedSet c.symbol.generics).filter fun g => !documented.contains g).map fun g =>
      c.lacking (.templateMissing g)

/-- Findings about the parameters. -/
def parameterFindings (c : SchemaCheck) : List (Located SchemaFinding) :=
  pathFindings .parameter (docPaths (c.block.tagsOf .param)) (parameterPaths c.symbol.parameters)
    c.anchor true

/-- Findings about the properties. -/
def propertyFindings (c : SchemaCheck) : List (Located SchemaFinding) :=
  pathFindings .property (docPaths (c.block.tagsOf .property)) (fieldPaths c.symbol.fields)
    c.anchor true

/-- Findings about the fields of the result, at the tag of the result. -/
def returnFieldFindings (t : Tag) (type : TypeRef) : List (Located SchemaFinding) :=
  if type.fields.isEmpty then []
  else pathFindings .returnField (docPaths t.children) (fieldPaths type.fields) (t.line, t.column)
    (!type.documentedElsewhere)

/-- Findings about the first tag of the result. -/
def returnTagFindings (c : SchemaCheck) (t : Tag) : List (Located SchemaFinding) :=
  match c.symbol.returnType? with
  | none => []
  | some type =>
    (if t.type?.isSome && !isBlankText type.text then [t.finding (.returnTypeRepeated type.text)]
      else [])
    ++ returnFieldFindings t type

/-- Findings about the result. -/
def returnFindings (c : SchemaCheck) : List (Located SchemaFinding) :=
  match c.block.tagsOf .return with
  | [] => if c.symbol.returnsValue then [c.lacking .returnMissing] else []
  | t :: extra => (extra.map fun e => e.finding .returnTwice) ++ c.returnTagFindings t

/-- The findings about one errors tag. -/
def throwsTagFindings (raised : List Text) (t : Tag) : List (Located SchemaFinding) :=
  match t.name? with
  | none => []
  | some kind => if raised.contains kind then [] else [t.finding (.throwsUnused kind)]

/-- Findings about the errors. -/
def throwsFindings (c : SchemaCheck) : List (Located SchemaFinding) :=
  let tags := c.block.tagsOf .throws
  let documented := tags.filterMap Tag.name?
  (((sortedSet c.symbol.raiseKinds).filter fun k => !documented.contains k).map fun k =>
    c.lacking (.throwsMissing k))
  ++ tags.flatMap (throwsTagFindings c.symbol.raiseKinds)

/-- The findings about one usage tag. -/
def usageTagFindings (language : Language) (t : Tag) : List (Located SchemaFinding) :=
  match t.snippet? with
  | none => []
  | some s =>
    if language.acceptsFenceTag s.language then []
    else if s.language.isEmpty then [t.finding .snippetUntagged]
    else [t.finding (.snippetForeign s.language)]

/-- Findings about the usage snippets. -/
def usageFindings (c : SchemaCheck) : List (Located SchemaFinding) :=
  (c.block.tagsOf .usage).flatMap (usageTagFindings c.language)

/-- All findings of the schema. -/
def findings (c : SchemaCheck) : List (Located SchemaFinding) :=
  c.briefFindings ++ c.templateFindings ++ c.parameterFindings ++ c.propertyFindings
    ++ c.returnFindings ++ c.throwsFindings ++ c.usageFindings

/-- A finding as a diagnostic about the symbol in a file. -/
def toDiagnostic (c : SchemaCheck) (file : Path) (f : Located SchemaFinding) : Diagnostic :=
  (Diagnostic.ofCode f.value.code file f.line f.column
    (f.value.message c.symbol.name c.language)).about c.symbol.id

/-- The diagnostics of the schema. -/
def run (c : SchemaCheck) (file : Path) : List Diagnostic := c.findings.map (c.toDiagnostic file)

end SchemaCheck

end DocContract
