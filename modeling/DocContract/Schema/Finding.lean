import DocContract.Comment.Defect
import DocContract.Language
import DocContract.Signature

/-!
# Findings of the schema

What a comment and the signature below it can disagree about. A finding names its subject; its code,
which fixes the severity, and its wording are read off it.
-/

namespace DocContract

open Text

/-- The three kinds of paths that a signature exposes. -/
inductive PathFamily where
  | parameter
  | property
  | returnField
  deriving DecidableEq, Repr

namespace PathFamily

/-- The word for a path of the family. -/
def noun : PathFamily → Text
  | .parameter => "parameter"
  | .property => "property"
  | .returnField => "return field"

/-- The code for a documented path that the signature does not have. -/
def unknownCode : PathFamily → DiagnosticCode
  | .parameter => .unknownParam
  | .property => .unknownProperty
  | .returnField => .returnFieldUnknown

/-- The code for a path of the signature that is not documented. -/
def missingCode : PathFamily → DiagnosticCode
  | .parameter => .paramMissing
  | .property => .propertyMissing
  | .returnField => .returnFieldMissing

end PathFamily

/-- A disagreement between a comment and a signature. -/
inductive SchemaFinding where
  | briefMissing
  /-- The symbol is asynchronous, the comment does not say so. -/
  | asyncMissing
  /-- The comment says asynchronous, the symbol is not. -/
  | asyncUnexpected
  | templateUnknown (name : Text)
  | templateTwice (name : Text)
  | templateMissing (name : Text)
  | pathTwice (family : PathFamily) (key : Text)
  | pathMissing (family : PathFamily) (key : Text)
  | pathUnknown (family : PathFamily) (key : Text)
  /-- One side says optional, the other required. -/
  | optionality (family : PathFamily) (key : Text) (inSignature : Bool)
  /-- The comment repeats a type that the signature shows. -/
  | typeRepeated (family : PathFamily) (key type : Text)
  /-- Neither the comment nor the signature gives the type. -/
  | typeUnresolved (family : PathFamily) (key : Text)
  | returnTwice
  | returnMissing
  | returnTypeRepeated (type : Text)
  | throwsMissing (kind : Text)
  | throwsUnused (kind : Text)
  /-- A snippet without a fence tag. -/
  | snippetUntagged
  /-- A snippet whose fence tag belongs to another language. -/
  | snippetForeign (tag : Text)
  deriving DecidableEq, Repr

namespace SchemaFinding

/-- The code of a finding. -/
def code : SchemaFinding → DiagnosticCode
  | .briefMissing => .briefMissing
  | .asyncMissing => .asyncMarkerMismatch
  | .asyncUnexpected => .asyncMarkerMismatch
  | .templateUnknown _ => .templateMismatch
  | .templateTwice _ => .templateMismatch
  | .templateMissing _ => .templateMismatch
  | .pathTwice _ _ => .duplicateTag
  | .pathMissing family _ => family.missingCode
  | .pathUnknown family _ => family.unknownCode
  | .optionality _ _ _ => .optionalityMismatch
  | .typeRepeated _ _ _ => .redundantType
  | .typeUnresolved _ _ => .unresolvedType
  | .returnTwice => .duplicateReturn
  | .returnMissing => .returnMissing
  | .returnTypeRepeated _ => .redundantType
  | .throwsMissing _ => .throwsMissing
  | .throwsUnused _ => .throwsUnused
  | .snippetUntagged => .languageTagMismatch
  | .snippetForeign _ => .languageTagMismatch

/-- The word for an optional or a required path. -/
def optionalWord (optional : Bool) : Text := if optional then "optional" else "required"

/-- An error kind with its tag and its braces. -/
def throwsForm (kind : Text) : Text := "`@throws " ++ '{' :: (kind ++ "\x7d`")

/-- The wording of a finding about a symbol of a name in a language. -/
def message (symbol : Text) (language : Language) : SchemaFinding → Text
  | .briefMissing => "doc block for " ++ quoted symbol ++ " has no brief summary line"
  | .asyncMissing => quoted symbol ++ " is async but its doc block has no `@async` marker"
  | .asyncUnexpected => quoted symbol ++ " is not async but its doc block has an `@async` marker"
  | .templateUnknown name =>
    quoted ("@template " ++ name) ++ " does not name a generic parameter"
  | .templateTwice name => "generic parameter " ++ quoted name ++ " is documented twice"
  | .templateMissing name => "generic parameter " ++ quoted name ++ " has no `@template` entry"
  | .pathTwice family key => family.noun ++ " " ++ quoted key ++ " is documented more than once"
  | .pathMissing family key =>
    family.noun ++ " " ++ quoted key ++ " of " ++ quoted symbol ++ " is not documented"
  | .pathUnknown family key =>
    family.noun ++ " " ++ quoted key ++ " does not exist on " ++ quoted symbol
  | .optionality family key inSignature =>
    family.noun ++ " " ++ quoted key ++ " is documented as " ++ optionalWord (!inSignature)
      ++ " but is " ++ optionalWord inSignature ++ " in the signature"
  | .typeRepeated family key type =>
    "type of " ++ family.noun ++ " " ++ quoted key ++ " is already visible in the signature as "
      ++ quoted type
  | .typeUnresolved family key =>
    "type of " ++ family.noun ++ " " ++ quoted key
      ++ " is elided and no signature path provides it"
  | .returnTwice => "only one `@return` entry is allowed"
  | .returnMissing => quoted symbol ++ " returns a value but has no `@return` entry"
  | .returnTypeRepeated type =>
    "return type is already visible in the signature as " ++ quoted type
  | .throwsMissing kind =>
    quoted symbol ++ " can raise " ++ quoted kind ++ " but has no " ++ throwsForm kind ++ " entry"
  | .throwsUnused kind =>
    throwsForm kind ++ " is documented but " ++ quoted symbol ++ " is not known to raise it"
  | .snippetUntagged =>
    "usage snippet has no language tag, expected one of " ++ join ", " language.fenceTags
  | .snippetForeign tag =>
    "usage snippet is tagged " ++ quoted tag ++ " but " ++ quoted symbol ++ " is "
      ++ language.displayName ++ " code"

end SchemaFinding

end DocContract
