import DocContract.Comment.FieldLine
import DocContract.Comment.Tag
import DocContract.Diagnostic

/-!
# Defects of a comment

What can be wrong with the tags of one comment. A defect is kept as its cause; the code, the message
and the severity are read off it. A defect concerns one tag or one nested line, and the rest of the
comment is read as if it were not there.
-/

namespace DocContract

open Text

/-- A tag or a nested line that cannot be read. -/
inductive ParseError where
  /-- A sigil names no tag that is known. -/
  | unknownTag (name : Text)
  /-- The header of a tag of a known kind does not follow the grammar. -/
  | badHeader (kind : TagKind) (name rest : Text)
  /-- The header of a nested field does not follow the grammar. -/
  | badField (line : Text)
  /-- No fence follows a usage tag. -/
  | missingFence
  /-- The fence of a usage tag is not closed. -/
  | openFence
  deriving DecidableEq, Repr

/-- The form that a header should have. -/
def expectedForm : TagKind → Text
  | .param => "expected `name[?][: type] - description`"
  | .property => "expected `name[?][: type] - description`"
  | .return => "expected `[name][: type] - description`"
  | .throws => "expected `\x7bErrorKind\x7d description`"
  | .template => "expected `T - description`"
  | .brief => "unexpected header"
  | .usage => "unexpected header"

namespace ParseError

/-- The code of the finding. -/
def code : ParseError → DiagnosticCode
  | .unknownTag _ => .unknownTag
  | .badHeader _ _ _ => .badTagHeader
  | .badField _ => .badTagHeader
  | .missingFence => .unterminatedFence
  | .openFence => .unterminatedFence

/-- The wording of the finding. -/
def message : ParseError → Text
  | .unknownTag name => "unknown tag " ++ quoted ('@' :: name)
  | .badHeader kind name rest =>
    "cannot read " ++ quoted ('@' :: name ++ ' ' :: trim rest) ++ ": " ++ expectedForm kind
  | .badField line => "cannot read nested field " ++ quoted (trim line)
  | .missingFence => "`@usage` is not followed by a fenced snippet"
  | .openFence => "`@usage` snippet fence is never closed"

end ParseError

/-- A nested field that can be read but is not written as it should be. -/
inductive ParseWarning where
  /-- The marker belongs to another depth. -/
  | marker (level : Nat) (found : Marker)
  /-- The field is written in the other convention. -/
  | convention (found configured : Convention)
  /-- The field lies deeper than the limit. -/
  | depth (level limit : Nat)
  deriving DecidableEq, Repr

namespace ParseWarning

/-- The code of the finding. -/
def code : ParseWarning → DiagnosticCode
  | .marker _ _ => .markerStyle
  | .convention _ _ => .markerStyle
  | .depth _ _ => .depthExceeded

/-- The wording of the finding. -/
def message : ParseWarning → Text
  | .marker level found =>
    "depth " ++ ofNat level ++ " uses " ++ quoted [(Marker.ofDepth level).symbol]
      ++ " markers, found " ++ quoted [found.symbol]
  | .convention found configured =>
    "nested field written in " ++ found.name ++ " style, configured style is " ++ configured.name
  | .depth level limit =>
    "nested field depth " ++ ofNat level ++ " exceeds the limit of " ++ ofNat limit

end ParseWarning

/-- Something that was found at a line and a column. -/
structure Located (α : Type) where
  line : Nat
  column : Nat
  value : α
  deriving DecidableEq, Repr

end DocContract
