import DocContract.Comment.Header
import DocContract.Settings

/-!
# Nested field lines and sigil lines

The two kinds of lines that have a meaning of their own inside a comment. A nested field starts with
a marker that is followed by a blank or a brace; its indentation says how deep it lies. A sigil line
starts with `@` and the name of a tag.
-/

namespace DocContract

open Text

/-- The marker of a nested field. The two alternate from one depth to the next. -/
inductive Marker where
  | dash
  | plus
  deriving DecidableEq, Repr

namespace Marker

/-- The marker that a character stands for. -/
def ofChar? (c : Char) : Option Marker :=
  if c = '-' then some .dash else if c = '+' then some .plus else none

/-- The marker that belongs to a depth; nested fields begin at depth one. -/
def ofDepth (depth : Nat) : Marker := if depth % 2 = 1 then .dash else .plus

/-- The character of a marker. -/
def symbol : Marker → Char
  | .dash => '-'
  | .plus => '+'

end Marker

/-- A nested field line in its parts. -/
structure FieldLine where
  /-- The width of the leading blanks. -/
  indent : Nat
  marker : Marker
  convention : Convention
  /-- The header, if it can be read. -/
  header? : Option Header
  deriving DecidableEq, Repr

namespace FieldLine

/-- Does the text after a marker make it a marker? -/
def opensField : Text → Bool
  | [] => false
  | c :: _ => isBlank c || c == '{'

/-- The convention of the content of a field line and its header. -/
def readContent (content : Text) : Convention × Option Header :=
  match content with
  | '{' :: _ => (.braceTyped, Header.braced? content)
  | _ => (.dashPlus, Header.ofNamed? true content)

/-- The nested field on a line, if the line starts with a marker. -/
def parse? (line : Text) : Option FieldLine :=
  match trimStart line with
  | [] => none
  | c :: r =>
    match Marker.ofChar? c with
    | none => none
    | some marker =>
      if opensField r then
        let (convention, header) := readContent (trim r)
        some ⟨Text.indent line, marker, convention, header⟩
      else none

end FieldLine

/-- A sigil line in its parts. -/
structure SigilLine where
  /-- The name of the tag. -/
  tag : Text
  /-- What follows the name and the blanks behind it. -/
  rest : Text
  deriving DecidableEq, Repr

namespace SigilLine

/-- The characters of a tag name after its first letter. -/
def isTagChar (c : Char) : Bool := isWord c || c == '-'

/-- The sigil line that a text without leading blanks is. The rest has to lie on one line. -/
def parse? (t : Text) : Option SigilLine :=
  match t with
  | '@' :: c :: r =>
    if c.isAlpha then
      let tag := c :: r.takeWhile isTagChar
      let after := r.dropWhile isTagChar
      match after with
      | [] => some ⟨tag, []⟩
      | b :: _ =>
        if isBlank b && !('\n' ∈ trimStart after) then some ⟨tag, trimStart after⟩ else none
    else none
  | _ => none

end SigilLine

end DocContract
