import DocContract.Text.WordClass

/-!
# Headers

The header grammar of sigil lines and nested fields:

    @param    name[?][: type] - description
    @property name[?][: type] - description
    @return   [name[?]][: type] - description
    @throws   {Kind} [-] description
    @template T [extends bound] - description
    - name[?][: type] [- description]
    - {type} name[?] [- description]

A separator is a dash with a blank in front of it and a blank or the end behind it. The first
separator after the type's first character ends the type. A type lies on one line, and so does a
description. A type that turns out blank counts as absent.
-/

namespace DocContract

/-- The parts of a header. -/
structure Header where
  name? : Option Text
  type? : Option Text
  optional : Bool
  description : Text
  deriving DecidableEq, Repr

namespace Header

open Text

/-! ### Names -/

/-- An identifier: a letter, an underscore or a dollar sign, then word characters and dollar
signs. -/
def isIdentifier : Text → Bool
  | [] => false
  | c :: r => isIdentHead c && r.all isIdentTail

/-- The segment without one element marker at its end. -/
def dropElementMark (segment : Text) : Text :=
  match segment.reverse with
  | ']' :: '[' :: r => r.reverse
  | _ => segment

/-- An identifier that may carry an element marker. -/
def isSegment (segment : Text) : Bool := isIdentifier (dropElementMark segment)

/-- A name: segments joined by dots. -/
def isName (t : Text) : Bool := (splitOn '.' t).all isSegment

/-- The characters that occur in names. -/
def isNameChar (c : Char) : Bool := isIdentTail c || c == '.' || c == '[' || c == ']'

/-- The question mark of an optional name, and the rest. -/
def flag (t : Text) : Bool × Text :=
  match t with
  | '?' :: r => (true, r)
  | _ => (false, t)

/-! ### Separators -/

/-- The description after the dash of a separator: nothing, or what follows the blanks if it lies on
one line. -/
def afterDash? (t : Text) : Option Text :=
  match t with
  | [] => some []
  | c :: r =>
    if isBlank c then
      let description := trimStart r
      if '\n' ∈ description then none else some description
    else none

/-- The description behind the separator at the start of the text. -/
def separator? (t : Text) : Option Text :=
  match t with
  | [] => none
  | c :: r =>
    if isBlank c then
      match trimStart r with
      | '-' :: d => afterDash? d
      | _ => none
    else none

/-- The text in front of the first separator, if that text lies on one line, and the description
behind it. When `bare` holds, the end of the text serves as a separator too. -/
def splitSeparator? (bare : Bool) : Text → Option (Text × Text)
  | [] => if bare then some ([], []) else none
  | c :: r =>
    match separator? (c :: r) with
    | some d => some ([], d)
    | none =>
      if c == '\n' then none
      else (splitSeparator? bare r).map fun p => (c :: p.1, p.2)

/-- The type and the description after a colon, given the blanks behind the colon that the type may
use up and the text after all blanks. The first character always belongs to the type, unless it is
the dash of a separator and a blank other than a newline is left to stand for the type. -/
def typed? (bare : Bool) (blanks t : Text) : Option (Option Text × Text) :=
  match t with
  | [] => none
  | c :: r =>
    match splitSeparator? bare r with
    | some (rest, d) => some (some (c :: rest), d)
    | none =>
      if c == '-' && blanks.dropLast.any (· != '\n') then (afterDash? r).map fun d => (none, d)
      else none

/-- The description after a name and its flag when no type is written. -/
def untyped? (bare : Bool) (t : Text) : Option Text :=
  if bare && t.isEmpty then some [] else separator? t

/-- The type and the description after a name and its flag. -/
def afterName? (bare : Bool) (t : Text) : Option (Option Text × Text) :=
  match trimStart t with
  | ':' :: r => typed? bare (leadingBlanks r) (trimStart r)
  | _ => (untyped? bare t).map fun d => (none, d)

/-! ### Headers -/

/-- A header with a name, already trimmed. -/
def ofNamed? (bare : Bool) (t : Text) : Option Header :=
  let name := t.takeWhile isNameChar
  if isName name then
    let (optional, r) := flag (t.dropWhile isNameChar)
    (afterName? bare r).map fun p => ⟨some name, p.1, optional, p.2⟩
  else none

/-- The header of a parameter or a property. -/
def named? (t : Text) : Option Header := ofNamed? false (trim t)

/-- The header of a result: it may begin with the type or the dash, and has a name otherwise. -/
def returned? (t : Text) : Option Header :=
  match trim t with
  | ':' :: r =>
    (typed? false (leadingBlanks r) (trimStart r)).map fun p => ⟨none, p.1, false, p.2⟩
  | '-' :: r => (afterDash? r).map fun d => ⟨none, none, false, d⟩
  | t => ofNamed? false t

/-- The description after the braces of an error kind: a dash in front of it may be left out. -/
def afterKind? (t : Text) : Option Text :=
  let dashed :=
    match trimStart t with
    | '-' :: r => afterDash? r
    | _ => none
  match dashed with
  | some d => some d
  | none => afterDash? t

/-- The header of an error: its kind in braces, which becomes the name. -/
def thrown? (t : Text) : Option Header :=
  match trim t with
  | '{' :: r =>
    let kind := r.takeWhile (· != '}')
    match r.dropWhile (· != '}') with
    | '}' :: rest =>
      if kind.isEmpty || '{' ∈ kind then none
      else (afterKind? rest).map fun d => ⟨trimmed? kind, none, false, d⟩
    | _ => none
  | _ => none

/-- The bound and the description after the name of a template. -/
def afterTemplate? (t : Text) : Option (Option Text × Text) :=
  match separator? t with
  | some d => some (none, d)
  | none =>
    if (leadingBlanks t).isEmpty then none
    else match after? "extends" (trimStart t) with
      | none => none
      | some r =>
        if (leadingBlanks r).isEmpty then none
        else typed? false (leadingBlanks r).tail (trimStart r)

/-- The header of a template; the name may stand between angle brackets, and the bound is kept as
the type. -/
def template? (t : Text) : Option Header :=
  let t := trim t
  let t := (after? ['<'] t).getD t
  let name := t.takeWhile isIdentTail
  if isIdentifier name then
    let r := t.dropWhile isIdentTail
    (afterTemplate? ((after? ['>'] r).getD r)).map fun p => ⟨some name, p.1, false, p.2⟩
  else none

/-! ### Braced types -/

/-- The text up to the brace that closes `depth` open ones, and what follows that brace. -/
def splitClosing? (depth : Nat) : Text → Option (Text × Text)
  | [] => none
  | c :: r =>
    if c == '{' then (splitClosing? (depth + 1) r).map fun p => (c :: p.1, p.2)
    else if c == '}' then
      if depth == 0 then some ([], r)
      else (splitClosing? (depth - 1) r).map fun p => (c :: p.1, p.2)
    else (splitClosing? depth r).map fun p => (c :: p.1, p.2)

/-- Splits a text that starts with a brace at the brace that closes it. -/
def splitBraced? (t : Text) : Option (Text × Text) :=
  match t with
  | '{' :: r => splitClosing? 0 r
  | _ => none

/-- The header of a nested field whose type comes first in braces. -/
def braced? (t : Text) : Option Header :=
  match splitBraced? t with
  | none => none
  | some (type, rest) =>
    let rest := trim rest
    let name := rest.takeWhile isNameChar
    if isName name then
      let (optional, r) := flag (rest.dropWhile isNameChar)
      (untyped? true r).map fun d => ⟨some name, trimmed? type, optional, d⟩
    else none

end Header

end DocContract
