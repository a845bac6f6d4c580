import DocContract.Pattern.Bracket

/-!
# Patterns

The pattern that the name of a flow file has to match is a regular expression. A pattern is read
once over its text, with a stack of the groups that are open; it is refused when it breaks the
grammar, is nested too deeply or needs too many states. The last of these is an estimate.
-/

namespace DocContract

open Text

/-- A part of an expression. -/
structure PatternPart where
  regex : Regex
  /-- How deeply groups, repetitions, sequences and choices are nested in it. -/
  depth : Nat := 0
  /-- May the part be repeated? A change of flags may not. -/
  repeatable : Bool := true

/-- A group that is open, with what stands before it. -/
structure OpenGroup where
  parts : List PatternPart
  branches : List PatternPart
  flags : PatternFlags
  /-- Is its match recorded? -/
  recorded : Bool

/-- What has been read. -/
structure PatternReader where
  flags : PatternFlags := {}
  /-- The parts of the branch in progress, latest first. -/
  parts : List PatternPart := []
  /-- The branches of the group in progress that are complete, latest first. -/
  branches : List PatternPart := []
  groups : List OpenGroup := []
  /-- The names of groups. -/
  names : List Text := []

namespace PatternPart

/-- The greatest depth of some parts. -/
def maxDepth (parts : List PatternPart) : Nat := (parts.map PatternPart.depth).foldl max 0

/-- Some parts one after the other, latest first. -/
def sequence : List PatternPart → PatternPart
  | [] => ⟨.empty, 0, true⟩
  | [p] => p
  | parts =>
    ⟨(parts.map PatternPart.regex).reverse.foldr .sequence .empty, maxDepth parts + 1, true⟩

/-- One of some branches. -/
def choice : List PatternPart → PatternPart
  | [] => ⟨.empty, 0, true⟩
  | [p] => p
  | p :: more =>
    ⟨(more.map PatternPart.regex).foldl .choice p.regex, maxDepth (p :: more) + 1, true⟩

end PatternPart

namespace PatternReader

/-- The reader with one more part. -/
def push (s : PatternReader) (p : PatternPart) : PatternReader := { s with parts := p :: s.parts }

/-- The expression of the group in progress. -/
def body (s : PatternReader) : PatternPart :=
  .choice (.sequence s.parts :: s.branches)

/-- The reader after the last part has been repeated. -/
def repeat? (s : PatternReader) (least : Nat) (most : Option Nat) : Option PatternReader :=
  match s.parts with
  | p :: more =>
    if p.repeatable then
      some { s with parts := ⟨.repetition least most p.regex, p.depth + 1, true⟩ :: more }
    else none
  | [] => none

/-- The text behind a question mark, which only says that few rounds are preferred. -/
def skipLazy : Text → Text
  | '?' :: r => r
  | t => t

/-- The text from the first character on that is no blank; blanks never count around a count. -/
def skipBlanks (f : PatternFlags) (t : Text) : Text := f.skip (trimStart t)

/-- The digits of a count, with what does not count among them left out, and the rest. -/
def countDigits (f : PatternFlags) : Text → Text × Text
  | [] => ([], [])
  | c :: r =>
    if c.isDigit then
      let (digits, rest) := countDigits f r
      (c :: digits, rest)
    else if f.spaced && isBlank c then
      countDigits f r
    else ([], c :: r)

/-- A count, with the blanks around it; it has to fit in 32 bits. -/
def count? (f : PatternFlags) (t : Text) : Option (Nat × Text) :=
  let (digits, rest) := countDigits f (trimStart t)
  let n := digitsValue digits
  if digits.isEmpty || Nat.pow 2 32 ≤ n then none else some (n, skipBlanks f rest)

/-- The bounds of a counted repetition behind its brace. -/
def bounds? (f : PatternFlags) (t : Text) : Option (Nat × Option Nat × Text) :=
  (count? f (f.skip t)).bind fun (least, rest) =>
    match rest with
    | '}' :: r => some (least, some least, r)
    | ',' :: r =>
      match f.skip r with
      | '}' :: r => some (least, none, r)
      | r =>
        (count? f r).bind fun (most, rest) =>
          match rest with
          | '}' :: r => if least ≤ most then some (least, some most, r) else none
          | _ => none
    | _ => none

/-- May the character stand in the name of a group? -/
def isNameChar (first : Bool) (c : Char) : Bool :=
  if c == '_' then true
  else if first then (if c.toNat < 128 then c.isAlpha else isWord c && !isDigit c)
  else if c == '.' || c == '[' || c == ']' then true
  else if c.toNat < 128 then c.isAlphanum else isWord c

/-- The name of a group up to its closing angle. -/
def groupName? (t : Text) : Option (Text × Text) :=
  match Text.cut? ['>'] t with
  | some (c :: r, rest) =>
    if isNameChar true c && r.all (isNameChar false) then some (c :: r, rest) else none
  | _ => none

/-- Opens a group. -/
def opened (s : PatternReader) (recorded : Bool) (flags : PatternFlags) : PatternReader :=
  { s with
    flags := flags
    parts := []
    branches := []
    groups := ⟨s.parts, s.branches, s.flags, recorded⟩ :: s.groups }

/-- Opens a group with a name that no other group has. -/
def openNamed? (s : PatternReader) (t : Text) : Option (PatternReader × Text) :=
  (groupName? t).bind fun (name, rest) =>
    if s.names.contains name then none
    else some ({ s with names := name :: s.names }.opened true s.flags, rest)

/-- Opens a group behind its bracket, or changes the flags. Looking ahead and looking behind are
refused. -/
def group? (s : PatternReader) (t : Text) : Option (PatternReader × Text) :=
  match s.flags.skip t with
  | '?' :: '=' :: _ => none
  | '?' :: '!' :: _ => none
  | '?' :: '<' :: '=' :: _ => none
  | '?' :: '<' :: '!' :: _ => none
  | '?' :: 'P' :: '<' :: r => s.openNamed? r
  | '?' :: '<' :: r => s.openNamed? r
  | '?' :: r =>
    match s.flags.read? [] false r with
    | some (flags, _, ':' :: rest) => some (s.opened false flags, rest)
    | some (flags, true, ')' :: rest) =>
      some ({ s with flags := flags }.push ⟨.empty, 0, false⟩, rest)
    | _ => none
  | r => some (s.opened true s.flags, r)

/-- Closes the innermost group. -/
def close? (s : PatternReader) : Option PatternReader :=
  match s.groups with
  | [] => none
  | g :: groups =>
    let inner := s.body
    let regex := if g.recorded then .group inner.regex else inner.regex
    some { s with
      flags := g.flags
      parts := ⟨regex, inner.depth + 1, true⟩ :: g.parts
      branches := g.branches
      groups := groups }

/-- The set that a dot stands for. -/
def dotSet? (f : PatternFlags) : Option CharSet :=
  if !f.unicode then none
  else if f.dotAll then some .any
  else if f.returns then some (.complement (.union (.single '\n') (.single '\r')))
  else some (.complement (.single '\n'))

/-- The assertion of a caret. -/
def caret (f : PatternFlags) : Assertion :=
  if f.multiLine then (if f.returns then .returnLineStart else .lineStart) else .textStart

/-- The assertion of a dollar sign. -/
def dollar (f : PatternFlags) : Assertion :=
  if f.multiLine then (if f.returns then .returnLineEnd else .lineEnd) else .textEnd

/-- The effect of the element that begins with `c`; `r` is the text behind that character. -/
def element? (s : PatternReader) (c : Char) (r : Text) : Option (PatternReader × Text) :=
  let push (regex : Regex) (rest : Text) : Option (PatternReader × Text) :=
    some (s.push ⟨regex, 0, true⟩, rest)
  if c == '(' then s.group? r
  else if c == ')' then s.close?.map fun s => (s, r)
  else if c == '|' then
    some ({ s with parts := [], branches := .sequence s.parts :: s.branches }, r)
  else if c == '[' then
    (bracketAt? s.flags r).map fun (set, rest) => (s.push ⟨.one set, 1, true⟩, rest)
  else if c == '?' then (s.repeat? 0 (some 1)).map fun s => (s, skipLazy r)
  else if c == '*' then (s.repeat? 0 none).map fun s => (s, skipLazy r)
  else if c == '+' then (s.repeat? 1 none).map fun s => (s, skipLazy r)
  else if c == '{' then
    (bounds? s.flags r).bind fun (least, most, rest) =>
      (s.repeat? least most).map fun s => (s, skipLazy (s.flags.skip rest))
  else if c == '\\' then
    (escapeAt? s.flags r).bind fun (e, rest) => (e.toRegex? s.flags).bind fun x => push x rest
  else if c == '.' then (dotSet? s.flags).bind fun set => push (.one set) r
  else if c == '^' then push (.assertion (caret s.flags)) r
  else if c == '$' then push (.assertion (dollar s.flags)) r
  else (literalSet? s.flags c false).bind fun set => push (.one set) r

/-- Reads to the end. Every element takes at least one character, so the length of the text bounds
their number. -/
def read? : Nat → PatternReader → Text → Option PatternReader
  | 0, _, _ => none
  | fuel + 1, s, t =>
    match s.flags.skip t with
    | [] => some s
    | c :: r => (s.element? c r).bind fun (s, rest) => read? fuel s rest

end PatternReader

/-- A pattern with the expression that it writes. -/
structure Pattern where
  text : Text
  regex : Regex
  deriving Repr

namespace Pattern

/-- The greatest depth of an expression. -/
def maxDepth : Nat := 250

/-- The pattern that a text writes, if it is valid. -/
def ofText? (t : Text) : Option Pattern :=
  (PatternReader.read? (t.length + 1) {} t).bind fun s =>
    let whole := s.body
    if s.groups.isEmpty && whole.depth ≤ maxDepth && whole.regex.weight ≤ Regex.maxWeight then
      some ⟨t, whole.regex⟩
    else none

/-- Does some part of the text match the pattern? -/
def accepts (p : Pattern) (t : Text) : Bool := p.regex.matchesIn t

end Pattern

end DocContract
