import DocContract.Pattern.Property
import DocContract.Pattern.Regex

/-!
# Flags and escapes

The flags of a regular expression and what a backslash stands for. A reader that finds an error has
no answer; which error it is does not matter, since any of them makes the whole expression invalid.
-/

namespace DocContract

open Text

/-- The flags that bear on how an expression is read. -/
structure PatternFlags where
  ignoreCase : Bool := false
  /-- Line assertions hold at every line. -/
  multiLine : Bool := false
  /-- The dot stands for newlines too. -/
  dotAll : Bool := false
  /-- A carriage return breaks lines. -/
  returns : Bool := false
  /-- Classes and word boundaries know all scripts. -/
  unicode : Bool := true
  /-- Blanks and comments do not count. -/
  spaced : Bool := false

namespace PatternFlags

/-- The flags with the one of a letter switched. The letter `U` changes which match is preferred and
so has no effect. -/
def set? (f : PatternFlags) (letter : Char) (on : Bool) : Option PatternFlags :=
  if letter == 'i' then some { f with ignoreCase := on }
  else if letter == 'm' then some { f with multiLine := on }
  else if letter == 's' then some { f with dotAll := on }
  else if letter == 'R' then some { f with returns := on }
  else if letter == 'u' then some { f with unicode := on }
  else if letter == 'x' then some { f with spaced := on }
  else if letter == 'U' then some f
  else none

/-- Reads letters up to a colon or a closing bracket. A minus sign, which may stand once and not at
the end, switches the flags behind it off; no letter may stand twice. Gives the flags, whether
anything was read, and the text from the colon or bracket on. -/
def read? (f : PatternFlags) (seen : List Char) (minus : Bool) :
    Text → Option (PatternFlags × Bool × Text)
  | [] => none
  | ['-'] => none
  | '-' :: c :: r =>
    if minus || c == ':' || c == ')' then none else read? f seen true (c :: r)
  | c :: r =>
    if c == ':' || c == ')' then some (f, !seen.isEmpty, c :: r)
    else if seen.contains c then none
    else (f.set? c (!minus)).bind fun g => read? g (c :: seen) minus r

/-- The text behind blanks and comments; a comment goes from a number sign to the end of its line.
-/
def skipSpaced (comment : Bool) : Text → Text
  | [] => []
  | c :: r =>
    if comment then skipSpaced (c != '\n') r
    else if isBlank c then skipSpaced false r
    else if c == '#' then skipSpaced true r
    else c :: r

/-- The text behind what does not count. -/
def skip (f : PatternFlags) (t : Text) : Text := if f.spaced then skipSpaced false t else t

end PatternFlags

/-- What an escape stands for. -/
inductive PatternEscape where
  /-- A character; `byte` says that it was written as one byte. -/
  | literal (c : Char) (byte : Bool)
  | set (s : CharSet)
  | assertion (a : Assertion)

/-- A given number of hexadecimal digits. -/
def hexDigitsAt? (f : PatternFlags) : Nat → Nat → Text → Option (Nat × Text)
  | 0, value, t => some (value, t)
  | n + 1, value, t =>
    match t with
    | [] => none
    | c :: r => (hexValue? c).bind fun d => hexDigitsAt? f n (16 * value + d) (f.skip r)

/-- The text up to a closing brace, without what does not count, and the text behind the brace. -/
def inBraces? (f : PatternFlags) (comment : Bool) : Text → Option (Text × Text)
  | [] => none
  | c :: r =>
    if comment then inBraces? f (c != '\n') r
    else if c == '}' then some ([], r)
    else if f.spaced && isBlank c then inBraces? f false r
    else if f.spaced && c == '#' then inBraces? f true r
    else (inBraces? f false r).map fun p => (c :: p.1, p.2)

/-- The number that hexadecimal digits write; there is at least one. -/
def hexNumber? : Text → Option Nat
  | [] => none
  | digits => digits.foldlM (fun value c => (hexValue? c).map fun d => 16 * value + d) 0

/-- A character given by its number in `digits` digits or between braces. -/
def numberedAt? (f : PatternFlags) (digits : Nat) (t : Text) : Option (PatternEscape × Text) :=
  match f.skip t with
  | '{' :: r =>
    (inBraces? f false r).bind fun p =>
      ((hexNumber? p.1).bind charOfNat?).map fun c => (.literal c false, f.skip p.2)
  | t =>
    (hexDigitsAt? f digits 0 t).bind fun v =>
      (charOfNat? v.1).map fun c => (.literal c (digits == 2), v.2)

/-- The members of a class, or of its complement. Without the Unicode flag a complement is refused,
since it would hold parts of characters. -/
def perlClass? (f : PatternFlags) (cls : CharClass) (negated : Bool) : Option CharSet :=
  if f.unicode then some (CharSet.negatedIf negated (.ofClass cls))
  else if negated then none
  else some (CharSet.asciiClass cls)

/-- The set of a property that is named between braces, perhaps with a value, and whether its
complement is meant. -/
def namedSet? (name : Text) : Option (CharSet × Bool) :=
  match Text.cut? ['!', '='] name with
  | some (property, value) => (CharSet.propertyValue? property value).map fun s => (s, true)
  | none =>
    match (Text.cut? [':'] name).or (Text.cut? ['='] name) with
    | some (property, value) => (CharSet.propertyValue? property value).map fun s => (s, false)
    | none => (CharSet.property? name).map fun s => (s, false)

/-- A Unicode property: one letter, or a name between braces. The characters are taken up to case
before the complement is. Without the Unicode flag there are no such classes. -/
def propertyAt? (f : PatternFlags) (negated : Bool) (t : Text) : Option (PatternEscape × Text) :=
  let answer (s : CharSet) (other : Bool) : PatternEscape :=
    .set (CharSet.negatedIf (negated != other) (CharSet.foldedIf f.ignoreCase s))
  if f.unicode then
    match f.skip t with
    | '{' :: r =>
      (inBraces? f false r).bind fun p =>
        (namedSet? p.1).map fun named => (answer named.1 named.2, p.2)
    | '\\' :: _ => none
    | c :: r => (CharSet.property? [c]).map fun s => (answer s false, f.skip r)
    | [] => none
  else none

/-- The assertion of a name between braces. -/
def namedBoundary? (ascii : Bool) (name : Text) : Option Assertion :=
  if name == "start".toList then some (.wordStart ascii)
  else if name == "end".toList then some (.wordEnd ascii)
  else if name == "start-half".toList then some (.wordStartHalf ascii)
  else if name == "end-half".toList then some (.wordEndHalf ascii)
  else none

/-- A word boundary, perhaps with a name between braces. Braces that hold no name are left for the
repetition that they may be. -/
def boundaryAt? (f : PatternFlags) (t : Text) : Option (PatternEscape × Text) :=
  let nameChar (c : Char) : Bool := c.isAlpha || c == '-'
  let plain : PatternEscape × Text := (.assertion (.wordBoundary !f.unicode), t)
  match t with
  | '{' :: r =>
    match f.skip r with
    | [] => none
    | c :: r =>
      if nameChar c then
        (inBraces? f false (c :: r)).bind fun p =>
          (namedBoundary? (!f.unicode) p.1).map fun a => (.assertion a, p.2)
      else some plain
  | _ => some plain

/-- The characters that mean something in an expression. -/
def isPatternMeta (c : Char) : Bool :=
  ("\\.+*?()|[]\x7b\x7d^$#&-~").toList.contains c

/-- May the character be escaped without need? -/
def mayEscape (c : Char) : Bool :=
  isPatternMeta c || (c.toNat < 128 && !c.isAlphanum && c != '<' && c != '>')

/-- The control character of a letter. -/
def controlOf? (c : Char) : Option Char :=
  if c == 'a' then some '\x07'
  else if c == 'f' then some '\x0c'
  else if c == 't' then some '\t'
  else if c == 'n' then some '\n'
  else if c == 'r' then some '\r'
  else if c == 'v' then some '\x0b'
  else none

/-- The class of a letter, and whether the letter stands for the complement. -/
def classOf? (c : Char) : Option (CharClass × Bool) :=
  if c == 'd' then some (.digit, false)
  else if c == 'D' then some (.digit, true)
  else if c == 's' then some (.space, false)
  else if c == 'S' then some (.space, true)
  else if c == 'w' then some (.word, false)
  else if c == 'W' then some (.word, true)
  else none

/-- The assertion of a letter or sign. -/
def assertionOf? (f : PatternFlags) (c : Char) : Option Assertion :=
  if c == 'A' then some .textStart
  else if c == 'z' then some .textEnd
  else if c == 'B' then some (.noWordBoundary !f.unicode)
  else if c == '<' then some (.wordStart !f.unicode)
  else if c == '>' then some (.wordEnd !f.unicode)
  else none

/-- What a backslash stands for, given the text behind it. -/
def escapeAt? (f : PatternFlags) : Text → Option (PatternEscape × Text)
  | [] => none
  | c :: r =>
    if c == 'x' then numberedAt? f 2 r
    else if c == 'u' then numberedAt? f 4 r
    else if c == 'U' then numberedAt? f 8 r
    else if c == 'p' then propertyAt? f false r
    else if c == 'P' then propertyAt? f true r
    else if c == 'b' then boundaryAt? f r
    else if mayEscape c then some (.literal c false, r)
    else match classOf? c with
      | some (cls, negated) => (perlClass? f cls negated).map fun s => (.set s, r)
      | none =>
        match controlOf? c with
        | some control => some (.literal control false, r)
        | none => (assertionOf? f c).map fun a => (.assertion a, r)

/-- May the character stand for itself under the flags? -/
def literalAllowed (f : PatternFlags) (c : Char) (byte : Bool) : Bool :=
  f.unicode || c.toNat < 128 || (!byte && !f.ignoreCase)

/-- The set of a literal character. -/
def literalSet? (f : PatternFlags) (c : Char) (byte : Bool) : Option CharSet :=
  if literalAllowed f c byte then some (.foldedIf f.ignoreCase (.single c)) else none

/-- The expression of an escape. -/
def PatternEscape.toRegex? (f : PatternFlags) : PatternEscape → Option Regex
  | .literal c byte => (literalSet? f c byte).map .one
  | .set s => some (.one s)
  | .assertion a => some (.assertion a)

end DocContract
