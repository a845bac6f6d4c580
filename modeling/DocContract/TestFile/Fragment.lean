import DocContract.TestFile.Masking

/-!
# Top-level fragments

The code of a test file is split into its top-level statements. A fragment begins at a character
that is neither blank nor a semicolon. It ends with a semicolon outside all brackets, or before the
first character of a later line when the newline outside all brackets can end a statement: the last
significant character before it does not ask for more, and the next one does not go on.
-/

namespace DocContract

/-- A place in a file; columns count bytes. -/
structure Position where
  line : Nat := 1
  column : Nat := 1
  deriving DecidableEq, Repr

namespace Position

/-- The place behind a character. -/
def advance (p : Position) (c : Char) : Position :=
  if c = '\n' then ⟨p.line + 1, 1⟩ else ⟨p.line, p.column + c.utf8Size⟩

end Position

/-- A top-level statement as it stands in the masked text. -/
structure Fragment where
  start : Position
  text : Text
  deriving DecidableEq, Repr

/-- A statement that is being read. -/
structure OpenFragment where
  start : Position
  /-- Its characters, latest first. -/
  read : Text

namespace OpenFragment

/-- The statement with one more character. -/
def push (o : OpenFragment) (c : Char) : OpenFragment := { o with read := c :: o.read }

/-- The statement that ends here. -/
def close (o : OpenFragment) : Fragment := ⟨o.start, o.read.reverse⟩

end OpenFragment

/-- Where the splitter is inside a statement. -/
inductive Nesting where
  /-- Inside a literal; `escaped` says that the next character is taken as it is. -/
  | literal (quote : Char) (escaped : Bool)
  | code
  deriving DecidableEq, Repr

/-- The state of the splitter. -/
structure Splitter where
  /-- The place of the next character. -/
  place : Position := {}
  /-- The number of brackets that are open. -/
  depth : Nat := 0
  nesting : Nesting := .code
  /-- The statement that is being read. -/
  open? : Option OpenFragment := none
  /-- The last character that is not blank. -/
  last? : Option Char := none
  /-- Was there a newline that ends the statement unless the next character goes on? -/
  atEnd : Bool := false

namespace Splitter

/-- The characters after which a statement goes on in the next line. -/
def asksForMore (c : Char) : Bool :=
  [',', '.', '=', '+', '-', '*', '/', '&', '|', '?', ':', '(', '[', '{'].contains c

/-- The characters that go on with the statement of an earlier line. -/
def goesOn (c : Char) : Bool := c == '.' || c == '?'

/-- The number of open brackets after a character. -/
def depthAfter (depth : Nat) (c : Char) : Nat :=
  if c == '(' || c == '[' || c == '{' then depth + 1
  else if c == ')' || c == ']' || c == '}' then depth - 1
  else depth

/-- The character belongs to the statement, if there is one. -/
def keep (s : Splitter) (c : Char) : Splitter :=
  { s with place := s.place.advance c, open? := s.open?.map (·.push c) }

/-- A character of a literal. -/
def inLiteral (s : Splitter) (quote : Char) (escaped : Bool) (c : Char) : Splitter :=
  let s := s.keep c
  if escaped then { s with nesting := .literal quote false }
  else if c == '\\' then { s with nesting := .literal quote true, last? := some c }
  else if endsLiteral quote c then { s with nesting := .code, last? := some c }
  else { s with last? := some c }

/-- A blank of the code. -/
def blank (s : Splitter) (c : Char) : Splitter :=
  let s := s.keep c
  if c == '\n' && s.depth == 0 && s.open?.isSome then
    { s with atEnd := !s.last?.any asksForMore }
  else s

/-- A character of the code, with the statement that it belongs to or opens. -/
def significant (s : Splitter) (o : OpenFragment) (c : Char) : Splitter × List Fragment :=
  let o := o.push c
  let s := { s with place := s.place.advance c, atEnd := false }
  if c == ';' && s.depth == 0 then ({ s with open? := none, last? := none }, [o.close])
  else
    ({ s with
        open? := some o
        last? := some c
        nesting := if isQuote c then .literal c false else .code
        depth := depthAfter s.depth c }, [])

/-- A character that is neither blank nor inside a literal, when no statement is open. -/
def begin (s : Splitter) (c : Char) : Splitter × List Fragment :=
  if c == ';' then ({ s with place := s.place.advance c, open? := none, atEnd := false }, [])
  else s.significant ⟨s.place, []⟩ c

/-- The effect of one character, and the statement that it ends. -/
def step (s : Splitter) (c : Char) : Splitter × List Fragment :=
  match s.nesting with
  | .literal quote escaped => (s.inLiteral quote escaped c, [])
  | .code =>
    if Text.isBlank c then (s.blank c, [])
    else
      match s.open? with
      | none => s.begin c
      | some o =>
        if s.atEnd && !goesOn c then
          let (s, found) := s.begin c
          (s, o.close :: found)
        else s.significant o c

/-- The statements that end in the text that follows. -/
def run (s : Splitter) : Text → List Fragment
  | [] => (s.open?.map OpenFragment.close).toList
  | c :: r =>
    let (s, found) := s.step c
    found ++ run s r

end Splitter

/-- The top-level statements of a masked text. -/
def fragments (masked : Text) : List Fragment := Splitter.run {} masked

end DocContract
