import DocContract.TestFile.Head

/-!
# Outlines

The outline of a test file: its top-level statements with their kinds and places, the titles of its
suites, and the test cases inside each suite. A title is a literal, or the `name` of a function; any
other title is computed, and the outline does not know it.
-/

namespace DocContract

open Text

/-- A test case of a suite. -/
structure TestCase where
  title : Text
  line : Nat
  deriving DecidableEq, Repr

/-- A top-level statement. -/
structure Statement where
  kind : StatementKind
  place : Position
  /-- The title of a suite, if it is not computed. -/
  title? : Option Text
  /-- The cases of a suite, those of inner suites included. -/
  cases : List TestCase
  deriving DecidableEq, Repr

/-- The top-level statements of a test file. -/
structure Outline where
  statements : List Statement
  deriving DecidableEq, Repr

namespace Outline

/-- The suites of a file. -/
def suites (o : Outline) : List Statement := o.statements.filter (·.kind == .suite)

end Outline

/-! ### Titles -/

/-- The title in a literal, with the rest behind its closing quote. A backslash stands for the
character behind it, which is no newline. -/
def literalTitle? (quote : Char) : Text → Option (Text × Text)
  | [] => none
  | '\\' :: c :: r =>
    if c = '\n' then none else (literalTitle? quote r).map fun p => (c :: p.1, p.2)
  | c :: r =>
    if c = quote then some ([], r)
    else if c = '\\' then none
    else (literalTitle? quote r).map fun p => (c :: p.1, p.2)

/-- The title that the `name` of a function gives, with the rest behind it. -/
def nameTitle? (t : Text) : Option (Text × Text) :=
  match t with
  | c :: r =>
    if isIdentHead c then
      match wordAt? ".name" (r.dropWhile isIdentTail) with
      | some rest => if endsWord rest then some (c :: r.takeWhile isIdentTail, rest) else none
      | none => none
    else none
  | [] => none

/-- The title that a text begins with, and the rest. -/
def title? (t : Text) : Option (Text × Text) :=
  match t with
  | c :: r => if isQuote c then literalTitle? c r else nameTitle? (c :: r)
  | [] => none

/-- The title in a call of one of some words, perhaps with a modifier. -/
def calledTitle? (words modifiers : List String) (t : Text) : Option (Text × Text) :=
  ((oneOfAt? words t).bind fun r => callAt? (knownModifier modifiers r)).bind
    fun r => title? (trimStart r)

/-- The title of a suite. -/
def suiteTitle? (t : Text) : Option Text :=
  (calledTitle? suiteWords ["only", "skip", "concurrent"] t).map (·.1)

/-- The title of the test case that a text begins with, and the rest. -/
def caseCall? (t : Text) : Option (Text × Text) :=
  calledTitle? caseWords ["only", "skip", "concurrent", "failing", "todo"] t

/-! ### Cases -/

/-- May a test case begin behind this character? -/
def precedesCase (c : Char) : Bool := !isIdentTail c && c != '.'

/-- The test cases in the text that follows. A case begins at the very start or behind a character
that allows it. The `skip` characters that the last case still covers are passed over, and the
character behind them is no start of a case either. -/
def casesFrom (line : Nat) (allowed : Bool) (skip : Nat) : Text → List TestCase
  | [] => []
  | c :: r =>
    let next := if c = '\n' then line + 1 else line
    match skip with
    | more + 1 => casesFrom next false more r
    | 0 =>
      match if allowed then caseCall? (c :: r) else none with
      | some (title, rest) =>
        ⟨title, line⟩ :: casesFrom next false (r.length - rest.length) r
      | none => casesFrom next (precedesCase c) 0 r

/-- The statement of a fragment. -/
def Fragment.toStatement (dbKeywords : List Text) (f : Fragment) : Statement :=
  let kind := classify dbKeywords f.text
  if kind = .suite then
    ⟨kind, f.start, suiteTitle? f.text, casesFrom f.start.line true 0 f.text⟩
  else ⟨kind, f.start, none, []⟩

/-- The outline of a test file. -/
def outline (dbKeywords : List Text) (t : Text) : Outline :=
  ⟨(fragments (maskComments t)).map (Fragment.toStatement dbKeywords)⟩

end DocContract
