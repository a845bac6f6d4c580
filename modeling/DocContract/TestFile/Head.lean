import DocContract.TestFile.Fragment
import DocContract.Text.WordClass

/-!
# Heads of statements

A top-level statement is classified by how it begins: an import, a suite, a test case, or a hook or
a declaration. Hooks and declarations set the file up, and those that mention a word for a database
set the database up.
-/

namespace DocContract

open Text

/-- The kinds of top-level statements. -/
inductive StatementKind where
  | importing
  | databaseSetup
  | fileSetup
  | suite
  /-- A test case outside every suite. -/
  | testCase
  | other
  deriving DecidableEq, Repr

namespace StatementKind

/-- The place of a kind in the layout of a unit test file; the kinds without one may stand
anywhere. -/
def rank? : StatementKind → Option Nat
  | .importing => some 0
  | .databaseSetup => some 1
  | .fileSetup => some 2
  | .suite => some 3
  | .testCase => none
  | .other => none

/-- The words for a kind in a message. -/
def label : StatementKind → Text
  | .importing => "import"
  | .databaseSetup => "database setup"
  | .fileSetup => "file-level setup"
  | .suite => "suite"
  | .testCase => "test case"
  | .other => "statement"

end StatementKind

/-! ### Readers

Each reader gives the rest of a text that begins as required. -/

/-- A given word. -/
def wordAt? (word : String) (t : Text) : Option Text := after? word.toList t

/-- The first of some words that begins the text. -/
def oneOfAt? (words : List String) (t : Text) : Option Text :=
  words.findSome? fun w => wordAt? w t

/-- At least one blank. -/
def blanksAt? : Text → Option Text
  | c :: r => if isBlank c then some (trimStart r) else none
  | [] => none

/-- An opening bracket after any blanks. -/
def callAt? (t : Text) : Option Text := wordAt? "(" (trimStart t)

/-- Does no word character follow? -/
def endsWord : Text → Bool
  | [] => true
  | c :: _ => !isWord c

/-- A dot and a word, if a dot follows. -/
def modifierAt? (t : Text) : Option Text :=
  match t with
  | '.' :: c :: r => if isWord c then some (r.dropWhile isWord) else none
  | t => some t

/-- A dot and one of some words, if one of them follows. -/
def knownModifier (words : List String) (t : Text) : Text :=
  match t with
  | '.' :: r => (oneOfAt? words r).getD t
  | t => t

/-! ### Heads -/

/-- The words that open a suite. -/
def suiteWords : List String := ["describe", "suite", "context"]

/-- The words that open a test case. -/
def caseWords : List String := ["it", "test"]

/-- The words that open a hook. -/
def hookWords : List String :=
  ["beforeAll", "beforeEach", "afterAll", "afterEach", "before", "after", "setup", "teardown"]

/-- The words that open a variable. -/
def variableWords : List String := ["const", "let", "var"]

/-- A variable whose initial value is a call of `require`. At least one character that is no equals
sign stands between the first blank and the equals sign. -/
def opensRequire (t : Text) : Bool :=
  match oneOfAt? variableWords t with
  | some (c :: d :: r) =>
    isBlank c && d != '=' &&
      match r.dropWhile (· != '=') with
      | _ :: value => ((wordAt? "require" (trimStart value)).bind callAt?).isSome
      | [] => false
  | _ => false

/-- Does the statement import? -/
def opensImport (t : Text) : Bool :=
  (wordAt? "import" t).any endsWord || ((wordAt? "require" t).bind callAt?).isSome
    || ((oneOfAt? ["jest.mock", "vi.mock"] t).bind callAt?).isSome || opensRequire t

/-- Does the statement call one of some words, perhaps with a modifier? -/
def opensCall (words : List String) (t : Text) : Bool :=
  (((oneOfAt? words t).bind modifierAt?).bind callAt?).isSome

/-- Does the statement call a hook? -/
def opensHook (t : Text) : Bool :=
  hookWords.any fun w => ((wordAt? w t).bind callAt?).isSome

/-- Is there a word that opens a declaration? -/
def declarationWord (t : Text) : Bool :=
  (oneOfAt? (variableWords ++ ["function", "class"]) t).any endsWord
    || (((wordAt? "async" t).bind blanksAt?).bind (wordAt? "function")).any endsWord

/-- Does the statement declare something? -/
def opensDeclaration (t : Text) : Bool :=
  declarationWord t || ((wordAt? "export" t).bind blanksAt?).any declarationWord

/-! ### Words of a statement -/

/-- The words of an identifier: a capital letter begins a new one. -/
def camelWords : Text → List Text
  | [] => []
  | [c] => [[c]]
  | c :: d :: r =>
    if d.isUpper then [c] :: camelWords (d :: r)
    else
      match camelWords (d :: r) with
      | [] => [[c]]
      | word :: words => (c :: word) :: words

/-- Does a word of the statement equal a keyword, up to the case of ASCII letters? -/
def mentionsAny (keywords : List Text) (t : Text) : Bool :=
  ((splitBy (fun c => !c.isAlphanum) t).flatMap camelWords).any fun word =>
    keywords.any fun k => eqIgnoringAsciiCase k word

/-- The kind of a statement. -/
def classify (dbKeywords : List Text) (t : Text) : StatementKind :=
  if opensImport t then .importing
  else if opensCall suiteWords t then .suite
  else if opensCall caseWords t then .testCase
  else if opensHook t || opensDeclaration t then
    if mentionsAny dbKeywords t then .databaseSetup else .fileSetup
  else .other

end DocContract
