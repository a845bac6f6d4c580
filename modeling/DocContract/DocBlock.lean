import DocContract.Comment.Group

/-!
# Doc blocks

A doc block opens with `/**` at the start of a line and closes with the next `*/`. The scan goes
over the lines of a file once. It skips plain comments, and it gives up a doc block that is still
open on a line where a symbol is declared, so that one unclosed block cannot swallow the rest of the
file.
-/

namespace DocContract

open Text

/-- A line of a source file. -/
structure SourceLine where
  /-- The number of the line, counted from one. -/
  number : Nat
  /-- The byte offset at which the line starts. -/
  offset : Nat
  /-- The text without the line break. -/
  text : Text
  deriving DecidableEq, Repr

namespace SourceLine

/-- Does the line hold nothing but blanks? -/
def isBlank (l : SourceLine) : Bool := isBlankText l.text

/-- The lines of a text from a number and an offset on, given its pieces between newlines. -/
def numbered (n offset : Nat) : List Text → List SourceLine
  | [] => []
  | piece :: r => ⟨n, offset, dropReturn piece⟩ :: numbered (n + 1) (offset + width piece + 1) r

/-- The lines of a text. Behind a final newline there is one more line, which is empty. -/
def ofText (t : Text) : List SourceLine := numbered 1 0 (rawLines t)

end SourceLine

/-- A doc block with its interior. -/
structure DocBlock where
  startLine : Nat
  endLine : Nat
  /-- The byte range from the opening to the end of the closing delimiter. -/
  spanStart : Nat
  spanEnd : Nat
  lines : List InteriorLine
  deriving DecidableEq, Repr

/-- An opening delimiter that no closing one answers. -/
structure Unclosed where
  line : Nat
  column : Nat
  /-- The line of the declaration at which the scan gave up; none at the end of the file. -/
  stoppedAt? : Option Nat
  deriving DecidableEq, Repr

/-- The wording of the finding. -/
def Unclosed.message (u : Unclosed) : Text :=
  match u.stoppedAt? with
  | some line => "doc block opened here is not closed before the declaration on line " ++ ofNat line
  | none => "doc block opened here is not closed before end of file"

/-! ### Delimiters and leaders -/

/-- The opening delimiter of a doc block. -/
def openMark : Text := "/**"

/-- The closing delimiter of every comment. -/
def closeMark : Text := "*/"

/-- The byte offset and the text behind the leader of a line and one space. A line without a leader,
or whose leader belongs to a closing delimiter, is left as it is. -/
def stripLeader (leader : Char) (line : Text) : Nat × Text :=
  match trimStart line with
  | c :: r =>
    if c = leader && !startsWith r ['/'] then
      let skip := Text.indent line + c.utf8Size
      match r with
      | ' ' :: t => (skip + 1, t)
      | t => (skip, t)
    else (0, line)
  | [] => (0, line)

/-- The interior line that remains of a line between the delimiters. -/
def interiorOf (number : Nat) (line : Text) : InteriorLine :=
  let (offset, text) := stripLeader '*' line
  ⟨number, offset + 1, trimEnd text⟩

/-- The interior line of the text behind the opening delimiter, if that text is not blank. -/
def firstInterior (number start : Nat) (t : Text) : List InteriorLine :=
  if isBlankText t then [] else [⟨number, start + Text.indent t + 1, trim t⟩]

/-- The interior line of the text in front of the closing delimiter, if that text is not blank. -/
def lastInterior (number : Nat) (t : Text) : List InteriorLine :=
  if isBlankText t then [] else [interiorOf number t]

/-! ### The scan -/

/-- A doc block that is being read. -/
structure OpenBlock where
  /-- The line of the opening delimiter. -/
  line : Nat
  /-- The blanks in front of it. -/
  indent : Nat
  spanStart : Nat
  /-- The interior so far, latest line first. -/
  interior : List InteriorLine

namespace OpenBlock

/-- The block that a closing delimiter completes, given the line of that delimiter and the text in
front of it. -/
def close (b : OpenBlock) (l : SourceLine) (before : Text) (last : List InteriorLine) : DocBlock :=
  { startLine := b.line
    endLine := l.number
    spanStart := b.spanStart
    spanEnd := l.offset + width before + width closeMark
    lines := b.interior.reverse ++ last }

/-- The report that the block is not closed. -/
def giveUp (b : OpenBlock) (stoppedAt? : Option Nat) : Unclosed :=
  ⟨b.line, b.indent + 1, stoppedAt?⟩

end OpenBlock

/-- Where the scan is. -/
inductive ScanState where
  | code
  /-- Inside a plain comment. -/
  | comment
  | doc (block : OpenBlock)

/-- What the scan finds. -/
structure ScanResult where
  blocks : List DocBlock := []
  unclosed : List Unclosed := []

namespace ScanResult

/-- The findings of some lines, then of others. -/
def append (a b : ScanResult) : ScanResult := ⟨a.blocks ++ b.blocks, a.unclosed ++ b.unclosed⟩

instance : Append ScanResult := ⟨append⟩

end ScanResult

namespace ScanState

/-- The effect of a line on which a doc block opens; `after` is the text behind the delimiter. -/
def openDoc (l : SourceLine) (after : Text) : ScanState × ScanResult :=
  let indent := Text.indent l.text
  let start := indent + width openMark
  match cut? closeMark after with
  | some (inner, _) =>
    let block : OpenBlock := ⟨l.number, indent, l.offset + indent, []⟩
    let before := leadingBlanks l.text ++ openMark ++ inner
    (.code, { blocks := [block.close l before (firstInterior l.number start inner)] })
  | none =>
    (.doc ⟨l.number, indent, l.offset + indent, (firstInterior l.number start after).reverse⟩, {})

/-- The effect of a line outside comments. -/
def codeLine (l : SourceLine) : ScanState × ScanResult :=
  let t := trimStart l.text
  match after? openMark t with
  | some after => if startsWith after ['/'] then (.code, {}) else openDoc l after
  | none =>
    match after? "/*" t with
    | some after => (if (cut? closeMark after).isSome then .code else .comment, {})
    | none => (.code, {})

/-- The effect of a line; `stops` are the lines on which symbols are declared. -/
def step (stops : List Nat) (state : ScanState) (l : SourceLine) : ScanState × ScanResult :=
  match state with
  | .code => codeLine l
  | .comment => (if (cut? closeMark l.text).isSome then .code else .comment, {})
  | .doc block =>
    if stops.contains l.number then
      let (next, found) := codeLine l
      (next, { unclosed := [block.giveUp (some l.number)] } ++ found)
    else match cut? closeMark l.text with
      | some (before, _) =>
        (.code, { blocks := [block.close l before (lastInterior l.number before)] })
      | none =>
        (.doc { block with interior := interiorOf l.number l.text :: block.interior }, {})

/-- What is found when the file ends. -/
def finish : ScanState → ScanResult
  | .code => {}
  | .comment => {}
  | .doc block => { unclosed := [block.giveUp none] }

/-- What is found on the lines that follow. -/
def run (stops : List Nat) (state : ScanState) : List SourceLine → ScanResult
  | [] => state.finish
  | l :: ls =>
    let (next, found) := step stops state l
    found ++ run stops next ls

end ScanState

/-- The doc blocks of a text, and the openings that are never closed. -/
def scanBlocks (stops : List Nat) (t : Text) : ScanResult :=
  ScanState.run stops .code (SourceLine.ofText t)

end DocContract
