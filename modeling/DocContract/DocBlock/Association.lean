import DocContract.DocBlock
import DocContract.Failure
import DocContract.SourceUnit

/-!
# Doc blocks and their symbols

A doc block belongs to the symbol declared below it when only blank lines lie between, or on the
line on which the block ends. The declaration above bounds the search, so no block is shared by two
declaration lines.
-/

namespace DocContract

/-- What is found of a symbol's documentation. -/
inductive Association where
  | found (block : DocBlock)
  | missing
  /-- The block that was meant for the symbol is never closed. -/
  | malformed (unclosed : Unclosed)

/-- The documentation of the symbols of a file. -/
structure Extraction where
  /-- One entry for each symbol, in order. -/
  symbols : List (Symbol × Association)
  /-- The blocks that are open at the end of the file. -/
  orphans : List Unclosed

namespace SourceUnit

/-- The lines on which symbols are declared. -/
def declarationLines (u : SourceUnit) : List Nat := u.symbols.map Symbol.declarationLine

/-- The first symbol that is declared outside the file. -/
def misplaced? (u : SourceUnit) : Option Symbol :=
  u.symbols.find? fun s => s.declarationLine == 0 || s.declarationLine > u.lineCount

/-- The nearest declaration above a line; zero if there is none. -/
def boundary (stops : List Nat) (line : Nat) : Nat := (stops.filter (· < line)).foldl max 0

/-- The block between a boundary and its end on a line. -/
def blockEndingOn? (blocks : List DocBlock) (boundary line : Nat) : Option DocBlock :=
  blocks.find? fun b => b.endLine == line && b.startLine > boundary

/-- The last line that is not blank between a boundary and a line. -/
def lastWritten? (lines : List SourceLine) (boundary line : Nat) : Option Nat :=
  ((lines.filter fun l => boundary < l.number && l.number < line && !l.isBlank).getLast?).map
    SourceLine.number

/-- The documentation of a symbol declared on a line. -/
def associate (stops : List Nat) (lines : List SourceLine) (scan : ScanResult) (line : Nat) :
    Association :=
  match scan.unclosed.find? fun u => u.stoppedAt? == some line with
  | some u => .malformed u
  | none =>
    let above := boundary stops line
    match blockEndingOn? scan.blocks above line with
    | some b => .found b
    | none =>
      match (lastWritten? lines above line).bind (blockEndingOn? scan.blocks above) with
      | some b => .found b
      | none => .missing

/-- The documentation of every symbol. A symbol that is declared outside the file is a failure. -/
def extract (u : SourceUnit) : Except Failure Extraction :=
  match u.misplaced? with
  | some s => .error (.symbolOutsideFile u.path s.name s.declarationLine u.lineCount)
  | none =>
    let stops := u.declarationLines
    let scan := scanBlocks stops u.text
    let lines := SourceLine.ofText u.text
    .ok {
      symbols := u.symbols.map fun s => (s, associate stops lines scan s.declarationLine)
      orphans := scan.unclosed.filter fun b => b.stoppedAt?.isNone }

end SourceUnit

end DocContract
