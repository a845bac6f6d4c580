import DocContract.Comment.Parse
import DocContract.DocBlock.Association
import DocContract.Schema.Check

/-!
# Validating a source file

The findings of a file: first the blocks that are open at its end, then for each symbol either that
its documentation is missing, that its block is never closed, or what is wrong with its block.
Within a block the defects of the text come before the findings of the schema.
-/

namespace DocContract

open Text

/-- Reads an extracted block; the comment keeps the place of the block. -/
def parseBlock (s : Settings) (b : DocBlock) : ParsedComment :=
  let parsed := parseLines s b.lines
  { parsed with
    block := { parsed.block with
      spanStart := b.spanStart, spanEnd := b.spanEnd,
      startLine := b.startLine, endLine := b.endLine } }

/-- The diagnostic of a block that is never closed. -/
def Unclosed.toDiagnostic (u : Unclosed) (file : Path) : Diagnostic :=
  Diagnostic.ofCode .malformedDelimiter file u.line u.column u.message

/-- The diagnostic of a defect of the text. -/
def errorDiagnostic (file : Path) (symbol : Text) (e : Located ParseError) : Diagnostic :=
  (Diagnostic.ofCode e.value.code file e.line e.column e.value.message).about symbol

/-- The diagnostic of a flaw of the text. -/
def warningDiagnostic (file : Path) (symbol : Text) (w : Located ParseWarning) : Diagnostic :=
  (Diagnostic.ofCode w.value.code file w.line w.column w.value.message).about symbol

/-- The wording of a missing block. -/
def missingDocMessage (s : Symbol) : Text :=
  (if s.isExported then "exported " else "internal ") ++ quoted s.name ++ " has no doc block"

/-- The diagnostic of a missing block. It is an error for an exported symbol and a warning for an
internal one that has to be documented. -/
def missingDoc (settings : Settings) (file : Path) (s : Symbol) : List Diagnostic :=
  let d := (Diagnostic.ofCode .missingDoc file s.declarationLine 1 (missingDocMessage s)).about s.id
  if s.isExported then [d.withSeverity .error]
  else if s.requiresDocs && settings.requireInternalDocs then [d.withSeverity .warning]
  else []

/-- The diagnostics of a comment that has been read. -/
def checkParsed (language : Language) (file : Path) (s : Symbol) (parsed : ParsedComment) :
    List Diagnostic :=
  parsed.errors.map (errorDiagnostic file s.id)
    ++ parsed.warnings.map (warningDiagnostic file s.id)
    ++ SchemaCheck.run ⟨language, s, parsed.block⟩ file

/-- The diagnostics of a symbol. -/
def validateSymbol (settings : Settings) (u : SourceUnit) (s : Symbol) (a : Association) :
    List Diagnostic :=
  match a with
  | .missing => missingDoc settings u.path s
  | .malformed unclosed => [(unclosed.toDiagnostic u.path).about s.id]
  | .found block => checkParsed u.language u.path s (parseBlock settings block)

/-- The diagnostics of a source file. -/
def validateUnit (settings : Settings) (u : SourceUnit) : Except Failure (List Diagnostic) :=
  u.extract.map fun e =>
    (e.orphans.map fun b => b.toDiagnostic u.path)
      ++ e.symbols.flatMap fun p => validateSymbol settings u p.1 p.2

end DocContract
