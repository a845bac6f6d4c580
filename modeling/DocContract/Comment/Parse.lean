import DocContract.Comment.Group

/-!
# Reading a comment

The lines before the first sigil line are paragraphs: the first one is the brief, the others are
details. The lines from the first sigil line on are tag groups.
-/

namespace DocContract

open Text

/-- A run of lines without a blank one, with the place of its first word. -/
structure Paragraph where
  line : Nat
  column : Nat
  text : Text
  deriving DecidableEq, Repr

/-- The paragraphs of some lines; the lines of a paragraph are trimmed and joined by spaces. -/
def paragraphs : List InteriorLine → List Paragraph
  | [] => []
  | l :: ls =>
    if l.isBlank then paragraphs ls
    else match ls, paragraphs ls with
      | next :: _, p :: ps =>
        if next.isBlank then ⟨l.line, l.contentColumn, trim l.text⟩ :: p :: ps
        else ⟨l.line, l.contentColumn, trim l.text ++ ' ' :: p.text⟩ :: ps
      | _, ps => ⟨l.line, l.contentColumn, trim l.text⟩ :: ps

/-- The brief that a paragraph is. -/
def Paragraph.toBrief (p : Paragraph) : Tag :=
  { Tag.ofKind .brief p.line p.column with description := p.text }

/-- A comment that has been read, with its defects. -/
structure ParsedComment where
  block : CommentBlock
  errors : List (Located ParseError)
  warnings : List (Located ParseWarning)

/-- Reads the interior lines of a comment. -/
def parseLines (s : Settings) (lines : List InteriorLine) : ParsedComment :=
  let preamble := paragraphs (lines.takeWhile fun l => l.sigil?.isNone)
  let out := Group.run s .skip (lines.dropWhile fun l => l.sigil?.isNone)
  { block :=
      { asyncMarker := out.asyncMarker
        details := preamble.tail.map Paragraph.text
        tags := (preamble.head?.toList.map Paragraph.toBrief) ++ out.tags }
    errors := out.errors
    warnings := out.warnings }

/-- The lines of a bare interior text: line numbers from one, column one, no trailing blanks. -/
def textLines (t : Text) : List InteriorLine :=
  go 1 (lines t)
where
  /-- Numbers the lines from `n` on. -/
  go (n : Nat) : List Text → List InteriorLine
    | [] => []
    | l :: ls => ⟨n, 1, trimEnd l⟩ :: go (n + 1) ls

/-- Reads a bare interior text. -/
def parseText (s : Settings) (t : Text) : ParsedComment :=
  let ls := textLines t
  let parsed := parseLines s ls
  if ls.isEmpty then parsed
  else { parsed with block := { parsed.block with startLine := 1, endLine := ls.length } }

end DocContract
