import DocContract.Toml.Quoted
import DocContract.Toml.Scalar
import DocContract.Toml.Table

/-!
# Reading TOML

A document is a sequence of lines, each an assignment, a header or nothing. `parse?` reads them in
order and has no answer when any of them is malformed or redefines something.
-/

namespace DocContract.Toml

open Text

/-- The text behind blanks, newlines and comments. -/
def gap? (comment : Bool) : Text → Option Text
  | [] => some []
  | '\r' :: '\n' :: r => gap? false r
  | c :: r =>
    if c == '\n' then gap? false r
    else if comment then (if isPlain c then gap? true r else none)
    else if c == ' ' || c == '\t' then gap? false r
    else if c == '#' then gap? true r
    else some (c :: r)

/-- The text behind the end of a line, which blanks and a comment may precede. -/
def lineEnd? (t : Text) : Option Text :=
  match skipBlanks t with
  | [] => some []
  | '#' :: r =>
    match r.dropWhile isPlain with
    | [] => some []
    | rest => afterNewline? rest
  | rest => afterNewline? rest

/-- Does the character end a bare scalar? -/
def endsScalar (c : Char) : Bool :=
  isBlank c || c == ',' || c == ']' || c == '}' || c == '#'

/-- A bare scalar and the rest. A date and a time may be apart by one space. -/
def bareValue? (t : Text) : Option (Toml × Text) :=
  let word := t.takeWhile (!endsScalar ·)
  let rest := t.dropWhile (!endsScalar ·)
  match rest with
  | ' ' :: c :: more =>
    if dateAt? word == some [] && c.isDigit then
      let time := (c :: more).takeWhile (!endsScalar ·)
      (scalar? (word ++ ' ' :: time)).map fun v => (v, more.dropWhile (!endsScalar ·))
    else (scalar? word).map (·, rest)
  | _ => (scalar? word).map (·, rest)

/-- The number of arrays and inline tables that may be open at once. -/
def maxDepth : Nat := 80

mutual
/-- A value and the rest. The fuel bounds the number of values, `depth` is that of the brackets. -/
def value? : Nat → Nat → Text → Option (Toml × Text)
  | 0, _, _ => none
  | fuel + 1, depth, t =>
    match t with
    | '[' :: r =>
      if depth < maxDepth then
        (items? fuel (depth + 1) r).map fun p => (.array p.1, p.2)
      else none
    | '{' :: r =>
      if depth < maxDepth then
        (inlineTable? fuel (depth + 1) [] r).map fun p => (.table .inlined p.1, p.2)
      else none
    | '"' :: _ => (quoted? t).map fun p => (.string p.1, p.2)
    | '\'' :: _ => (quoted? t).map fun p => (.string p.1, p.2)
    | _ => bareValue? t

/-- The items of an array up to its closing bracket, and the rest. -/
def items? : Nat → Nat → Text → Option (List Toml × Text)
  | 0, _, _ => none
  | fuel + 1, depth, t =>
    match gap? false t with
    | some (']' :: r) => some ([], r)
    | some t =>
      match value? fuel depth t with
      | none => none
      | some (v, rest) =>
        match gap? false rest with
        | some (',' :: r) => (items? fuel depth r).map fun p => (v :: p.1, p.2)
        | some (']' :: r) => some ([v], r)
        | _ => none
    | none => none

/-- The members of an inline table up to its closing brace, given those before, and the rest. -/
def inlineTable? : Nat → Nat → Members → Text → Option (Members × Text)
  | 0, _, _, _ => none
  | fuel + 1, depth, members, t =>
    match gap? false t with
    | some ('}' :: r) => some (members, r)
    | some t =>
      match key? (t.length + 1) t with
      | some (path, '=' :: r) =>
        match value? fuel depth (skipBlanks r) with
        | none => none
        | some (v, rest) =>
          match assign? (path.getLast?.getD []) v path.dropLast members with
          | none => none
          | some members =>
            match gap? false rest with
            | some (',' :: r) => inlineTable? fuel depth members r
            | some ('}' :: r) => some (members, r)
            | _ => none
      | _ => none
    | none => none
end

/-! ### Documents -/

/-- What has been read: the root table and the header that is in force. -/
structure Document where
  root : Members := []
  header : List Text := []

/-- The document after a header, given the text behind its brackets. -/
def Document.header? (d : Document) (key : List Text)
    (add : Text → Members → Option Members) : Option Document :=
  (within? (add (key.getLast?.getD [])) key.dropLast d.root).map fun root => ⟨root, key⟩

/-- The effect of a line that is not empty, and the rest from the end of that line on. -/
def Document.line? (d : Document) (t : Text) : Option (Document × Text) :=
  match t with
  | '[' :: '[' :: r =>
    match key? (t.length + 1) r with
    | some (key, ']' :: ']' :: rest) => (d.header? key openNext?).map (·, rest)
    | _ => none
  | '[' :: r =>
    match key? (t.length + 1) r with
    | some (key, ']' :: rest) => (d.header? key open?).map (·, rest)
    | _ => none
  | _ =>
    match key? (t.length + 1) t with
    | some (key, '=' :: r) =>
      (value? (t.length + 1) 0 (skipBlanks r)).bind fun (v, rest) =>
        (within? (assign? (key.getLast?.getD []) v key.dropLast) d.header d.root).map
          fun root => ({ d with root }, rest)
    | _ => none

/-- Reads to the end. Every round takes at least one character, so the length of the text bounds
their number. -/
def Document.read? : Nat → Document → Text → Option Document
  | 0, _, _ => none
  | fuel + 1, d, t =>
    match gap? false t with
    | none => none
    | some [] => some d
    | some t =>
      (d.line? t).bind fun (d, rest) => (lineEnd? rest).bind fun rest => read? fuel d rest

/-- The text without a byte order mark at its start. -/
def withoutMark : Text → Text
  | c :: r => if c.toNat == 0xFEFF then r else c :: r
  | [] => []

/-- The table that a document stands for. -/
def parse? (t : Text) : Option Toml :=
  let t := withoutMark t
  (Document.read? (t.length + 1) {} t).map fun d => .table .header d.root

end DocContract.Toml
