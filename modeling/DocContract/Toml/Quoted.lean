import DocContract.Toml

/-!
# Quoted strings of TOML

The four forms of strings: basic and literal ones, on one line or on several. A backslash has a
meaning in the basic forms only. In the forms of several lines a newline right after the opening
quotes does not count, and up to two quotes may stand in front of the closing ones.
-/

namespace DocContract.Toml

open Text

/-- May the character stand in a comment or a string of one line? Control characters may not, the
tab excepted. -/
def isPlain (c : Char) : Bool := c == '\t' || (0x20 ≤ c.toNat && c.toNat != 0x7F)

/-- A character given by a number of hexadecimal digits. -/
def hexEscape? (digits : Nat) (t : Text) : Option (Char × Text) :=
  let read := t.take digits
  if read.length == digits && read.all fun c => (hexValue? c).isSome then
    (charOfNat? (read.foldl (fun n c => n * 16 + (hexValue? c).getD 0) 0)).map
      fun c => (c, t.drop digits)
  else none

/-- The character of an escape, given the text behind the backslash. -/
def escape? : Text → Option (Char × Text)
  | [] => none
  | c :: r =>
    if c == '"' || c == '\\' then some (c, r)
    else if c == 'b' then some ('\x08', r)
    else if c == 't' then some ('\t', r)
    else if c == 'n' then some ('\n', r)
    else if c == 'f' then some ('\x0c', r)
    else if c == 'r' then some ('\r', r)
    else if c == 'e' then some ('\x1b', r)
    else if c == 'x' then hexEscape? 2 r
    else if c == 'u' then hexEscape? 4 r
    else if c == 'U' then hexEscape? 8 r
    else none

/-- The content of a basic string of one line behind its opening quote, and the rest. The fuel
bounds the number of characters. -/
def basic? : Nat → Text → Option (Text × Text)
  | 0, _ => none
  | _ + 1, [] => none
  | fuel + 1, c :: r =>
    if c == '"' then some ([], r)
    else if c == '\\' then
      (escape? r).bind fun (e, rest) => (basic? fuel rest).map fun p => (e :: p.1, p.2)
    else if isPlain c then (basic? fuel r).map fun p => (c :: p.1, p.2)
    else none

/-- The content of a literal string of one line behind its opening quote, and the rest. -/
def literal? : Text → Option (Text × Text)
  | [] => none
  | c :: r =>
    if c == '\'' then some ([], r)
    else if isPlain c then (literal? r).map fun p => (c :: p.1, p.2)
    else none

/-- The text behind a newline. -/
def afterNewline? : Text → Option Text
  | '\n' :: r => some r
  | '\r' :: '\n' :: r => some r
  | _ => none

/-- The text behind a newline, if it begins with one. -/
def skipNewline (t : Text) : Text := (afterNewline? t).getD t

/-- The text behind blanks and newlines. -/
def skipBlankLines : Text → Text
  | '\r' :: '\n' :: r => skipBlankLines r
  | c :: r => if c == ' ' || c == '\t' || c == '\n' then skipBlankLines r else c :: r
  | [] => []

/-- The text behind the end of a line that a backslash joins to the next one. -/
def joinedLine? (t : Text) : Option Text :=
  (afterNewline? (t.dropWhile fun c => c == ' ' || c == '\t')).map skipBlankLines

/-- What quotes at the start of a text mean in a string of several lines: the quotes that belong to
the content, and the rest if they end the string. -/
def closing (quote : Char) (t : Text) : Nat × Option Text :=
  let run := (t.takeWhile (· == quote)).length
  if run < 3 then (run, none)
  else
    let taken := min run 5
    (taken - 3, some (t.drop taken))

/-- The content of a string of several lines behind its opening quotes, and the rest. The fuel
bounds the number of characters. -/
def multiLine? (quote : Char) : Nat → Text → Option (Text × Text)
  | 0, _ => none
  | _ + 1, [] => none
  | fuel + 1, c :: r =>
    if c == quote then
      match closing quote (c :: r) with
      | (n, some rest) => some (List.replicate n quote, rest)
      | (n, none) =>
        (multiLine? quote fuel (r.drop (n - 1))).map fun p => (List.replicate n quote ++ p.1, p.2)
    else if c == '\\' && quote == '"' then
      match joinedLine? r with
      | some rest => multiLine? quote fuel rest
      | none =>
        (escape? r).bind fun (e, rest) =>
          (multiLine? quote fuel rest).map fun p => (e :: p.1, p.2)
    else
      match afterNewline? (c :: r) with
      | some rest => (multiLine? quote fuel rest).map fun p => ('\n' :: p.1, p.2)
      | none =>
        if isPlain c then (multiLine? quote fuel r).map fun p => (c :: p.1, p.2) else none

/-- The string of any form that a text begins with, and the rest. -/
def quoted? (t : Text) : Option (Text × Text) :=
  match t with
  | '"' :: '"' :: '"' :: r => multiLine? '"' (t.length + 1) (skipNewline r)
  | '\'' :: '\'' :: '\'' :: r => multiLine? '\'' (t.length + 1) (skipNewline r)
  | '"' :: r => basic? (t.length + 1) r
  | '\'' :: r => literal? r
  | _ => none

/-! ### Keys -/

/-- The characters of a key without quotes. -/
def isBareKey (c : Char) : Bool := c.isAlphanum || c == '_' || c == '-'

/-- The text behind blanks. -/
def skipBlanks (t : Text) : Text := t.dropWhile fun c => c == ' ' || c == '\t'

/-- A key without dots, and the rest. -/
def simpleKey? (t : Text) : Option (Text × Text) :=
  match t with
  | '"' :: r => basic? (t.length + 1) r
  | '\'' :: r => literal? r
  | _ =>
    let name := t.takeWhile isBareKey
    if name.isEmpty then none else some (name, t.dropWhile isBareKey)

/-- A key with its parts between dots, and the rest behind blanks. The fuel bounds the number of
parts. -/
def key? : Nat → Text → Option (List Text × Text)
  | 0, _ => none
  | fuel + 1, t =>
    (simpleKey? (skipBlanks t)).bind fun (name, rest) =>
      match skipBlanks rest with
      | '.' :: r => (key? fuel r).map fun p => (name :: p.1, p.2)
      | r => some ([name], r)

end DocContract.Toml
