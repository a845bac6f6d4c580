/-!
# Texts, blanks and byte widths

A text is a list of characters. Everything that reads a source file, a comment or a header works on
this form, so that a function on texts is a recursion on the list. Columns, indents and offsets are
counted in UTF-8 bytes (`width`), and "blank" is the Unicode property `White_Space`.
-/

namespace DocContract

/-- A text is the list of its characters. -/
abbrev Text := List Char

/-- A string literal stands for the text of its characters. -/
instance : Coe String Text := ⟨String.toList⟩

namespace Text

/-- The characters with the Unicode property `White_Space`. -/
def isBlank (c : Char) : Bool :=
  let n := c.toNat
  (9 ≤ n && n ≤ 13) || n == 0x20 || n == 0x85 || n == 0xA0 || n == 0x1680
    || (0x2000 ≤ n && n ≤ 0x200A) || n == 0x2028 || n == 0x2029 || n == 0x202F || n == 0x205F
    || n == 0x3000

/-- A text is blank when it holds blanks only; the empty text is blank. -/
def isBlankText (t : Text) : Bool := t.all isBlank

/-- The leading blanks of a text. -/
def leadingBlanks (t : Text) : Text := t.takeWhile isBlank

/-- The text without its leading blanks. -/
def trimStart (t : Text) : Text := t.dropWhile isBlank

/-- The text without its trailing blanks. -/
def trimEnd (t : Text) : Text := (t.reverse.dropWhile isBlank).reverse

/-- The text without its blanks at both ends. -/
def trim (t : Text) : Text := trimEnd (trimStart t)

/-- The trimmed text, or nothing when no character is left. -/
def trimmed? (t : Text) : Option Text :=
  match trim t with
  | [] => none
  | c :: r => some (c :: r)

/-- The number of bytes of a text in UTF-8. -/
def width : Text → Nat
  | [] => 0
  | c :: r => c.utf8Size + width r

/-- The width of the leading blanks. -/
def indent (t : Text) : Nat := width (leadingBlanks t)

/-- The rest of the text after a given beginning, if it begins that way. -/
def after? : Text → Text → Option Text
  | [], t => some t
  | _ :: _, [] => none
  | c :: r, d :: t => if c = d then after? r t else none

/-- Does the text begin with the given one? -/
def startsWith (t start : Text) : Bool := (after? start t).isSome

/-- Does the given text occur in it? -/
def contains (t part : Text) : Bool :=
  match t with
  | [] => part.isEmpty
  | c :: r => startsWith (c :: r) part || contains r part

/-- What stands before and after the first occurrence of a part. -/
def cut? (part : Text) (t : Text) : Option (Text × Text) :=
  match after? part t with
  | some rest => some ([], rest)
  | none =>
    match t with
    | [] => none
    | c :: r => (cut? part r).map fun p => (c :: p.1, p.2)

/-- The pieces between the characters that satisfy `p`; there is always one more piece than there
are such characters. -/
def splitBy (p : Char → Bool) : Text → List Text
  | [] => [[]]
  | c :: r =>
    if p c then [] :: splitBy p r
    else match splitBy p r with
      | [] => [[c]]
      | piece :: pieces => (c :: piece) :: pieces

/-- The pieces between the occurrences of one character. -/
def splitOn (sep : Char) (t : Text) : List Text := splitBy (· == sep) t

/-- The texts one after the other, with a separator between neighbours. -/
def join (sep : Text) : List Text → Text
  | [] => []
  | [t] => t
  | t :: u :: r => t ++ sep ++ join sep (u :: r)

/-- A piece without the carriage return at its end. -/
def dropReturn (t : Text) : Text :=
  if t.getLast? = some '\r' then t.dropLast else t

/-- The pieces of a text between its newlines, the last one included even when it is empty. -/
def rawLines (t : Text) : List Text := splitOn '\n' t

/-- The lines of a text: a final newline opens no further line, and a carriage return before a
newline or at the end of the last piece belongs to the line break only when a newline follows. -/
def lines (t : Text) : List Text :=
  go (rawLines t)
where
  /-- A piece that is not the last one was ended by a newline. -/
  go : List Text → List Text
    | [] => []
    | [last] => if last.isEmpty then [] else [last]
    | piece :: u :: r => dropReturn piece :: go (u :: r)

/-- The ASCII letters in lower case, all else unchanged. -/
def asciiLower (t : Text) : Text := t.map Char.toLower

/-- Equality up to the case of ASCII letters. -/
def eqIgnoringAsciiCase (t u : Text) : Bool := asciiLower t == asciiLower u

/-- The decimal digits of a number. -/
def ofNat (n : Nat) : Text := Nat.toDigits 10 n

/-- The value of a hexadecimal digit. -/
def hexValue? (c : Char) : Option Nat :=
  if c.isDigit then some (c.toNat - '0'.toNat)
  else if 'a' ≤ c ∧ c ≤ 'f' then some (c.toNat - 'a'.toNat + 10)
  else if 'A' ≤ c ∧ c ≤ 'F' then some (c.toNat - 'A'.toNat + 10)
  else none

/-- The value of a run of decimal digits. -/
def digitsValue (t : Text) : Nat := t.foldl (fun n c => n * 10 + (c.toNat - '0'.toNat)) 0

/-- The character with a number, if there is one. -/
def charOfNat? (n : Nat) : Option Char := if n.isValidChar then some (Char.ofNat n) else none

/-- A text between two backquotes, as messages quote names. -/
def quoted (t : Text) : Text := "`" ++ t ++ "`"

end Text

end DocContract
