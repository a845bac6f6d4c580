import DocContract.Json

/-!
# Writing JSON

Two layouts of the same tokens: `compact` without any blank, and `pretty` with one item or member on
a line, two blanks of indentation for each open container, and nothing between the brackets of an
empty one. In a string only the quote, the backslash and the control characters are escaped.
-/

namespace DocContract.Json

/-- A character inside a string literal. -/
def escapeChar (c : Char) : Text :=
  if c = '"' then ['\\', '"']
  else if c = '\\' then ['\\', '\\']
  else if c.toNat = 8 then ['\\', 'b']
  else if c.toNat = 12 then ['\\', 'f']
  else if c = '\n' then ['\\', 'n']
  else if c = '\r' then ['\\', 'r']
  else if c = '\t' then ['\\', 't']
  else if c.toNat < 0x20 then
    ['\\', 'u', '0', '0', Nat.digitChar (c.toNat / 16), Nat.digitChar (c.toNat % 16)]
  else [c]

/-- A string literal. -/
def printString (s : Text) : Text := '"' :: (s.flatMap escapeChar ++ ['"'])

/-- A value that is no container. -/
def printBool (b : Bool) : Text := if b then "true" else "false"

mutual
/-- A value without any blank. -/
def compact : Json → Text
  | .null => "null"
  | .bool b => printBool b
  | .nat n => Text.ofNat n
  | .decimal literal => literal
  | .string s => printString s
  | .array items => '[' :: (compactItems items ++ [']'])
  | .object members => '{' :: (compactMembers members ++ ['}'])

/-- Items with commas between them. -/
def compactItems : List Json → Text
  | [] => []
  | [v] => compact v
  | v :: w :: r => compact v ++ ',' :: compactItems (w :: r)

/-- Members with commas between them. -/
def compactMembers : List (Text × Json) → Text
  | [] => []
  | [(name, v)] => printString name ++ ':' :: compact v
  | (name, v) :: m :: r => printString name ++ ':' :: (compact v ++ ',' :: compactMembers (m :: r))
end

/-- A new line with the indentation of `depth` open containers. -/
def newline (depth : Nat) : Text := '\n' :: List.replicate (2 * depth) ' '

mutual
/-- A value inside `depth` open containers, one item or member on a line. -/
def pretty (depth : Nat) : Json → Text
  | .null => "null"
  | .bool b => printBool b
  | .nat n => Text.ofNat n
  | .decimal literal => literal
  | .string s => printString s
  | .array [] => "[]"
  | .array (v :: r) =>
    '[' :: (newline (depth + 1) ++ pretty (depth + 1) v ++ prettyItems (depth + 1) r
      ++ newline depth ++ [']'])
  | .object [] => ['{', '}']
  | .object ((name, v) :: r) =>
    '{' :: (newline (depth + 1) ++ printString name ++ ':' :: ' ' :: pretty (depth + 1) v
      ++ prettyMembers (depth + 1) r ++ newline depth ++ ['}'])

/-- The items after the first one. -/
def prettyItems (depth : Nat) : List Json → Text
  | [] => []
  | v :: r => ',' :: (newline depth ++ pretty depth v ++ prettyItems depth r)

/-- The members after the first one. -/
def prettyMembers (depth : Nat) : List (Text × Json) → Text
  | [] => []
  | (name, v) :: r =>
    ',' :: (newline depth ++ printString name ++ ':' :: ' ' :: pretty depth v
      ++ prettyMembers depth r)
end

end DocContract.Json
