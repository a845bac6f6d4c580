import DocContract.Json.Token

/-!
# Reading JSON

The reader goes over the tokens once with a stack of the containers that are open. A value that is
complete is handed to the innermost container, so what a token does depends on the stack alone. At
most `maxDepth` containers may be open at once.
-/

namespace DocContract.Json

/-- An open container with the items or members that it already has, latest first. -/
inductive Frame where
  | array (items : List Json)
  /-- The value of the member `name` is due or in progress. -/
  | object (members : List (Text × Json)) (name : Text)

/-- What the reader waits for. -/
inductive Reader where
  /-- A value. -/
  | value (stack : List Frame)
  /-- An item or the end of the array that has just been opened. -/
  | firstItem (stack : List Frame)
  /-- A name or the end of the object that has just been opened. -/
  | firstName (stack : List Frame)
  /-- A name, after a comma. -/
  | name (members : List (Text × Json)) (stack : List Frame)
  /-- The colon after a name. -/
  | colon (members : List (Text × Json)) (name : Text) (stack : List Frame)
  /-- A comma or the end of the innermost container; the end of the text if there is none. -/
  | complete (value : Json) (stack : List Frame)

/-- The number of containers that may be open at once. -/
def maxDepth : Nat := 127

namespace Reader

/-- The first token of a value. -/
def begin? (stack : List Frame) : Token → Option Reader
  | .scalar v => some (.complete v stack)
  | .string s => some (.complete (.string s) stack)
  | .openArray => if stack.length < maxDepth then some (.firstItem stack) else none
  | .openObject => if stack.length < maxDepth then some (.firstName stack) else none
  | _ => none

/-- The effect of one token. -/
def step? : Reader → Token → Option Reader
  | .value stack, t => begin? stack t
  | .firstItem stack, .closeArray => some (.complete (.array []) stack)
  | .firstItem stack, t => begin? (.array [] :: stack) t
  | .firstName stack, .closeObject => some (.complete (.object []) stack)
  | .firstName stack, .string s => some (.colon [] s stack)
  | .firstName _, _ => none
  | .name members stack, .string s => some (.colon members s stack)
  | .name _ _, _ => none
  | .colon members key stack, .colon => some (.value (.object members key :: stack))
  | .colon _ _ _, _ => none
  | .complete v (.array items :: stack), .comma => some (.value (.array (v :: items) :: stack))
  | .complete v (.array items :: stack), .closeArray =>
    some (.complete (.array (v :: items).reverse) stack)
  | .complete v (.object members key :: stack), .comma =>
    some (.name ((key, v) :: members) stack)
  | .complete v (.object members key :: stack), .closeObject =>
    some (.complete (.object ((key, v) :: members).reverse) stack)
  | .complete _ _, _ => none

/-- The value that has been read, if the text may end here. -/
def result? : Reader → Option Json
  | .complete v [] => some v
  | _ => none

end Reader

/-- The value of a sequence of tokens. -/
def ofTokens? (tokens : List Token) : Option Json :=
  (tokens.foldlM Reader.step? (.value [])).bind Reader.result?

/-- The value that a text writes. -/
def parse? (t : Text) : Option Json := (Token.scan? t).bind ofTokens?

end DocContract.Json
