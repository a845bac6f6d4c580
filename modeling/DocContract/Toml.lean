import DocContract.Json

/-!
# TOML values

A TOML document is a table. How a table came to be decides what may be added to it later, so each
table keeps its origin; the value that the document stands for does not depend on it.
-/

namespace DocContract

/-- How a table came to be. -/
inductive TableOrigin where
  /-- Written between braces: complete. -/
  | inlined
  /-- Opened by the keys of an assignment. -/
  | dotted
  /-- Named on the way by the header of a table inside it. -/
  | implied
  /-- Opened by its own header. -/
  | header
  deriving DecidableEq, Repr

/-- A TOML value. -/
inductive Toml where
  | string (value : Text)
  | integer (value : Int)
  /-- A number with a fraction or an exponent, as written. -/
  | float (literal : Text)
  | bool (value : Bool)
  /-- A date, a time or both, as written. -/
  | datetime (literal : Text)
  | array (items : List Toml)
  | table (origin : TableOrigin) (members : List (Text × Toml))
  /-- The tables of a repeated header, in order. -/
  | tables (entries : List Toml)
  deriving Inhabited

namespace Toml

/-- The members of a table. -/
abbrev Members := List (Text × Toml)

/-- The name under which the parts of a date reach a reader of records. -/
def datetimeMember : Text := "$datetime"

mutual
/-- The value as a reader of records sees it. -/
def toJson : Toml → Json
  | .string value => .string value
  | .integer value =>
    if 0 ≤ value then .nat value.toNat else .decimal ('-' :: Text.ofNat value.natAbs)
  | .float literal => .decimal literal
  | .bool value => .bool value
  | .datetime literal => .object [(datetimeMember, .string literal)]
  | .array items => .array (itemsToJson items)
  | .table _ members => .object (membersToJson members)
  | .tables entries => .array (itemsToJson entries)

/-- `toJson` of every item. -/
def itemsToJson : List Toml → List Json
  | [] => []
  | v :: vs => toJson v :: itemsToJson vs

/-- `toJson` of every member's value. -/
def membersToJson : List (Text × Toml) → List (Text × Json)
  | [] => []
  | (name, v) :: ms => (name, toJson v) :: membersToJson ms
end

end Toml

end DocContract
