import DocContract.Text

/-!
# JSON values

A value keeps the members of an object in the order in which they were written, repeated names
included, because a reader of records has to notice a repeated name. A number that is a plain run of
digits is a natural number; any other number is kept as it was written.
-/

namespace DocContract

/-- A JSON value. -/
inductive Json where
  | null
  | bool (value : Bool)
  | nat (value : Nat)
  /-- A number with a sign, a fraction or an exponent, as written. -/
  | decimal (literal : Text)
  | string (value : Text)
  | array (items : List Json)
  | object (members : List (Text × Json))
  deriving Inhabited

namespace Json

/-- The string of an optional text, or null. -/
def ofText? : Option Text → Json
  | none => .null
  | some t => .string t

/-- The number, or null. -/
def ofNat? : Option Nat → Json
  | none => .null
  | some n => .nat n

/-- The array of some texts. -/
def ofTexts (ts : List Text) : Json := .array (ts.map .string)

/-- The value of the first member of that name. -/
def member? (name : Text) : Json → Option Json
  | .object members => members.lookup name
  | _ => none

/-- The members with repeated names reduced to one each: the value of the last, in the place of the
first. -/
def lastOfEach (members : List (Text × Json)) : List (Text × Json) :=
  members.foldl put []
where
  /-- Replaces the value of a name that is there, or adds the member at the end. -/
  put (done : List (Text × Json)) (m : Text × Json) : List (Text × Json) :=
    if done.any (·.1 == m.1) then done.map fun d => if d.1 == m.1 then m else d
    else done ++ [m]

mutual
/-- The value with repeated member names reduced to the last of each, at every depth. -/
def collapse : Json → Json
  | .array items => .array (collapseItems items)
  | .object members => .object (lastOfEach (collapseMembers members))
  | v => v

/-- `collapse` of every item. -/
def collapseItems : List Json → List Json
  | [] => []
  | v :: vs => collapse v :: collapseItems vs

/-- `collapse` of every member's value. -/
def collapseMembers : List (Text × Json) → List (Text × Json)
  | [] => []
  | (name, v) :: ms => (name, collapse v) :: collapseMembers ms
end

end Json

end DocContract
