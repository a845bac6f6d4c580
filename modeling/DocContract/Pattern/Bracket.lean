import DocContract.Pattern.Escape

/-!
# Bracketed classes

A class between square brackets: characters, ranges, escapes, named ASCII classes and inner classes,
joined by set operations. The reader goes over the text once with a stack of what is open.
-/

namespace DocContract

open Text

/-- The set operations between the parts of a class; they associate to the left. -/
inductive SetOperation where
  | intersection
  | difference
  | symmetricDifference
  deriving DecidableEq, Repr

namespace SetOperation

/-- The result of an operation. -/
def apply : SetOperation → CharSet → CharSet → CharSet
  | .intersection => .intersection
  | .difference => .difference
  | .symmetricDifference => .symmetricDifference

/-- The operation that a text begins with. -/
def at? : Text → Option (SetOperation × Text)
  | '&' :: '&' :: r => some (.intersection, r)
  | '-' :: '-' :: r => some (.difference, r)
  | '~' :: '~' :: r => some (.symmetricDifference, r)
  | _ => none

end SetOperation

/-- What is open inside a class. -/
inductive ClassFrame where
  /-- A bracket with the items that stand before it. -/
  | bracket (before : List CharSet) (negated : Bool)
  /-- An operation that waits for its right side. -/
  | operation (op : SetOperation) (left : CharSet)

namespace ClassFrame

/-- The minus signs at the start of a class, as items, and the text behind them. -/
def leadingDashes (f : PatternFlags) (comment : Bool) : Text → List CharSet × Text
  | [] => ([], [])
  | c :: r =>
    if comment then leadingDashes f (c != '\n') r
    else if f.spaced && isBlank c then leadingDashes f false r
    else if f.spaced && c == '#' then leadingDashes f true r
    else if c == '-' then
      let (items, rest) := leadingDashes f false r
      (.single '-' :: items, rest)
    else ([], c :: r)

/-- The start of a class behind its bracket: whether it is a complement, the first items, and the
rest. A closing bracket at the very start is an item. -/
def start? (f : PatternFlags) (t : Text) : Option (Bool × List CharSet × Text) :=
  let (negated, t) := match f.skip t with
    | '^' :: r => (true, r)
    | t => (false, t)
  match leadingDashes f false t with
  | (_, []) => none
  | ([], ']' :: r) => some (negated, [.single ']'], r)
  | (items, rest) => some (negated, items, rest)

/-- The named ASCII class behind a bracket. -/
def named? (f : PatternFlags) (t : Text) : Option (CharSet × Text) :=
  match t with
  | ':' :: r =>
    let (negated, r) := match r with
      | '^' :: r => (true, r)
      | r => (false, r)
    match r.dropWhile (· != ':') with
    | ':' :: ']' :: rest =>
      (CharSet.named? (r.takeWhile (· != ':'))).map fun s =>
        (CharSet.negatedIf negated (CharSet.foldedIf f.ignoreCase s), rest)
    | _ => none
  | _ => none

/-- One character or escape of a class. -/
def item? (f : PatternFlags) : Text → Option (PatternEscape × Text)
  | [] => none
  | '\\' :: r => escapeAt? f r
  | c :: r => some (.literal c false, r)

/-- The character of an item, if it is one. -/
def literal? (f : PatternFlags) : PatternEscape → Option Char
  | .literal c _ => if f.unicode || c.toNat < 128 then some c else none
  | _ => none

/-- The set of an item. -/
def itemSet? (f : PatternFlags) : PatternEscape → Option CharSet
  | .set s => some s
  | e => (literal? f e).map .single

/-- An item or a range. A minus sign makes a range, unless the class or an operation follows it. -/
def range? (f : PatternFlags) (t : Text) : Option (CharSet × Text) :=
  (item? f t).bind fun (first, rest) =>
    match f.skip rest with
    | [] => none
    | '-' :: r =>
      match f.skip r with
      | [] => none
      | c :: more =>
        if c == ']' || c == '-' then (itemSet? f first).map fun s => (s, '-' :: r)
        else
          (item? f (c :: more)).bind fun (last, rest) =>
            (literal? f first).bind fun a => (literal? f last).bind fun b =>
              if a ≤ b then some (.range a b, rest) else none
    | rest => (itemSet? f first).map fun s => (s, rest)

/-- The set of the items that stand last, with the operation before them applied, and the frames
below. -/
def settle (f : PatternFlags) (items : List CharSet) : List ClassFrame → CharSet × List ClassFrame
  | .operation op left :: below =>
    (op.apply (CharSet.foldedIf f.ignoreCase left)
      (CharSet.foldedIf f.ignoreCase (CharSet.ofList items)), below)
  | stack => (CharSet.ofList items, stack)

/-- The set of a bracket that closes. Without the Unicode flag it has to be ASCII. -/
def close? (f : PatternFlags) (negated : Bool) (s : CharSet) : Option CharSet :=
  let closed := CharSet.negatedIf negated (CharSet.foldedIf f.ignoreCase s)
  if f.unicode || closed.isAscii then some closed else none

/-- The number of classes that may be open at once. -/
def maxOpen : Nat := 250

/-- Reads to the end of the outermost class. The fuel bounds the number of items. -/
def read? (f : PatternFlags) : Nat → List ClassFrame → List CharSet → Text → Option (CharSet × Text)
  | 0, _, _, _ => none
  | fuel + 1, stack, items, t =>
    match f.skip t with
    | [] => none
    | '[' :: r =>
      match named? f r with
      | some (s, rest) => read? f fuel stack (s :: items) rest
      | none =>
        if stack.length < maxOpen then
          (start? f r).bind fun (negated, first, rest) =>
            read? f fuel (.bracket items negated :: stack) first rest
        else none
    | ']' :: r =>
      let (s, below) := settle f items stack
      match below with
      | .bracket before negated :: outer =>
        (close? f negated s).bind fun closed =>
          if outer.isEmpty then some (closed, r) else read? f fuel outer (closed :: before) r
      | _ => none
    | t =>
      match SetOperation.at? t with
      | some (op, rest) =>
        let (s, below) := settle f items stack
        read? f fuel (.operation op s :: below) [] rest
      | none => (range? f t).bind fun (s, rest) => read? f fuel stack (s :: items) rest

end ClassFrame

/-- The class behind an opening bracket. -/
def bracketAt? (f : PatternFlags) (t : Text) : Option (CharSet × Text) :=
  (ClassFrame.start? f t).bind fun (negated, first, rest) =>
    ClassFrame.read? f (t.length + 1) [.bracket [] negated] first rest

end DocContract
