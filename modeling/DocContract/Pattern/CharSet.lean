import DocContract.Text.CaseFolding

/-!
# Sets of characters

What one step of a regular expression accepts. A set is kept as it was written, as ranges and
classes combined by the set operations, and membership is decided by recursion on that form.
-/

namespace DocContract

/-- The classes of characters that have a table of their own. -/
inductive CharClass where
  | digit
  | space
  | word
  deriving DecidableEq, Repr

namespace CharClass

/-- Is the character in the class? -/
def holds : CharClass → Char → Bool
  | .digit => Text.isDigit
  | .space => Text.isBlank
  | .word => Text.isWord

end CharClass

/-- A set of characters. -/
inductive CharSet where
  | empty
  /-- The characters from the first to the last one. -/
  | range (first last : Char)
  | ofClass (cls : CharClass)
  /-- The characters whose code points lie in one of some ranges, each with its last code point. -/
  | listed (ranges : List (Nat × Nat))
  | union (a b : CharSet)
  | intersection (a b : CharSet)
  | difference (a b : CharSet)
  | symmetricDifference (a b : CharSet)
  | complement (a : CharSet)
  /-- The characters that are in the set up to case. -/
  | folded (a : CharSet)
  deriving Repr

namespace CharSet

/-- Is the character in the set? -/
def mem : CharSet → Char → Bool
  | .empty, _ => false
  | .range first last, c => first ≤ c && c ≤ last
  | .ofClass cls, c => cls.holds c
  | .listed ranges, c => ranges.any fun r => r.1 ≤ c.toNat && c.toNat ≤ r.2
  | .union a b, c => mem a c || mem b c
  | .intersection a b, c => mem a c && mem b c
  | .difference a b, c => mem a c && !mem b c
  | .symmetricDifference a b, c => mem a c != mem b c
  | .complement a, c => !mem a c
  | .folded a, c => (Text.caseVariants c).any (mem a)

/-- The set of one character. -/
def single (c : Char) : CharSet := .range c c

/-- The set of all characters. -/
def any : CharSet := .complement .empty

/-- The union of some sets. -/
def ofList (sets : List CharSet) : CharSet := sets.foldr .union .empty

/-- The set with its characters taken up to case, if that is wanted. -/
def foldedIf (ignoreCase : Bool) (a : CharSet) : CharSet := if ignoreCase then .folded a else a

/-- The set or its complement. -/
def negatedIf (negated : Bool) (a : CharSet) : CharSet := if negated then .complement a else a

/-- Does the set hold ASCII characters only? A complement never counts as such. -/
def isAscii : CharSet → Bool
  | .empty => true
  | .range _ last => last.toNat < 128
  | .ofClass _ => false
  | .listed ranges => ranges.all fun r => r.2 < 128
  | .union a b => isAscii a && isAscii b
  | .intersection a b => isAscii a || isAscii b
  | .difference a _ => isAscii a
  | .symmetricDifference a b => isAscii a && isAscii b
  | .complement _ => false
  | .folded a => isAscii a

/-- The ASCII digits. -/
def asciiDigit : CharSet := .range '0' '9'

/-- The ASCII letters. -/
def asciiLetter : CharSet := .union (.range 'A' 'Z') (.range 'a' 'z')

/-- The ASCII letters, the ASCII digits and the underscore. -/
def asciiWord : CharSet := ofList [asciiDigit, asciiLetter, .single '_']

/-- The ASCII blanks. -/
def asciiSpace : CharSet := .union (.range '\t' '\x0d') (.single ' ')

/-- The ASCII members of a class. -/
def asciiClass : CharClass → CharSet
  | .digit => asciiDigit
  | .space => asciiSpace
  | .word => asciiWord

/-- The ASCII classes by their names. -/
def named? (name : Text) : Option CharSet :=
  let table : List (String × CharSet) :=
    [("alnum", .union asciiDigit asciiLetter), ("alpha", asciiLetter),
     ("ascii", .range '\x00' '\x7f'), ("blank", .union (.single '\t') (.single ' ')),
     ("cntrl", .union (.range '\x00' '\x1f') (.single '\x7f')), ("digit", asciiDigit),
     ("graph", .range '!' '~'), ("lower", .range 'a' 'z'), ("print", .range ' ' '~'),
     ("punct", ofList [.range '!' '/', .range ':' '@', .range '[' '\x60', .range '\x7b' '~']),
     ("space", asciiSpace), ("upper", .range 'A' 'Z'), ("word", asciiWord),
     ("xdigit", ofList [asciiDigit, .range 'A' 'F', .range 'a' 'f'])]
  (table.find? fun row => row.1.toList == name).map (·.2)

/-- About how many states a matcher over bytes has for the set, read backwards, where a range of
code points takes two of them. This is an estimate: it does not see which states ranges share, nor
what folding and the set operations save or add. -/
def weight : CharSet → Nat
  | .empty => 1
  | .range first last =>
    if last.toNat < 128 then (if first == last then 1 else 2)
    else if first.toNat < 128 then 10 else 4
  | .ofClass .digit => 160
  | .ofClass .space => 22
  | .ofClass .word => 1560
  | .listed ranges => 2 * ranges.length
  | .union a b => weight a + weight b
  | .intersection a _ => weight a
  | .difference a _ => weight a
  | .symmetricDifference a b => weight a + weight b
  | .complement a => weight a + 9
  | .folded a => 2 * weight a

end CharSet

end DocContract
