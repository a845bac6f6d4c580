import DocContract.Pattern.CharSet

/-!
# Regular expressions

The tree of a regular expression and the places where it can end when it begins at a given place of
a text. Only whether there is a match is ever asked, so a repetition is the set of places that its
rounds reach; the order in which they would be tried does not matter.
-/

namespace DocContract

/-- What an assertion asks of the characters around a place. -/
inductive Assertion where
  | textStart
  | textEnd
  | lineStart
  | lineEnd
  /-- The start of a line when a carriage return breaks lines as well. -/
  | returnLineStart
  /-- The end of a line when a carriage return breaks lines as well. -/
  | returnLineEnd
  | wordBoundary (ascii : Bool)
  | noWordBoundary (ascii : Bool)
  | wordStart (ascii : Bool)
  | wordEnd (ascii : Bool)
  /-- No word character in front. -/
  | wordStartHalf (ascii : Bool)
  /-- No word character behind. -/
  | wordEndHalf (ascii : Bool)
  deriving DecidableEq, Repr

namespace Assertion

/-- Is the neighbour a word character? -/
def isWord (ascii : Bool) : Option Char → Bool
  | none => false
  | some c => if ascii then Text.isAsciiWord c else Text.isWord c

/-- Does the assertion hold between two characters? At an end of the text there is none. -/
def holds (before after : Option Char) : Assertion → Bool
  | .textStart => before.isNone
  | .textEnd => after.isNone
  | .lineStart => before.isNone || before == some '\n'
  | .lineEnd => after.isNone || after == some '\n'
  | .returnLineStart =>
    before.isNone || before == some '\n' || (before == some '\r' && after != some '\n')
  | .returnLineEnd =>
    after.isNone || after == some '\r' || (after == some '\n' && before != some '\r')
  | .wordBoundary ascii => isWord ascii before != isWord ascii after
  | .noWordBoundary ascii => isWord ascii before == isWord ascii after
  | .wordStart ascii => !isWord ascii before && isWord ascii after
  | .wordEnd ascii => isWord ascii before && !isWord ascii after
  | .wordStartHalf ascii => !isWord ascii before
  | .wordEndHalf ascii => !isWord ascii after

end Assertion

/-- A regular expression. -/
inductive Regex where
  /-- The empty text. -/
  | empty
  /-- One character. -/
  | one (set : CharSet)
  | assertion (a : Assertion)
  | sequence (a b : Regex)
  | choice (a b : Regex)
  /-- At least `least` rounds, and at most `most` if that is given. -/
  | repetition (least : Nat) (most : Option Nat) (body : Regex)
  /-- A group whose match is recorded. -/
  | group (body : Regex)
  deriving Repr

namespace Regex

/-- The places after exactly `n` rounds. -/
def afterRounds (next : Nat → List Nat) : Nat → List Nat → List Nat
  | 0, places => places
  | n + 1, places =>
    if places.isEmpty then [] else afterRounds next n (places.flatMap next).eraseDups

/-- The places after at most `n` further rounds. -/
def withinRounds (next : Nat → List Nat) : Nat → List Nat → List Nat
  | 0, places => places
  | n + 1, places => withinRounds next n (places ++ places.flatMap next).eraseDups

/-- The places of a text at which a match can end that begins at place `i`. As many rounds as the
text has places reach everything that any number of rounds reaches. -/
def ends (t : Text) : Regex → Nat → List Nat
  | .empty, i => [i]
  | .one set, i => if t[i]?.any set.mem then [i + 1] else []
  | .assertion a, i => if a.holds (if i = 0 then none else t[i - 1]?) t[i]? then [i] else []
  | .sequence a b, i => ((ends t a i).flatMap (ends t b)).eraseDups
  | .choice a b, i => (ends t a i ++ ends t b i).eraseDups
  | .repetition least most body, i =>
    let rounds := match most with
      | none => t.length + 1
      | some m => min (m - least) (t.length + 1)
    withinRounds (ends t body) rounds (afterRounds (ends t body) least [i])
  | .group body, i => ends t body i

/-- Does some part of the text match? -/
def matchesIn (r : Regex) (t : Text) : Bool :=
  (List.range (t.length + 1)).any fun i => !(ends t r i).isEmpty

/-- About how many states a matcher over bytes has, read backwards. It is an estimate as that of a
set is: what an optimizer joins or drops is counted in full. -/
def weight : Regex → Nat
  | .empty => 1
  | .one set => set.weight
  | .assertion _ => 1
  | .sequence a b => weight a + weight b
  | .choice a b => weight a + weight b + 2
  | .repetition least most body =>
    match most with
    | none => (max least 1) * weight body + 2
    | some m => least * weight body + (m - least) * (weight body + 1) + 1
  | .group body => weight body + 2

/-- An expression with more states than this is refused. They stand for ten mebibytes of thirty-two
bytes each. Since the states are estimated, an expression that comes near to this size may be judged
otherwise than by its bytes. -/
def maxWeight : Nat := 327680

end Regex

end DocContract
