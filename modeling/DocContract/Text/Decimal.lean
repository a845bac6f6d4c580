import DocContract.Text

/-!
# Decimal literals

The exact value of a decimal literal, and whether it lies beyond the numbers of double precision. No
rounded value is ever needed.
-/

namespace DocContract

/-- The magnitude `digits * 10 ^ exponent`. -/
structure Decimal where
  digits : Nat
  exponent : Int
  deriving DecidableEq, Repr

namespace Decimal

/-- The text behind a sign, if there is one. -/
def unsigned : Text → Text
  | c :: r => if c == '-' || c == '+' then r else c :: r
  | [] => []

/-- The exponent behind its mark. -/
def exponentOf (t : Text) : Int :=
  let value : Int := Text.digitsValue (unsigned t)
  if t.head? = some '-' then -value else value

/-- The magnitude of a literal: a sign, digits, a fraction and an exponent, of which all but the
digits may be missing. -/
def ofLiteral (t : Text) : Decimal :=
  let t := unsigned t
  let whole := t.takeWhile Char.isDigit
  let rest := t.dropWhile Char.isDigit
  let (fraction, rest) := match rest with
    | '.' :: r => (r.takeWhile Char.isDigit, r.dropWhile Char.isDigit)
    | r => ([], r)
  ⟨Text.digitsValue (whole ++ fraction), exponentOf (rest.drop 1) - fraction.length⟩

/-- The least magnitude that rounds beyond the numbers of double precision. -/
def doubleBound : Nat := Nat.pow 2 1024 - Nat.pow 2 970

/-- Does the magnitude round beyond the numbers of double precision? Powers of ten are formed only
when the number of digits does not decide. -/
def exceedsDouble (d : Decimal) : Bool :=
  let places : Int := (Text.ofNat d.digits).length + d.exponent
  if d.digits = 0 || places < 309 then false
  else if 309 < places then true
  else if 0 ≤ d.exponent then doubleBound ≤ d.digits * Nat.pow 10 d.exponent.toNat
  else doubleBound * Nat.pow 10 (-d.exponent).toNat ≤ d.digits

end Decimal

end DocContract
