import DocContract.Instant
import DocContract.Text.Decimal
import DocContract.Toml

/-!
# Bare scalars of TOML

A bare scalar is a truth value, a number, a date or a time. Underscores may stand between digits.
-/

namespace DocContract.Toml

open Text

/-- Is the text a run of digits of a kind, with underscores only between digits? -/
def isDigitRun (digit : Char → Bool) : Text → Bool
  | [] => false
  | [c] => digit c
  | c :: d :: r =>
    digit c && (if d == '_' then isDigitRun digit r else isDigitRun digit (d :: r))

/-- The text without underscores. -/
def withoutUnderscores (t : Text) : Text := t.filter (· != '_')

/-- Is the text a whole number: a run of decimal digits with no zero in front? -/
def isWhole (t : Text) : Bool :=
  isDigitRun Char.isDigit t && (t.length == 1 || t.head? != some '0')

/-- The sign of a number, and the text behind it. -/
def signed (t : Text) : Bool × Text :=
  match t with
  | '-' :: r => (true, r)
  | '+' :: r => (false, r)
  | r => (false, r)

/-- The integers that can be read: those of 128 bits, with a sign or without. -/
def isInRange (n : Int) : Bool :=
  -Int.ofNat (Nat.pow 2 127) ≤ n && n < Int.ofNat (Nat.pow 2 128)

/-- The integer, if it is in range. -/
def integerInRange? (n : Int) : Option Toml := if isInRange n then some (.integer n) else none

/-- The value of digits in a base. -/
def valueIn (base : Nat) (t : Text) : Nat :=
  t.foldl (fun n c => n * base + (hexValue? c).getD 0) 0

/-- An integer in base sixteen, eight or two, behind its mark. -/
def based? (base : Nat) (t : Text) : Option Toml :=
  if isDigitRun (fun c => (hexValue? c).any (· < base)) t then
    integerInRange? (valueIn base (withoutUnderscores t))
  else none

/-- Is the text an exponent: a sign or none, and digits? -/
def isExponent (t : Text) : Bool := isDigitRun Char.isDigit (signed t).2

/-- Is the text a whole number with a fraction, an exponent or both? -/
def isFloat (t : Text) : Bool :=
  let body (c : Char) : Bool := c.isDigit || c == '_'
  isWhole (t.takeWhile body) &&
    match t.dropWhile body with
    | '.' :: r =>
      isDigitRun Char.isDigit (r.takeWhile body) &&
        match r.dropWhile body with
        | [] => true
        | e :: r => (e == 'e' || e == 'E') && isExponent r
    | e :: r => (e == 'e' || e == 'E') && isExponent r
    | [] => false

/-- The number that a text writes. -/
def number? (t : Text) : Option Toml :=
  let (negative, body) := signed t
  match t with
  | '0' :: 'x' :: r => based? 16 r
  | '0' :: 'o' :: r => based? 8 r
  | '0' :: 'b' :: r => based? 2 r
  | _ =>
    if body == "inf".toList || body == "nan".toList then some (.float t)
    else if isWhole body then
      let n : Int := digitsValue (withoutUnderscores body)
      integerInRange? (if negative then -n else n)
    else if isFloat body && !(Decimal.ofLiteral (withoutUnderscores body)).exceedsDouble then
      some (.float t)
    else none

/-! ### Dates and times -/

/-- A number of exactly `n` digits, and the rest. -/
def digitsAt? (n : Nat) (t : Text) : Option (Nat × Text) :=
  let digits := t.take n
  if digits.length == n && digits.all Char.isDigit then some (digitsValue digits, t.drop n)
  else none

/-- The text behind a given character. -/
def charAt? (c : Char) : Text → Option Text
  | d :: r => if c = d then some r else none
  | [] => none

/-- The text behind a date. -/
def dateAt? (t : Text) : Option Text := do
  let (year, r) ← digitsAt? 4 t
  let (month, r) ← digitsAt? 2 (← charAt? '-' r)
  let (day, r) ← digitsAt? 2 (← charAt? '-' r)
  if isDate year month day then some r else none

/-- The text behind a fraction of a second, if there is one. -/
def fractionAt? : Text → Option Text
  | '.' :: c :: r => if c.isDigit then some (r.dropWhile Char.isDigit) else none
  | ['.'] => none
  | t => some t

/-- The text behind the seconds of a time, which may be missing. -/
def secondsAt? (hour minute : Nat) : Text → Option Text
  | ':' :: r => do
    let (second, r) ← digitsAt? 2 r
    if isTime hour minute second 0 then fractionAt? r else none
  | t => if isTime hour minute 0 0 then some t else none

/-- The text behind a time of day. -/
def timeAt? (t : Text) : Option Text := do
  let (hour, r) ← digitsAt? 2 t
  let (minute, r) ← digitsAt? 2 (← charAt? ':' r)
  secondsAt? hour minute r

/-- Is the text an offset from UTC? -/
def isOffset (t : Text) : Bool :=
  match t with
  | [c] => c == 'Z' || c == 'z'
  | c :: r =>
    (c == '+' || c == '-') &&
      match do
        let (hour, r) ← digitsAt? 2 r
        let (minute, r) ← digitsAt? 2 (← charAt? ':' r)
        pure (hour, minute, r) with
      | some (hour, minute, []) => hour < 24 && minute < 60
      | _ => false
  | [] => false

/-- Is the text a date, a time or both? An offset needs both. -/
def isDatetime (t : Text) : Bool :=
  match dateAt? t with
  | some [] => true
  | some (c :: r) =>
    (c == 'T' || c == 't' || c == ' ') &&
      match timeAt? r with
      | some rest => rest.isEmpty || isOffset rest
      | none => false
  | none => timeAt? t == some []

/-- The value of a bare scalar. -/
def scalar? (t : Text) : Option Toml :=
  if t == "true".toList then some (.bool true)
  else if t == "false".toList then some (.bool false)
  else if isDatetime t then some (.datetime t)
  else number? t

end DocContract.Toml
