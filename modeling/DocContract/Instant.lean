import DocContract.Json.Record

/-!
# Instants

A point in time is a calendar date and a time of day in UTC, to the nanosecond; the second may be
sixty. Instants compare field by field. They are written in RFC 3339 with `Z` and, for a fraction,
three, six or nine digits. Reading is more liberal: blanks around the parts, short numbers, a signed
year and any offset are understood, and the offset is taken off.
-/

namespace DocContract

/-- Is the year a leap year of the Gregorian calendar? -/
def isLeapYear (year : Int) : Bool := year % 4 == 0 && (year % 100 != 0 || year % 400 == 0)

/-- The number of days of a month. -/
def daysInMonth (year : Int) (month : Nat) : Nat :=
  if month == 2 then (if isLeapYear year then 29 else 28)
  else if month == 4 || month == 6 || month == 9 || month == 11 then 30
  else 31

/-- The years in which instants lie. -/
def isYear (year : Int) : Bool := -262143 ≤ year && year ≤ 262142

/-- Do the numbers name a day? -/
def isDate (year : Int) (month day : Nat) : Bool :=
  isYear year && 1 ≤ month && month ≤ 12 && 1 ≤ day && day ≤ daysInMonth year month

/-- Do the numbers name a time of day? -/
def isTime (hour minute second nanos : Nat) : Bool :=
  hour < 24 && minute < 60 && second ≤ 60 && nanos < 1000000000

/-- A point in time, by its date and time in UTC. -/
structure Instant where
  year : Int
  month : Nat
  day : Nat
  hour : Nat
  minute : Nat
  second : Nat
  nanos : Nat
  isDate : isDate year month day = true := by decide
  isTime : isTime hour minute second nanos = true := by decide
  deriving DecidableEq, Repr

namespace Instant

/-- The instant of some numbers, if they name one. -/
def ofFields? (year : Int) (month day hour minute second nanos : Nat) : Option Instant :=
  if hd : DocContract.isDate year month day = true then
    if ht : DocContract.isTime hour minute second nanos = true then
      some ⟨year, month, day, hour, minute, second, nanos, hd, ht⟩
    else none
  else none

/-- The order of instants: by year, month and so on down to the nanosecond. -/
def order (a b : Instant) : Ordering :=
  (compare a.year b.year).then <| (compare a.month b.month).then <| (compare a.day b.day).then <|
  (compare a.hour b.hour).then <| (compare a.minute b.minute).then <|
  (compare a.second b.second).then (compare a.nanos b.nanos)

/-- Is the first instant no earlier than the second? -/
def notBefore (a b : Instant) : Bool := a.order b != .lt

/-- The date before. -/
def previousDate (year : Int) (month day : Nat) : Int × Nat × Nat :=
  if day > 1 then (year, month, day - 1)
  else if month > 1 then (year, month - 1, daysInMonth year (month - 1))
  else (year - 1, 12, 31)

/-- The date after. -/
def nextDate (year : Int) (month day : Nat) : Int × Nat × Nat :=
  if day < daysInMonth year month then (year, month, day + 1)
  else if month < 12 then (year, month + 1, 1)
  else (year + 1, 1, 1)

/-- The instant that a clock ahead of UTC by `offset` minutes shows as the given instant. The offset
is less than a day. -/
def shift? (t : Instant) (offset : Int) : Option Instant :=
  let minutes : Int := t.hour * 60 + t.minute - offset
  let (year, month, day) :=
    if minutes < 0 then previousDate t.year t.month t.day
    else if minutes < 1440 then (t.year, t.month, t.day)
    else nextDate t.year t.month t.day
  let ofDay := (minutes % 1440).toNat
  ofFields? year month day (ofDay / 60) (ofDay % 60) t.second t.nanos

/-- A number with zeros in front of it up to a length. -/
def padded (length n : Nat) : Text :=
  let digits := Text.ofNat n
  List.replicate (length - digits.length) '0' ++ digits

/-- The year: four digits, with a sign if that is not enough or the year is negative. -/
def yearText (year : Int) : Text :=
  if 0 ≤ year && year ≤ 9999 then padded 4 year.toNat
  else (if year < 0 then '-' else '+') :: padded 4 year.natAbs

/-- The fraction of the second, with as many groups of three digits as it needs. -/
def fractionText (nanos : Nat) : Text :=
  if nanos == 0 then []
  else if nanos % 1000000 == 0 then '.' :: padded 3 (nanos / 1000000)
  else if nanos % 1000 == 0 then '.' :: padded 6 (nanos / 1000)
  else '.' :: padded 9 nanos

/-- The written form. -/
def toText (t : Instant) : Text :=
  yearText t.year ++ '-' :: padded 2 t.month ++ '-' :: padded 2 t.day ++ 'T' :: padded 2 t.hour
    ++ ':' :: padded 2 t.minute ++ ':' :: padded 2 t.second ++ fractionText t.nanos ++ ['Z']

/-! ### Reading -/

/-- A number of one digit up to `max` digits, and the rest. -/
def number? (max : Nat) (t : Text) : Option (Nat × Text) :=
  let digits := (t.takeWhile Char.isDigit).take max
  if digits.isEmpty then none else some (Text.digitsValue digits, t.drop digits.length)

/-- A number after blanks. -/
def field? (max : Nat) (t : Text) : Option (Nat × Text) := number? max (Text.trimStart t)

/-- A mark after blanks. -/
def mark? (c : Char) (t : Text) : Option Text :=
  match Text.trimStart t with
  | d :: r => if d == c then some r else none
  | [] => none

/-- A year after blanks: up to four digits, or a sign and any number of them. -/
def year? (t : Text) : Option (Int × Text) :=
  match Text.trimStart t with
  | '-' :: r => (number? r.length r).map fun p => (-(p.1 : Int), p.2)
  | '+' :: r => (number? r.length r).map fun p => ((p.1 : Int), p.2)
  | r => (number? 4 r).map fun p => ((p.1 : Int), p.2)

/-- The nanoseconds of a fraction, if there is one; digits after the ninth do not count. -/
def fraction? (t : Text) : Option (Nat × Text) :=
  match t with
  | '.' :: r =>
    let digits := r.takeWhile Char.isDigit
    let kept := digits.take 9
    if digits.isEmpty then none
    else
      some (Text.digitsValue kept * Nat.pow 10 (9 - kept.length), r.dropWhile Char.isDigit)
  | _ => some (0, t)

/-- The hours and minutes of an offset, after its sign. -/
def clock? (t : Text) : Option (Nat × Text) :=
  match t with
  | a :: b :: r =>
    if a.isDigit && b.isDigit then
      match r.dropWhile fun c => c == ':' || Text.isBlank c with
      | c :: d :: r₂ =>
        if c.isDigit && d.isDigit && c.toNat < '6'.toNat then
          some (Text.digitsValue [a, b] * 60 + Text.digitsValue [c, d], r₂)
        else none
      | _ => none
    else none
  | _ => none

/-- An offset from UTC in minutes: `Z`, `UTC`, or a sign with hours and minutes. -/
def offset? (t : Text) : Option (Int × Text) :=
  if Text.eqIgnoringAsciiCase (t.take 3) "UTC" then some (0, t.drop 3)
  else match t with
    | [] => none
    | c :: r =>
      if c == 'Z' || c == 'z' then some (0, r)
      else if c == '+' then (clock? r).map fun p => ((p.1 : Int), p.2)
      else if c == '-' || c.toNat == 0x2212 then (clock? r).map fun p => (-(p.1 : Int), p.2)
      else none

/-- Reads the written form. -/
def ofText? (t : Text) : Option Instant := do
  let (year, t) ← year? t
  let t ← mark? '-' t
  let (month, t) ← field? 2 t
  let t ← mark? '-' t
  let (day, t) ← field? 2 t
  let t ← match t with
    | c :: r => if c == 'T' || c == 't' || c == ' ' then some r else none
    | [] => none
  let (hour, t) ← field? 2 t
  let t ← mark? ':' t
  let (minute, t) ← field? 2 t
  let t ← mark? ':' t
  let (second, t) ← field? 2 t
  let (nanos, t) ← fraction? t
  let (offset, t) ← offset? (Text.trimStart t)
  let instant ← ofFields? year month day hour minute second nanos
  if (Text.trimStart t).isEmpty && -1440 < offset && offset < 1440 then
    if offset == 0 then some instant else instant.shift? offset
  else none

/-- The JSON form. -/
def toJson (t : Instant) : Json := .string t.toText

/-- Reads the JSON form. -/
def ofJson? (j : Json) : Option Instant := (Json.asText? j).bind ofText?

end Instant

end DocContract
