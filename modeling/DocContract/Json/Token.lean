import DocContract.Json

/-!
# JSON tokens

The lexical level of JSON: punctuation, string literals and bare words. A bare word is a maximal run
of characters that are neither blank nor punctuation; it is a constant or a number. `scan?` refuses
a text with a defect in a literal; which tokens may follow each other is decided by the reader.
-/

namespace DocContract.Json

open Text

/-- A token of JSON. -/
inductive Token where
  | openArray
  | closeArray
  | openObject
  | closeObject
  | comma
  | colon
  /-- A string literal, decoded. -/
  | string (value : Text)
  /-- A constant or a number. -/
  | scalar (value : Json)

namespace Token

/-- The blanks allowed between tokens. -/
def isSpace (c : Char) : Bool := c == ' ' || c == '\n' || c == '\t' || c == '\r'

/-- The token of a punctuation character. -/
def punctuation? (c : Char) : Option Token :=
  if c = '[' then some .openArray
  else if c = ']' then some .closeArray
  else if c = '{' then some .openObject
  else if c = '}' then some .closeObject
  else if c = ',' then some .comma
  else if c = ':' then some .colon
  else none

/-- Four hexadecimal digits and what follows them. -/
def hexQuad? : Text → Option (Nat × Text)
  | a :: b :: c :: d :: r =>
    match hexValue? a, hexValue? b, hexValue? c, hexValue? d with
    | some a, some b, some c, some d => some (((a * 16 + b) * 16 + c) * 16 + d, r)
    | _, _, _, _ => none
  | _ => none

/-- The character of an escape that is written with a letter or a sign. -/
def shortEscape? (c : Char) : Option Char :=
  if c = '"' then some '"'
  else if c = '\\' then some '\\'
  else if c = '/' then some '/'
  else if c = 'b' then some (Char.ofNat 8)
  else if c = 'f' then some (Char.ofNat 12)
  else if c = 'n' then some '\n'
  else if c = 'r' then some '\r'
  else if c = 't' then some '\t'
  else none

/-- The character of an escape written with hexadecimal digits, after the letter `u`. A high
surrogate needs a low one in a second escape; a low one alone is refused. -/
def unicodeEscape? (t : Text) : Option (Char × Text) :=
  match hexQuad? t with
  | none => none
  | some (n, r) =>
    if 0xD800 ≤ n ∧ n < 0xDC00 then
      match r with
      | '\\' :: 'u' :: r₂ =>
        match hexQuad? r₂ with
        | none => none
        | some (m, r₃) =>
          if 0xDC00 ≤ m ∧ m < 0xE000 then
            some (Char.ofNat (0x10000 + (n - 0xD800) * 0x400 + (m - 0xDC00)), r₃)
          else none
      | _ => none
    else if 0xDC00 ≤ n ∧ n < 0xE000 then none
    else some (Char.ofNat n, r)

/-- The first character of a string literal's content and what follows it; the closing quote is not
one. A control character has to be escaped. -/
def literalChar? : Text → Option (Char × Text)
  | [] => none
  | c :: r =>
    if c = '\\' then
      match r with
      | [] => none
      | e :: r₂ => if e = 'u' then unicodeEscape? r₂ else (shortEscape? e).map (·, r₂)
    else if c.toNat < 0x20 then none
    else some (c, r)

private theorem hexQuad?_length {t r : Text} {n : Nat} (h : hexQuad? t = some (n, r)) :
    r.length < t.length := by
  unfold hexQuad? at h
  split at h
  · split at h
    · cases h; simp only [List.length_cons]; omega
    · cases h
  · cases h

private theorem unicodeEscape?_length {t r : Text} {c : Char} (h : unicodeEscape? t = some (c, r)) :
    r.length < t.length := by
  unfold unicodeEscape? at h
  split at h
  · cases h
  · next n r₁ h₁ =>
    have l₁ := hexQuad?_length h₁
    split at h
    · split at h
      · split at h
        · cases h
        · next m r₃ h₂ =>
          have l₂ := hexQuad?_length h₂
          split at h
          · simp only [Option.some.injEq, Prod.mk.injEq] at h
            obtain ⟨_, rfl⟩ := h
            simp only [List.length_cons] at l₁; omega
          · cases h
      · cases h
    · split at h
      · cases h
      · simp only [Option.some.injEq, Prod.mk.injEq] at h
        obtain ⟨_, rfl⟩ := h
        exact l₁

private theorem literalChar?_length {t r : Text} {c : Char} (h : literalChar? t = some (c, r)) :
    r.length < t.length := by
  unfold literalChar? at h
  split at h
  · cases h
  · split at h
    · split at h
      · cases h
      · split at h
        · have := unicodeEscape?_length h; simp only [List.length_cons]; omega
        · simp only [Option.map_eq_some_iff, Prod.mk.injEq] at h
          obtain ⟨_, _, _, rfl⟩ := h
          simp only [List.length_cons]; omega
    · split at h
      · cases h
      · simp only [Option.some.injEq, Prod.mk.injEq] at h
        obtain ⟨_, rfl⟩ := h
        simp

/-- The content of a string literal after its opening quote, and what follows its closing quote. -/
def literal? (t : Text) : Option (Text × Text) :=
  match t with
  | [] => none
  | q :: r =>
    if q = '"' then some ([], r)
    else match _h : literalChar? (q :: r) with
      | none => none
      | some (c, r₂) => (literal? r₂).map fun p => (c :: p.1, p.2)
termination_by t.length
decreasing_by exact literalChar?_length _h

private theorem literal?_length {t s r : Text} (h : literal? t = some (s, r)) :
    r.length < t.length := by
  induction hn : t.length using Nat.strongRecOn generalizing t s with
  | ind n ih =>
    subst hn
    unfold literal? at h
    split at h
    · cases h
    · split at h
      · cases h; simp
      · split at h
        · cases h
        · next c r₂ hc =>
          have l := literalChar?_length hc
          cases hr : literal? r₂ with
          | none => simp [hr] at h
          | some p =>
            simp [hr] at h
            obtain ⟨_, rfl⟩ := h
            exact Nat.lt_trans (ih r₂.length l hr rfl) l

/-- Does the character belong to a bare word? -/
def isBare (c : Char) : Bool := !(isSpace c || c == '"' || (punctuation? c).isSome)

/-- A run of decimal digits that is a number: no zero in front of other digits. -/
def isInteger : Text → Bool
  | [] => false
  | [c] => c.isDigit
  | c :: r => c != '0' && c.isDigit && r.all Char.isDigit

/-- An exponent: a mark, a sign or none, and digits. -/
def isExponent : Text → Bool
  | e :: r =>
    let digits := match r with
      | s :: ds => if s == '+' || s == '-' then ds else r
      | [] => []
    (e == 'e' || e == 'E') && !digits.isEmpty && digits.all Char.isDigit
  | [] => false

/-- A number without its sign: digits, then a fraction or none, then an exponent or none. -/
def isUnsigned (t : Text) : Bool :=
  let whole := t.takeWhile Char.isDigit
  let rest := t.dropWhile Char.isDigit
  isInteger whole &&
    match rest with
    | [] => true
    | '.' :: r =>
      let digits := r.takeWhile Char.isDigit
      let tail := r.dropWhile Char.isDigit
      !digits.isEmpty && (tail.isEmpty || isExponent tail)
    | r => isExponent r

/-- The value of a bare word. -/
def bare? (t : Text) : Option Json :=
  if t = "null" then some .null
  else if t = "true" then some (.bool true)
  else if t = "false" then some (.bool false)
  else if isInteger t then some (.nat (digitsValue t))
  else if isUnsigned t || (t.head? == some '-' && isUnsigned t.tail) then some (.decimal t)
  else none

/-- The tokens of a text. -/
def scan? (t : Text) : Option (List Token) :=
  match t with
  | [] => some []
  | c :: r =>
    if isSpace c then scan? r
    else match punctuation? c with
      | some token => (scan? r).map (token :: ·)
      | none =>
        if c = '"' then
          match _h : literal? r with
          | none => none
          | some (s, r₂) => (scan? r₂).map (.string s :: ·)
        else
          match bare? (c :: r.takeWhile isBare) with
          | none => none
          | some v => (scan? (r.dropWhile isBare)).map (.scalar v :: ·)
termination_by t.length
decreasing_by
  · simp
  · simp
  · have := literal?_length _h; simp only [List.length_cons]; omega
  · have := (List.dropWhile_sublist isBare (l := r)).length_le
    simp only [List.length_cons]; omega

end Token

end DocContract.Json
