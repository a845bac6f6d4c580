import DocContract.Instant
import DocContract.Proofs.Json.Literal
import Mathlib.Data.Nat.Digits.Defs

/-!
# Written instants are read back

Every part of a written instant is a number with as many digits as it needs, and no digit follows
it. So reading takes the parts off one by one, and the instant that is read is the one that was
written.
-/

namespace DocContract

open Text

namespace Instant

/-! ### Numbers with leading zeros -/

private theorem isDigit_of_mem_padded {length n : Nat} {c : Char} (h : c ∈ padded length n) :
    c.isDigit = true := by
  rcases List.mem_append.mp h with h | h
  · rw [(List.mem_replicate.mp h).2]
    rfl
  · exact isDigit_of_mem_ofNat h

private theorem padded_ne_nil (length n : Nat) : padded length n ≠ [] :=
  List.append_ne_nil_of_right_ne_nil _ (ofNat_ne_nil n)

private theorem length_padded {length n : Nat} (hl : 0 < length) (hn : n < 10 ^ length) :
    (padded length n).length = length := by
  have hle : (ofNat n).length ≤ length := Nat.toDigits_length 10 n length hl hn
  rw [padded, List.length_append, List.length_replicate]
  omega

/-- Leading zeros do not count. -/
theorem digitsValue_padded (length n : Nat) : digitsValue (padded length n) = n := by
  have hzeros : ∀ k, (List.replicate k '0').foldl
      (fun n c => n * 10 + (c.toNat - '0'.toNat)) 0 = 0 := by
    intro k
    induction k with
    | zero => rfl
    | succ k ih => rw [List.replicate_succ, List.foldl_cons]; exact ih
  rw [padded, digitsValue, List.foldl_append, hzeros]
  exact digitsValue_ofNat n

/-- No digit comes first. -/
def StartsNoDigit (t : Text) : Prop := ∀ c ∈ t.head?, c.isDigit = false

private theorem startsNoDigit_cons {c : Char} {r : Text} (h : c.isDigit = false) :
    StartsNoDigit (c :: r) := by
  rintro d ⟨⟩
  exact h

private theorem number?_padded {max length n : Nat} {r : Text}
    (hmax : (padded length n).length ≤ max)
    (hr : StartsNoDigit r) : number? max (padded length n ++ r) = some (n, r) := by
  have hempty : (padded length n).isEmpty = false :=
    List.isEmpty_eq_false_iff.mpr (padded_ne_nil length n)
  unfold number?
  rw [takeWhile_run (fun _ => isDigit_of_mem_padded) hr, List.take_of_length_le hmax]
  simp only [hempty, Bool.false_eq_true, if_false, digitsValue_padded, List.drop_left]

/-- A digit is no blank, so a number is found where it stands. -/
theorem trimStart_padded (length n : Nat) (r : Text) :
    trimStart (padded length n ++ r) = padded length n ++ r := by
  cases hp : padded length n with
  | nil => exact absurd hp (padded_ne_nil length n)
  | cons c ds =>
    have hc : c.isDigit = true := isDigit_of_mem_padded (hp ▸ List.mem_cons_self)
    refine trimStart_cons_solid ?_
    simp only [Char.isDigit, Bool.and_eq_true, decide_eq_true_eq] at hc
    have hlow : 48 ≤ c.toNat := hc.1
    have hhigh : c.toNat ≤ 57 := hc.2
    simp only [isBlank, Bool.or_eq_false_iff, Bool.and_eq_false_iff, decide_eq_false_iff_not,
      beq_eq_false_iff_ne]
    omega

/-! ### The parts of an instant -/

private theorem field?_padded {n : Nat} (hn : n < 100) {r : Text} (hr : StartsNoDigit r) :
    field? 2 (padded 2 n ++ r) = some (n, r) := by
  rw [field?, trimStart_padded]
  exact number?_padded (length_padded (by decide) hn).le hr

private theorem mark?_cons {c : Char} (hc : isBlank c = false) (r : Text) :
    mark? c (c :: r) = some r := by
  rw [mark?, trimStart_cons_solid hc]
  simp

/-- A year without a sign has four digits at most. -/
theorem year?_padded {n : Nat} (hn : n < 10 ^ 4) {r : Text} (hr : StartsNoDigit r) :
    year? (padded 4 n ++ r) = some ((n : Int), r) := by
  have hnumber := number?_padded (length_padded (by decide) hn).le hr
  obtain ⟨c, ds, hp⟩ := List.exists_cons_of_ne_nil (padded_ne_nil 4 n)
  have hc : c.isDigit = true := isDigit_of_mem_padded (hp ▸ List.mem_cons_self)
  unfold year?
  rw [trimStart_padded]
  split
  · next heq =>
    rw [hp] at heq
    cases heq
    cases hc
  · next heq =>
    rw [hp] at heq
    cases heq
    cases hc
  · rw [hnumber, Option.map_some]

private theorem year?_yearText (year : Int) {r : Text} (hr : StartsNoDigit r) :
    year? (yearText year ++ r) = some (year, r) := by
  have hsigned : ∀ n, number? (padded 4 n ++ r).length (padded 4 n ++ r) = some (n, r) :=
    fun n => number?_padded (by simp) hr
  unfold yearText
  split
  · next h =>
    rw [Bool.and_eq_true, decide_eq_true_eq, decide_eq_true_eq] at h
    rw [year?_padded (by omega) hr, Int.toNat_of_nonneg h.1]
  · next h =>
    rw [Bool.and_eq_true, decide_eq_true_eq, decide_eq_true_eq] at h
    split
    · rw [List.cons_append, year?, trimStart_cons_solid (by decide)]
      simp only [hsigned, Option.map_some]
      congr 2
      omega
    · rw [List.cons_append, year?, trimStart_cons_solid (by decide)]
      simp only [hsigned, Option.map_some]
      congr 2
      omega

private theorem fraction?_padded {length n : Nat} (hl : 0 < length) (hle : length ≤ 9)
    (hn : n < 10 ^ length) {r : Text} (hr : StartsNoDigit r) :
    fraction? ('.' :: padded length n ++ r) = some (n * 10 ^ (9 - length), r) := by
  have hempty : (padded length n).isEmpty = false :=
    List.isEmpty_eq_false_iff.mpr (padded_ne_nil length n)
  have hlength := length_padded hl hn
  rw [List.cons_append, fraction?, takeWhile_run (fun _ => isDigit_of_mem_padded) hr,
    dropWhile_run (fun _ => isDigit_of_mem_padded) hr, List.take_of_length_le (by omega)]
  simp only [hempty, Bool.false_eq_true, if_false, digitsValue_padded, hlength]
  rfl

private theorem fraction?_fractionText {nanos : Nat} (hn : nanos < 1000000000) {c : Char} {r : Text}
    (hdigit : c.isDigit = false) (hdot : c ≠ '.') :
    fraction? (fractionText nanos ++ c :: r) = some (nanos, c :: r) := by
  have hr : StartsNoDigit (c :: r) := startsNoDigit_cons hdigit
  unfold fractionText
  split
  · next h =>
    rw [List.nil_append, fraction?, beq_iff_eq.mp h]
    simp [hdot]
  · split
    · next h =>
      rw [beq_iff_eq] at h
      rw [fraction?_padded (by decide) (by decide) (by omega) hr]
      congr 2
      omega
    · split
      · next h =>
        rw [beq_iff_eq] at h
        rw [fraction?_padded (by decide) (by decide) (by omega) hr]
        congr 2
        omega
      · rw [fraction?_padded (by decide) (by decide) hn hr]
        congr 2
        omega

private theorem startsNoDigit_fractionText (nanos : Nat) (r : Text) :
    StartsNoDigit (fractionText nanos ++ 'Z' :: r) := by
  unfold fractionText
  split
  · exact startsNoDigit_cons rfl
  · split
    · exact startsNoDigit_cons rfl
    · split <;> exact startsNoDigit_cons rfl

private theorem ofFields?_self (t : Instant) :
    ofFields? t.year t.month t.day t.hour t.minute t.second t.nanos = some t := by
  rw [ofFields?, dif_pos t.isDate, dif_pos t.isTime]

private theorem daysInMonth_le (year : Int) (month : Nat) : daysInMonth year month ≤ 31 := by
  unfold daysInMonth
  split
  · split <;> decide
  · split <;> decide

/-- The written form of an instant is read as the instant. -/
theorem ofText?_toText (t : Instant) : ofText? t.toText = some t := by
  have hdate := t.isDate
  have htime := t.isTime
  simp only [DocContract.isDate, DocContract.isTime, Bool.and_eq_true, decide_eq_true_eq]
    at hdate htime
  have hlast := daysInMonth_le t.year t.month
  have hwritten : t.toText = yearText t.year ++ '-' :: (padded 2 t.month ++ '-' ::
      (padded 2 t.day ++ 'T' :: (padded 2 t.hour ++ ':' :: (padded 2 t.minute ++ ':' ::
        (padded 2 t.second ++ (fractionText t.nanos ++ ['Z'])))))) := by
    simp [toText]
  have hfield : ∀ {c : Char}, c.isDigit = false → ∀ {n : Nat}, n < 100 → ∀ r,
      field? 2 (padded 2 n ++ c :: r) = some (n, c :: r) :=
    fun hc _ hn _ => field?_padded hn (startsNoDigit_cons hc)
  have hmonth := hfield (c := '-') rfl (n := t.month) (by omega)
  have hday := hfield (c := 'T') rfl (n := t.day) (by omega)
  have hhour := hfield (c := ':') rfl (n := t.hour) (by omega)
  have hminute := hfield (c := ':') rfl (n := t.minute) (by omega)
  have hsecond := field?_padded (n := t.second) (by omega) (startsNoDigit_fractionText t.nanos [])
  have hfraction : fraction? (fractionText t.nanos ++ ['Z']) = some (t.nanos, ['Z']) :=
    fraction?_fractionText htime.2 rfl (by decide)
  have hoffset : offset? (trimStart ['Z']) = some (0, []) := by decide
  have hdash := mark?_cons (c := '-') (by decide)
  have hcolon := mark?_cons (c := ':') (by decide)
  rw [hwritten]
  refine Option.bind_eq_some_iff.mpr ⟨_, year?_yearText t.year (startsNoDigit_cons rfl), ?_⟩
  refine Option.bind_eq_some_iff.mpr ⟨_, hdash _, ?_⟩
  refine Option.bind_eq_some_iff.mpr ⟨_, hmonth _, ?_⟩
  refine Option.bind_eq_some_iff.mpr ⟨_, hdash _, ?_⟩
  refine Option.bind_eq_some_iff.mpr ⟨_, hday _, ?_⟩
  refine Option.bind_eq_some_iff.mpr ⟨_, hhour _, ?_⟩
  refine Option.bind_eq_some_iff.mpr ⟨_, hcolon _, ?_⟩
  refine Option.bind_eq_some_iff.mpr ⟨_, hminute _, ?_⟩
  refine Option.bind_eq_some_iff.mpr ⟨_, hcolon _, ?_⟩
  refine Option.bind_eq_some_iff.mpr ⟨_, hsecond, ?_⟩
  refine Option.bind_eq_some_iff.mpr ⟨_, hfraction, ?_⟩
  refine Option.bind_eq_some_iff.mpr ⟨_, hoffset, ?_⟩
  exact Option.bind_eq_some_iff.mpr ⟨_, ofFields?_self t, rfl⟩

end Instant

end DocContract
