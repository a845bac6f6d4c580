import DocContract.Proofs.Comment.Expressible

/-!
# Types in braces

A type in braces ends at the brace that closes the first one. What is split off there is balanced,
and every balanced text in braces is split off whole, whatever follows it.
-/

namespace DocContract

open Text

/-! ### Open braces -/

/-- With so many braces open in front of it, the text closes these and its own, and closes none
before it is opened. -/
def ClosesBraces (depth : Nat) (t : Text) : Prop :=
  (∀ p, p <+: t → p.count '}' ≤ depth + p.count '{') ∧ t.count '}' = depth + t.count '{'

private theorem isBalanced_iff {t : Text} : IsBalanced t ↔ ClosesBraces 0 t := by
  unfold IsBalanced ClosesBraces
  simp only [Nat.zero_add, eq_comm]

private theorem forall_prefix_cons {P : Text → Prop} {c : Char} {t : Text} :
    (∀ p, p <+: c :: t → P p) ↔ P [] ∧ ∀ p, p <+: t → P (c :: p) := by
  constructor
  · intro h
    exact ⟨h [] List.nil_prefix, fun p hp => h _ (List.cons_prefix_cons.mpr ⟨rfl, hp⟩)⟩
  · rintro ⟨hnil, hcons⟩ p hp
    rcases List.prefix_cons_iff.mp hp with rfl | ⟨q, rfl, hq⟩
    · exact hnil
    · exact hcons q hq

private theorem closesBraces_nil {depth : Nat} : ClosesBraces depth [] ↔ depth = 0 := by
  unfold ClosesBraces
  simp only [List.prefix_nil, forall_eq, List.count_nil]
  omega

/-- An opening brace is one more to close. -/
theorem closesBraces_open {depth : Nat} {t : Text} :
    ClosesBraces depth ('{' :: t) ↔ ClosesBraces (depth + 1) t := by
  have hne : '{' ≠ '}' := by decide
  unfold ClosesBraces
  rw [forall_prefix_cons]
  simp only [List.count_cons_self, List.count_cons_of_ne hne, List.count_nil]
  constructor
  · rintro ⟨⟨-, hp⟩, ht⟩
    exact ⟨fun p h => by have := hp p h; omega, by omega⟩
  · rintro ⟨hp, ht⟩
    exact ⟨⟨by omega, fun p h => by have := hp p h; omega⟩, by omega⟩

/-- A closing brace closes an open one. -/
theorem closesBraces_close {depth : Nat} {t : Text} :
    ClosesBraces depth ('}' :: t) ↔ depth ≠ 0 ∧ ClosesBraces (depth - 1) t := by
  have hne : '}' ≠ '{' := by decide
  unfold ClosesBraces
  rw [forall_prefix_cons]
  simp only [List.count_cons_self, List.count_cons_of_ne hne, List.count_nil]
  constructor
  · rintro ⟨⟨-, hp⟩, ht⟩
    have hfirst := hp [] List.nil_prefix
    simp only [List.count_nil] at hfirst
    exact ⟨by omega, fun p h => by have := hp p h; omega, by omega⟩
  · rintro ⟨hd, hp, ht⟩
    exact ⟨⟨by omega, fun p h => by have := hp p h; omega⟩, by omega⟩

/-- Other characters do not matter. -/
theorem closesBraces_other {depth : Nat} {c : Char} {t : Text} (ho : c ≠ '{') (hc : c ≠ '}') :
    ClosesBraces depth (c :: t) ↔ ClosesBraces depth t := by
  unfold ClosesBraces
  rw [forall_prefix_cons]
  simp [List.count_cons_of_ne ho, List.count_cons_of_ne hc]

/-! ### The closing brace -/

namespace Header

/-- A character in front of the closing brace is kept, and the braces that are open behind it are
still to be closed. -/
theorem splitClosing?_kept {depth behind : Nat} {c : Char} {r p rest : Text}
    (ih : ∀ q, splitClosing? behind r = some (q, rest)
      ↔ r = q ++ '}' :: rest ∧ ClosesBraces behind q)
    (hbehind : ∀ q, ClosesBraces depth (c :: q) ↔ ClosesBraces behind q)
    (hkept : depth = 0 → c ≠ '}') :
    ((splitClosing? behind r).map fun q => (c :: q.1, q.2)) = some (p, rest)
      ↔ c :: r = p ++ '}' :: rest ∧ ClosesBraces depth p := by
  rw [Option.map_eq_some_iff]
  constructor
  · rintro ⟨⟨q, _⟩, hq, ⟨⟩⟩
    obtain ⟨rfl, hclosed⟩ := (ih q).mp hq
    exact ⟨rfl, (hbehind q).mpr hclosed⟩
  · rintro ⟨heq, hclosed⟩
    cases p with
    | nil => exact absurd (List.cons.inj heq).1 (hkept (closesBraces_nil.mp hclosed))
    | cons d q =>
      obtain ⟨rfl, hr⟩ := List.cons.inj heq
      exact ⟨(q, rest), (ih q).mpr ⟨hr, (hbehind q).mp hclosed⟩, rfl⟩

/-- The split is at the brace that closes one more than the braces that are open in front. -/
theorem splitClosing?_eq_some_iff {depth : Nat} {t p rest : Text} :
    splitClosing? depth t = some (p, rest) ↔ t = p ++ '}' :: rest ∧ ClosesBraces depth p := by
  induction t generalizing depth p with
  | nil => simp [splitClosing?]
  | cons c r ih =>
    rw [splitClosing?]
    simp only [beq_iff_eq]
    by_cases hopen : c = '{'
    · subst hopen
      rw [if_pos rfl]
      exact splitClosing?_kept (fun _ => ih) (fun _ => closesBraces_open) fun _ => by decide
    · rw [if_neg hopen]
      by_cases hclose : c = '}'
      · subst hclose
        rw [if_pos rfl]
        by_cases hd : depth = 0
        · -- This is the brace itself.
          subst hd
          rw [if_pos rfl]
          constructor
          · rintro ⟨⟩
            exact ⟨rfl, closesBraces_nil.mpr rfl⟩
          · rintro ⟨heq, hclosed⟩
            cases p with
            | nil => cases heq; rfl
            | cons d q =>
              obtain ⟨rfl, -⟩ := List.cons.inj heq
              exact absurd rfl (closesBraces_close.mp hclosed).1
        · rw [if_neg hd]
          apply splitClosing?_kept (fun _ => ih) (fun _ => ?_) fun h => absurd h hd
          rw [closesBraces_close]
          exact and_iff_right hd
      · rw [if_neg hclose]
        exact splitClosing?_kept (fun _ => ih) (fun _ => closesBraces_other hopen hclose)
          fun _ => hclose

/-- A text is split off from a text in braces when it stands between them and is balanced. -/
theorem splitBraced?_eq_some_iff {t type rest : Text} :
    splitBraced? t = some (type, rest) ↔ t = '{' :: (type ++ '}' :: rest) ∧ IsBalanced type := by
  rw [isBalanced_iff]
  unfold splitBraced?
  split
  · rw [splitClosing?_eq_some_iff]
    simp
  · next hne =>
    constructor
    · intro h
      cases h
    · rintro ⟨rfl, -⟩
      exact absurd rfl (hne _)

end Header

end DocContract
