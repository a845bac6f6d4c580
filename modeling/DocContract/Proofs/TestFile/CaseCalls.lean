import DocContract.Proofs.Text.Cut
import DocContract.Proofs.Text.Trim
import DocContract.TestFile.Outline
import Mathlib.Data.List.Pairwise

/-!
# Calls of cases

Cases are collected from the text of a suite, from left to right. A call that begins behind another
one, and not behind the end of its title, is passed over. So the calls that are found are those of
the text that none of them reaches.
-/

namespace DocContract

open Text

/-! ### What readers leave

Each reader leaves an end of the text.
-/

section Readers

variable {t rest title : Text}

private theorem suffix_of_wordAt? {word : String} (h : wordAt? word t = some rest) : rest <:+ t :=
  ⟨word.toList, (after?_eq_some_iff.mp h).symm⟩

private theorem suffix_of_oneOfAt? {words : List String} (h : oneOfAt? words t = some rest) :
    rest <:+ t := by
  obtain ⟨word, -, hword⟩ := List.exists_of_findSome?_eq_some h
  exact suffix_of_wordAt? hword

private theorem knownModifier_suffix (words : List String) (t : Text) :
    knownModifier words t <:+ t := by
  unfold knownModifier
  split
  · next r =>
    cases hword : oneOfAt? words r with
    | none => exact List.suffix_refl _
    | some rest => exact (suffix_of_oneOfAt? hword).trans (List.suffix_cons _ _)
  · exact List.suffix_refl _

private theorem suffix_of_callAt? (h : callAt? t = some rest) : rest <:+ t :=
  (suffix_of_wordAt? h).trans (trimStart_suffix t)

private theorem suffix_of_literalTitle? {quote : Char}
    (h : literalTitle? quote t = some (title, rest)) : rest <:+ t := by
  fun_induction literalTitle? quote t generalizing title with
  | case1 => cases h
  | case2 => cases h
  | case3 c r _ ih =>
    obtain ⟨p, hp, hrest⟩ := Option.map_eq_some_iff.mp h
    cases hrest
    exact (ih hp).trans ((List.suffix_cons _ _).trans (List.suffix_cons _ _))
  | case4 r =>
    cases h
    exact List.suffix_cons _ _
  | case5 => cases h
  | case6 c r _ _ _ ih =>
    obtain ⟨p, hp, hrest⟩ := Option.map_eq_some_iff.mp h
    cases hrest
    exact (ih hp).trans (List.suffix_cons _ _)

private theorem suffix_of_nameTitle? (h : nameTitle? t = some (title, rest)) : rest <:+ t := by
  revert h
  fun_cases nameTitle? t with
  | case1 c r _ rest' hname hends =>
    intro h
    cases h
    exact (suffix_of_wordAt? hname).trans
      ((List.dropWhile_suffix _).trans (List.suffix_cons _ _))
  | case2 => exact nofun
  | case3 => exact nofun
  | case4 => exact nofun
  | case5 => exact nofun

private theorem suffix_of_title? (h : title? t = some (title, rest)) : rest <:+ t := by
  cases t with
  | nil => cases h
  | cons c r =>
    unfold title? at h
    dsimp only at h
    split at h
    · exact (suffix_of_literalTitle? h).trans (List.suffix_cons _ _)
    · exact suffix_of_nameTitle? h

/-- A call of a case begins with one of its words. -/
theorem word_of_caseCall? {p : Text × Text} (h : caseCall? t = some p) :
    ∃ word ∈ caseWords, ∃ rest, t = word.toList ++ rest := by
  unfold caseCall? calledTitle? at h
  obtain ⟨_, hcall, -⟩ := Option.bind_eq_some_iff.mp h
  obtain ⟨rest, hword, -⟩ := Option.bind_eq_some_iff.mp hcall
  obtain ⟨word, hmem, hrest⟩ := List.exists_of_findSome?_eq_some hword
  exact ⟨word, hmem, rest, after?_eq_some_iff.mp hrest⟩

/-- The words of a case have no blanks. -/
theorem solid_caseWords :
    ∀ word ∈ caseWords, (∀ c ∈ word.toList, isBlank c = false) ∧ word.toList ≠ [] := by
  intro word hword
  simp only [caseWords, List.mem_cons, List.not_mem_nil, or_false] at hword
  rcases hword with rfl | rfl <;> exact ⟨forall_mem_of_all (by decide), by decide⟩

/-- What a call leaves is an end of what stands behind its first character. -/
theorem suffix_of_caseCall? {c : Char} {r : Text} (h : caseCall? (c :: r) = some (title, rest)) :
    rest <:+ r := by
  obtain ⟨inner, hinner, htitle⟩ := Option.bind_eq_some_iff.mp h
  obtain ⟨behind, hword, hcall⟩ := Option.bind_eq_some_iff.mp hinner
  obtain ⟨word, hmem, hafter⟩ := List.exists_of_findSome?_eq_some hword
  obtain ⟨d, w, hne⟩ := List.exists_cons_of_ne_nil (solid_caseWords word hmem).2
  have hcons := after?_eq_some_iff.mp hafter
  rw [hne] at hcons
  have hbehind : behind <:+ r := ⟨w, (List.cons.inj hcons).2.symm⟩
  have hinside : inner <:+ r :=
    (suffix_of_callAt? hcall).trans ((knownModifier_suffix _ behind).trans hbehind)
  exact (suffix_of_title? htitle).trans ((trimStart_suffix inner).trans hinside)

end Readers

/-! ### Calls -/

/-- May a case begin behind the text? -/
def AllowsCase (front : Text) : Prop := ∀ c ∈ front.getLast?, precedesCase c = true

/-- A call of a test case in a text. -/
structure CaseCall where
  /-- What stands in front of the call. -/
  front : Text
  title : Text
  /-- What stands behind the title. -/
  rest : Text
  deriving DecidableEq, Repr

namespace CaseCall

/-- The case that is called in a text which begins on the line. -/
def toCase (line : Nat) (k : CaseCall) : TestCase := ⟨k.title, line + k.front.count '\n'⟩

/-- The call stands in the text, at its start or behind a character that allows it. -/
structure StandsIn (t : Text) (k : CaseCall) : Prop where
  allowed : AllowsCase k.front
  called : ∃ call, t = k.front ++ call ∧ caseCall? call = some (k.title, k.rest)

/-- The second call begins behind the first one, and not behind the end of its title. -/
def Reaches (t : Text) (k k' : CaseCall) : Prop :=
  k.front.length < k'.front.length ∧ k'.front.length + k.rest.length ≤ t.length

/-- The second call begins behind the end of the title of the first one. -/
def Precedes (t : Text) (k k' : CaseCall) : Prop :=
  k.front.length < k'.front.length ∧ ¬ k.Reaches t k'

/-- Neither call reaches the other one. -/
def Apart (t : Text) (k k' : CaseCall) : Prop := ¬ k.Reaches t k' ∧ ¬ k'.Reaches t k

instance (t : Text) : Std.Symm (Apart t) := ⟨fun _ _ h => ⟨h.2, h.1⟩⟩

private theorem apart_self (t : Text) (k : CaseCall) : Apart t k k :=
  ⟨fun h => Nat.lt_irrefl _ h.1, fun h => Nat.lt_irrefl _ h.1⟩

private theorem Precedes.apart {t : Text} {k k' : CaseCall} (h : k.Precedes t k') : Apart t k k' :=
  ⟨h.2, fun hreaches => Nat.lt_asymm h.1 hreaches.1⟩

end CaseCall

/-- The calls in the text that follows. None begins at the next `blocked` characters. -/
def callsFrom (front : Text) (blocked : Nat) : Text → List CaseCall
  | [] => []
  | c :: r =>
    match blocked with
    | more + 2 => callsFrom (front ++ [c]) (more + 1) r
    | 1 => callsFrom (front ++ [c]) (if precedesCase c then 0 else 1) r
    | 0 =>
      match caseCall? (c :: r) with
      | some (title, rest) =>
        ⟨front, title, rest⟩ :: callsFrom (front ++ [c]) (r.length - rest.length + 1) r
      | none => callsFrom (front ++ [c]) (if precedesCase c then 0 else 1) r

/-- The calls from which the cases of a text are collected. -/
def caseCalls (t : Text) : List CaseCall := callsFrom [] 0 t

private theorem line_concat (line : Nat) (front : Text) (c : Char) :
    (if c = '\n' then line + front.count '\n' + 1 else line + front.count '\n')
      = line + (front ++ [c]).count '\n' := by
  rw [List.count_append, List.count_singleton]
  by_cases hc : c = '\n'
  · rw [if_pos hc, hc, beq_self_eq_true, if_pos rfl, Nat.add_assoc]
  · rw [if_neg hc, beq_eq_false_iff_ne.mpr hc, if_neg Bool.false_ne_true, Nat.add_zero]

/-- The cases are those of the calls. -/
theorem casesFrom_eq_map (line : Nat) {front : Text} {allowed : Bool} {skip : Nat}
    (h : allowed = true → skip = 0) (t : Text) :
    casesFrom (line + front.count '\n') allowed skip t
      = (callsFrom front (if allowed then 0 else skip + 1) t).map (CaseCall.toCase line) := by
  induction t generalizing front allowed skip with
  | nil => rfl
  | cons c r ih =>
    unfold casesFrom
    dsimp only
    rw [line_concat]
    cases skip with
    | succ more =>
      cases allowed with
      | true => cases h rfl
      | false => exact ih nofun
    | zero =>
      cases allowed with
      | false => exact ih fun _ => rfl
      | true =>
        rw [if_pos rfl, if_pos rfl, callsFrom]
        cases caseCall? (c :: r) with
        | none => exact ih fun _ => rfl
        | some p => exact congrArg (_ :: ·) (ih nofun)

/-- The cases of a text are its calls outside of words and literals, with their lines. -/
theorem cases_eq_map (line : Nat) (t : Text) :
    casesFrom line true 0 t = (caseCalls t).map (CaseCall.toCase line) :=
  @casesFrom_eq_map line [] true 0 (fun _ => rfl) t

/-! ### Which calls are found -/

private theorem allowsCase_concat {front : Text} {c : Char} :
    AllowsCase (front ++ [c]) ↔ precedesCase c = true := by
  simp [AllowsCase]

private theorem allowsCase_of_unblocked {front : Text} {c : Char}
    (h : (if precedesCase c then 0 else 1) = 0) : AllowsCase (front ++ [c]) := by
  split at h
  · next hc => exact allowsCase_concat.mpr hc
  · cases h

private theorem length_concat (front : Text) (c : Char) :
    (front ++ [c]).length = front.length + 1 :=
  List.length_append

section Found

variable {whole front t : Text} {blocked : Nat} {k : CaseCall}

/-- A call behind the front is that of the text that follows. -/
theorem CaseCall.StandsIn.of_length_eq (h : k.StandsIn whole) (hwhole : whole = front ++ t)
    (hlength : k.front.length = front.length) :
    k.front = front ∧ caseCall? t = some (k.title, k.rest) := by
  obtain ⟨call, hcall, hread⟩ := h.called
  obtain ⟨hfront, rfl⟩ := List.append_inj (hwhole.symm.trans hcall) hlength.symm
  exact ⟨hfront.symm, hread⟩

/-- No call begins right behind a character that does not allow it. -/
theorem CaseCall.StandsIn.le_length {c : Char} (h : k.StandsIn whole)
    (hwhole : whole = front ++ [c] ++ t) (hlt : front.length < k.front.length) :
    (front ++ [c]).length + (if precedesCase c then 0 else 1) ≤ k.front.length := by
  rw [← Nat.succ_le_iff, Nat.succ_eq_add_one, ← length_concat front c] at hlt
  split
  · exact hlt
  · next hc =>
    refine Nat.lt_of_le_of_ne hlt fun hlength => hc ?_
    rw [← allowsCase_concat, ← (h.of_length_eq hwhole hlength.symm).1]
    exact h.allowed

/-- What is found are calls of the text, and none begins where it is blocked. -/
theorem of_mem_callsFrom (hwhole : whole = front ++ t) (hallows : blocked = 0 → AllowsCase front)
    (hk : k ∈ callsFrom front blocked t) :
    k.StandsIn whole ∧ front.length + blocked ≤ k.front.length := by
  fun_induction callsFrom front blocked t with
  | case1 => cases hk
  | case2 front c r more ih =>
    obtain ⟨hstands, hle⟩ := ih (hwhole.trans (List.append_cons _ _ _)) nofun hk
    rw [length_concat] at hle
    exact ⟨hstands, by omega⟩
  | case3 front c r ih =>
    obtain ⟨hstands, hle⟩ := ih (hwhole.trans (List.append_cons _ _ _)) allowsCase_of_unblocked hk
    rw [length_concat] at hle
    exact ⟨hstands, by omega⟩
  | case4 front c r title rest hcall ih =>
    rcases List.mem_cons.mp hk with rfl | hk
    · exact ⟨⟨hallows rfl, c :: r, hwhole, hcall⟩, Nat.le_refl _⟩
    · obtain ⟨hstands, hle⟩ := ih (hwhole.trans (List.append_cons _ _ _)) nofun hk
      rw [length_concat] at hle
      exact ⟨hstands, by omega⟩
  | case5 front c r hcall ih =>
    obtain ⟨hstands, hle⟩ := ih (hwhole.trans (List.append_cons _ _ _)) allowsCase_of_unblocked hk
    rw [length_concat] at hle
    exact ⟨hstands, by omega⟩

/-- Each call that is found begins behind the end of the one before it. -/
theorem pairwise_callsFrom (hwhole : whole = front ++ t)
    (hallows : blocked = 0 → AllowsCase front) :
    (callsFrom front blocked t).Pairwise (CaseCall.Precedes whole) := by
  fun_induction callsFrom front blocked t with
  | case1 => exact .nil
  | case2 front c r more ih => exact ih (hwhole.trans (List.append_cons _ _ _)) nofun
  | case3 front c r ih => exact ih (hwhole.trans (List.append_cons _ _ _)) allowsCase_of_unblocked
  | case4 front c r title rest hcall ih =>
    have hnext := hwhole.trans (List.append_cons _ _ _)
    refine .cons (fun k hk => ?_) (ih hnext nofun)
    obtain ⟨-, hle⟩ := of_mem_callsFrom hnext (by exact nofun) hk
    rw [length_concat] at hle
    have hlength : whole.length = front.length + (r.length + 1) := by
      rw [hwhole, List.length_append, List.length_cons]
    unfold CaseCall.Precedes CaseCall.Reaches
    dsimp only
    omega
  | case5 front c r hcall ih =>
    exact ih (hwhole.trans (List.append_cons _ _ _)) allowsCase_of_unblocked

/-- A call that begins where none is blocked is found, unless one that is found reaches it. -/
theorem mem_callsFrom_or (hwhole : whole = front ++ t) (h : k.StandsIn whole)
    (hle : front.length + blocked ≤ k.front.length) :
    k ∈ callsFrom front blocked t ∨ ∃ k' ∈ callsFrom front blocked t, k'.Reaches whole k := by
  fun_induction callsFrom front blocked t with
  | case1 front =>
    obtain ⟨call, hcall, hread⟩ := h.called
    have hlength := congrArg List.length (hwhole.symm.trans hcall)
    rw [List.append_nil, List.length_append] at hlength
    have hnil : call = [] := List.length_eq_zero_iff.mp (by omega)
    rw [hnil] at hread
    cases hread
  | case2 front c r more ih =>
    refine ih (hwhole.trans (List.append_cons _ _ _)) ?_
    rw [length_concat]
    omega
  | case3 front c r ih =>
    have hnext := hwhole.trans (List.append_cons _ _ _)
    exact ih hnext (h.le_length hnext hle)
  | case4 front c r title rest hcall ih =>
    have hnext := hwhole.trans (List.append_cons _ _ _)
    by_cases hhere : k.front.length = front.length
    · obtain ⟨hfront, hread⟩ := h.of_length_eq hwhole hhere
      obtain ⟨htitle, hrest⟩ := Prod.mk.inj (Option.some.inj (hcall.symm.trans hread))
      have hk : k = ⟨front, title, rest⟩ := by
        rw [← hfront, htitle, hrest]
      exact .inl (hk ▸ List.mem_cons_self)
    · by_cases hreached : CaseCall.Reaches whole ⟨front, title, rest⟩ k
      · exact .inr ⟨_, List.mem_cons_self, hreached⟩
      · have hlength : whole.length = front.length + (r.length + 1) := by
          rw [hwhole, List.length_append, List.length_cons]
        have hrest := (suffix_of_caseCall? hcall).length_le
        have hbehind : (front ++ [c]).length + (r.length - rest.length + 1) ≤ k.front.length := by
          rw [length_concat]
          unfold CaseCall.Reaches at hreached
          dsimp only at hreached
          omega
        rcases ih hnext hbehind with hk | ⟨k', hk', hreaches⟩
        · exact .inl (List.mem_cons_of_mem _ hk)
        · exact .inr ⟨k', List.mem_cons_of_mem _ hk', hreaches⟩
  | case5 front c r hcall ih =>
    have hnext := hwhole.trans (List.append_cons _ _ _)
    have hne : k.front.length ≠ front.length := fun hlength => by
      cases hcall.symm.trans (h.of_length_eq hwhole hlength).2
    exact ih hnext (h.le_length hnext (Nat.lt_of_le_of_ne hle hne.symm))

end Found

private theorem allowsCase_nil : AllowsCase [] := nofun

/-- The calls of a text stand one behind the other. -/
theorem pairwise_caseCalls (t : Text) : (caseCalls t).Pairwise (CaseCall.Precedes t) :=
  pairwise_callsFrom rfl fun _ => allowsCase_nil

/-- The calls that are found are those which none of these reaches. -/
theorem mem_caseCalls_iff {t : Text} {k : CaseCall} :
    k ∈ caseCalls t ↔ k.StandsIn t ∧ ∀ k' ∈ caseCalls t, ¬ k'.Reaches t k := by
  have hwhole : t = [] ++ t := rfl
  constructor
  · intro hk
    refine ⟨(of_mem_callsFrom hwhole (fun _ => allowsCase_nil) hk).1, fun k' hk' => ?_⟩
    have hapart := (pairwise_caseCalls t).imp CaseCall.Precedes.apart
    exact (hapart.forall_of_forall (fun k _ => k.apart_self t) hk' hk).1
  · rintro ⟨hstands, hfree⟩
    have hle : ([] : Text).length + 0 ≤ k.front.length := Nat.zero_le _
    rcases mem_callsFrom_or hwhole hstands hle with hk | ⟨k', hk', hreaches⟩
    · exact hk
    · exact absurd hreaches (hfree k' hk')

end DocContract
