import DocContract.Proofs.Json.Literal

/-!
# What a written value says

A value without decimal literals is written as the text of its tokens, and its tokens are those of
no other value. So the written form determines the value, whatever follows it. It holds no control
character.
-/

namespace DocContract.Json

open Text

mutual
/-- Does the value hold no decimal literals? Such a literal is written as it is, whatever it is. -/
def isPlain : Json → Bool
  | .decimal _ => false
  | .array items => arePlain items
  | .object members => membersPlain members
  | _ => true

/-- `isPlain` of every item. -/
def arePlain : List Json → Bool
  | [] => true
  | v :: vs => isPlain v && arePlain vs

/-- `isPlain` of every member's value. -/
def membersPlain : List (Text × Json) → Bool
  | [] => true
  | (_, v) :: ms => isPlain v && membersPlain ms
end

mutual
/-- The tokens that a value is written with. -/
def tokens : Json → List Token
  | .string s => [.string s]
  | .array items => .openArray :: (itemTokens items ++ [.closeArray])
  | .object members => .openObject :: (memberTokens members ++ [.closeObject])
  | v => [.scalar v]

/-- The tokens of items with commas between them. -/
def itemTokens : List Json → List Token
  | [] => []
  | [v] => tokens v
  | v :: w :: r => tokens v ++ .comma :: itemTokens (w :: r)

/-- The tokens of members with commas between them. -/
def memberTokens : List (Text × Json) → List Token
  | [] => []
  | [(name, v)] => .string name :: .colon :: tokens v
  | (name, v) :: m :: r => .string name :: .colon :: (tokens v ++ .comma :: memberTokens (m :: r))
end

/-- Values hold no decimal literals when none of them does. -/
theorem arePlain_eq_true {items : List Json} :
    arePlain items = true ↔ ∀ v ∈ items, isPlain v = true := by
  induction items with
  | nil => simp [arePlain]
  | cons v vs ih => rw [arePlain, Bool.and_eq_true, ih, List.forall_mem_cons]

/-! ### Tokens of a text -/

namespace Token

/-- A bare word does not go on with this text. -/
def EndsWord (r : Text) : Prop := ∀ c ∈ r.head?, isBare c = false

/-- A word ends with the text. -/
theorem endsWord_nil : EndsWord [] := by
  intro c hc
  cases hc

/-- A word ends in front of what is no part of one. -/
theorem endsWord_cons {c : Char} {r : Text} (h : isBare c = false) : EndsWord (c :: r) := by
  intro d hd
  cases hd
  exact h

/-- A sign is read as its token. -/
theorem scan?_punctuation {c : Char} {token : Token} (r : Text) (hs : isSpace c = false)
    (hp : punctuation? c = some token) : scan? (c :: r) = (scan? r).map (token :: ·) := by
  conv => lhs; rw [scan?]
  rw [hs, if_neg Bool.false_ne_true]
  simp only [hp]

/-- A printed string is read as itself, whatever follows it. -/
theorem scan?_printString (s r : Text) :
    scan? (printString s ++ r) = (scan? r).map (.string s :: ·) := by
  have hl := literal?_escaped s r
  have heq : printString s ++ r = '"' :: (s.flatMap escapeChar ++ '"' :: r) := by
    simp [printString]
  rw [heq]
  conv => lhs; rw [scan?]
  rw [if_neg (by decide)]
  have hp : punctuation? '"' = none := rfl
  simp only [hp, if_true]
  split
  · next h =>
    rw [hl] at h
    cases h
  · next h =>
    rw [hl] at h
    cases h
    rfl

/-- A bare word gives one token. -/
theorem scan?_word {word r : Text} {v : Json} (hne : word ≠ []) (hb : ∀ c ∈ word, isBare c = true)
    (hv : bare? word = some v) (hr : EndsWord r) :
    scan? (word ++ r) = (scan? r).map (.scalar v :: ·) := by
  cases word with
  | nil => exact absurd rfl hne
  | cons c word =>
    obtain ⟨hc, hword⟩ := List.forall_mem_cons.mp hb
    have htake : (word ++ r).takeWhile isBare = word := takeWhile_run hword hr
    have hdrop : (word ++ r).dropWhile isBare = r := dropWhile_run hword hr
    simp only [isBare, Bool.not_eq_true', Bool.or_eq_false_iff, beq_eq_false_iff_ne] at hc
    obtain ⟨⟨hspace, hquote⟩, hpunct⟩ := hc
    have hnone : punctuation? c = none := by
      cases hp : punctuation? c with
      | none => rfl
      | some token =>
        rw [hp] at hpunct
        cases hpunct
    rw [List.cons_append]
    conv => lhs; rw [scan?]
    rw [hspace, if_neg Bool.false_ne_true]
    simp only [hnone]
    rw [if_neg hquote, htake, hdrop]
    simp only [hv]

end Token

open Token

mutual
/-- A written value gives its tokens. -/
theorem scan?_compact : ∀ (v : Json) {r : Text}, isPlain v = true → EndsWord r →
    scan? (compact v ++ r) = (scan? r).map (tokens v ++ ·)
  | .null, r, _, hr => scan?_word (by decide) (Text.forall_mem_of_all (by decide)) rfl hr
  | .bool true, r, _, hr => scan?_word (by decide) (Text.forall_mem_of_all (by decide)) rfl hr
  | .bool false, r, _, hr => scan?_word (by decide) (Text.forall_mem_of_all (by decide)) rfl hr
  | .nat n, r, _, hr =>
    scan?_word (ofNat_ne_nil n) (fun _ h => isBare_of_isDigit (isDigit_of_mem_ofNat h))
      (bare?_ofNat n) hr
  | .string s, r, _, _ => scan?_printString s r
  | .array items, r, hp, hr => by
    have hclose : scan? (']' :: r) = (scan? r).map (.closeArray :: ·) :=
      scan?_punctuation r rfl rfl
    rw [compact, List.cons_append, scan?_punctuation _ rfl rfl, List.append_assoc,
      List.singleton_append, scan?_compactItems items hp (endsWord_cons rfl), hclose]
    simp [tokens, Function.comp_def]
  | .object members, r, hp, hr => by
    have hclose : scan? ('\x7d' :: r) = (scan? r).map (.closeObject :: ·) :=
      scan?_punctuation r rfl rfl
    rw [compact, List.cons_append, scan?_punctuation _ rfl rfl, List.append_assoc,
      List.singleton_append, scan?_compactMembers members hp (endsWord_cons rfl), hclose]
    simp [tokens, Function.comp_def]

private theorem scan?_compactItems : ∀ (items : List Json) {r : Text}, arePlain items = true →
    EndsWord r → scan? (compactItems items ++ r) = (scan? r).map (itemTokens items ++ ·)
  | [], r, _, _ => by simp [compactItems, itemTokens]
  | [v], r, hp, hr => by
    rw [compactItems, itemTokens]
    exact scan?_compact v (Bool.and_eq_true_iff.mp hp).1 hr
  | v :: w :: vs, r, hp, hr => by
    obtain ⟨hv, hvs⟩ := Bool.and_eq_true_iff.mp hp
    rw [compactItems, List.append_assoc, List.cons_append,
      scan?_compact v hv (endsWord_cons rfl), scan?_punctuation _ rfl rfl,
      scan?_compactItems (w :: vs) hvs hr]
    simp [itemTokens, Function.comp_def]

private theorem scan?_compactMembers : ∀ (members : List (Text × Json)) {r : Text},
    membersPlain members = true → EndsWord r →
    scan? (compactMembers members ++ r) = (scan? r).map (memberTokens members ++ ·)
  | [], r, _, _ => by simp [compactMembers, memberTokens]
  | [(name, v)], r, hp, hr => by
    rw [compactMembers, List.append_assoc, scan?_printString, List.cons_append,
      scan?_punctuation _ rfl rfl, scan?_compact v (Bool.and_eq_true_iff.mp hp).1 hr]
    simp [memberTokens, Function.comp_def]
  | (name, v) :: m :: ms, r, hp, hr => by
    obtain ⟨hv, hms⟩ := Bool.and_eq_true_iff.mp hp
    rw [compactMembers, List.append_assoc, scan?_printString, List.cons_append,
      scan?_punctuation _ rfl rfl, List.append_assoc, List.cons_append,
      scan?_compact v hv (endsWord_cons rfl), scan?_punctuation _ rfl rfl,
      scan?_compactMembers (m :: ms) hms hr]
    simp [memberTokens, Function.comp_def]
end

/-! ### Values of tokens -/

private theorem eq_of_tokens_scalar {v w : Json} {r s : List Token}
    (h : tokens w ++ s = .scalar v :: r) : w = v ∧ s = r := by
  cases w <;> cases h <;> exact ⟨rfl, rfl⟩

private theorem eq_of_tokens_string {w : Json} {t : Text} {r s : List Token}
    (h : tokens w ++ s = .string t :: r) : w = .string t ∧ s = r := by
  cases w <;> cases h
  exact ⟨rfl, rfl⟩

private theorem eq_of_tokens_openArray {w : Json} {r s : List Token}
    (h : tokens w ++ s = .openArray :: r) :
    ∃ items, w = .array items ∧ itemTokens items ++ .closeArray :: s = r := by
  cases w with
  | array items =>
    refine ⟨items, rfl, ?_⟩
    rw [tokens, List.cons_append] at h
    rw [← (List.cons.inj h).2, List.append_assoc, List.singleton_append]
  | _ => cases h

private theorem eq_of_tokens_openObject {w : Json} {r s : List Token}
    (h : tokens w ++ s = .openObject :: r) :
    ∃ members, w = .object members ∧ memberTokens members ++ .closeObject :: s = r := by
  cases w with
  | object members =>
    refine ⟨members, rfl, ?_⟩
    rw [tokens, List.cons_append] at h
    rw [← (List.cons.inj h).2, List.append_assoc, List.singleton_append]
  | _ => cases h

/-- No value begins with the end of an array. -/
theorem itemTokens_cons_ne (v : Json) (vs : List Json) (r s : List Token) :
    itemTokens (v :: vs) ++ r ≠ .closeArray :: s := by
  intro h
  cases vs <;> cases v <;> cases h

/-- No member begins with the end of an object. -/
theorem memberTokens_cons_ne (m : Text × Json) (ms : List (Text × Json)) (r s : List Token) :
    memberTokens (m :: ms) ++ r ≠ .closeObject :: s := by
  intro h
  cases ms <;> cases h

mutual
/-- Tokens that begin with those of a value begin with those of no other one. -/
theorem tokens_append_inj : ∀ (v : Json) {w : Json} {r s : List Token},
    tokens v ++ r = tokens w ++ s → v = w ∧ r = s
  | .null, w, r, s, h => (eq_of_tokens_scalar h.symm).imp Eq.symm Eq.symm
  | .bool b, w, r, s, h => (eq_of_tokens_scalar h.symm).imp Eq.symm Eq.symm
  | .nat n, w, r, s, h => (eq_of_tokens_scalar h.symm).imp Eq.symm Eq.symm
  | .decimal literal, w, r, s, h => (eq_of_tokens_scalar h.symm).imp Eq.symm Eq.symm
  | .string t, w, r, s, h => (eq_of_tokens_string h.symm).imp Eq.symm Eq.symm
  | .array items, w, r, s, h => by
    rw [tokens, List.cons_append, List.append_assoc, List.singleton_append] at h
    obtain ⟨others, rfl, hitems⟩ := eq_of_tokens_openArray h.symm
    obtain ⟨rfl, rfl⟩ := itemTokens_append_inj items hitems.symm
    exact ⟨rfl, rfl⟩
  | .object members, w, r, s, h => by
    rw [tokens, List.cons_append, List.append_assoc, List.singleton_append] at h
    obtain ⟨others, rfl, hmembers⟩ := eq_of_tokens_openObject h.symm
    obtain ⟨rfl, rfl⟩ := memberTokens_append_inj members hmembers.symm
    exact ⟨rfl, rfl⟩

private theorem itemTokens_append_inj : ∀ (vs : List Json) {ws : List Json} {r s : List Token},
    itemTokens vs ++ .closeArray :: r = itemTokens ws ++ .closeArray :: s → vs = ws ∧ r = s
  | [], [], r, s, h => ⟨rfl, (List.cons.inj h).2⟩
  | [], w :: ws, r, s, h => absurd h.symm (itemTokens_cons_ne w ws _ _)
  | v :: vs, [], r, s, h => absurd h (itemTokens_cons_ne v vs _ _)
  | [v], [w], r, s, h => by
    obtain ⟨rfl, hrest⟩ := tokens_append_inj v h
    exact ⟨rfl, (List.cons.inj hrest).2⟩
  | [v], w :: w₂ :: ws, r, s, h => by
    rw [itemTokens, itemTokens, List.append_assoc] at h
    cases (tokens_append_inj v h).2
  | v :: v₂ :: vs, [w], r, s, h => by
    rw [itemTokens, itemTokens, List.append_assoc] at h
    cases (tokens_append_inj v h).2
  | v :: v₂ :: vs, w :: w₂ :: ws, r, s, h => by
    rw [itemTokens, itemTokens, List.append_assoc, List.append_assoc] at h
    obtain ⟨rfl, hrest⟩ := tokens_append_inj v h
    obtain ⟨htail, rfl⟩ := itemTokens_append_inj (v₂ :: vs) (List.cons.inj hrest).2
    exact ⟨congrArg (v :: ·) htail, rfl⟩

private theorem memberTokens_append_inj : ∀ (ms : List (Text × Json)) {ns : List (Text × Json)}
    {r s : List Token},
    memberTokens ms ++ .closeObject :: r = memberTokens ns ++ .closeObject :: s → ms = ns ∧ r = s
  | [], [], r, s, h => ⟨rfl, (List.cons.inj h).2⟩
  | [], n :: ns, r, s, h => absurd h.symm (memberTokens_cons_ne n ns _ _)
  | m :: ms, [], r, s, h => absurd h (memberTokens_cons_ne m ms _ _)
  | [(name, v)], [(other, w)], r, s, h => by
    simp only [memberTokens, List.cons_append, List.cons.injEq, Token.string.injEq,
      true_and] at h
    obtain ⟨rfl, h⟩ := h
    obtain ⟨rfl, hrest⟩ := tokens_append_inj v h
    exact ⟨rfl, (List.cons.inj hrest).2⟩
  | [(name, v)], (other, w) :: n₂ :: ns, r, s, h => by
    simp only [memberTokens, List.cons_append, List.append_assoc, List.cons.injEq] at h
    cases (tokens_append_inj v h.2.2).2
  | (name, v) :: m₂ :: ms, [(other, w)], r, s, h => by
    simp only [memberTokens, List.cons_append, List.append_assoc, List.cons.injEq] at h
    cases (tokens_append_inj v h.2.2).2
  | (name, v) :: m₂ :: ms, (other, w) :: n₂ :: ns, r, s, h => by
    simp only [memberTokens, List.cons_append, List.append_assoc, List.cons.injEq,
      Token.string.injEq, true_and] at h
    obtain ⟨rfl, h⟩ := h
    obtain ⟨rfl, hrest⟩ := tokens_append_inj v h
    obtain ⟨htail, rfl⟩ := memberTokens_append_inj (m₂ :: ms) (List.cons.inj hrest).2
    exact ⟨congrArg ((name, v) :: ·) htail, rfl⟩
end

/-- The written form of a value is that of no other one. -/
theorem compact_inj {v w : Json} (hv : isPlain v = true) (hw : isPlain w = true)
    (h : compact v = compact w) : v = w := by
  have hscan := scan?_compact v hv endsWord_nil
  rw [h, scan?_compact w hw endsWord_nil] at hscan
  have hnil : scan? [] = some [] := by rw [scan?]
  rw [hnil] at hscan
  exact (tokens_append_inj v (Option.some.inj hscan).symm).1

/-! ### Control characters -/

mutual
/-- A value without decimal literals is printed without control characters. -/
theorem compact_printable : ∀ (v : Json), isPlain v = true → ∀ d ∈ compact v, 0x20 ≤ d.toNat
  | .null, _ => Text.forall_mem_of_all (by decide)
  | .bool true, _ => Text.forall_mem_of_all (by decide)
  | .bool false, _ => Text.forall_mem_of_all (by decide)
  | .nat _, _ => fun _ => ofNat_printable
  | .string _, _ => fun _ => printString_printable
  | .array items, hp => by
    intro d hd
    rw [compact, List.mem_cons, List.mem_append, List.mem_singleton] at hd
    rcases hd with rfl | hd | rfl
    · decide
    · exact compactItems_printable items hp d hd
    · decide
  | .object members, hp => by
    intro d hd
    rw [compact, List.mem_cons, List.mem_append, List.mem_singleton] at hd
    rcases hd with rfl | hd | rfl
    · decide
    · exact compactMembers_printable members hp d hd
    · decide

private theorem compactItems_printable : ∀ (items : List Json), arePlain items = true →
    ∀ d ∈ compactItems items, 0x20 ≤ d.toNat
  | [], _ => nofun
  | [v], hp => compact_printable v (Bool.and_eq_true_iff.mp hp).1
  | v :: w :: vs, hp => by
    obtain ⟨hv, hvs⟩ := Bool.and_eq_true_iff.mp hp
    intro d hd
    rw [compactItems, List.mem_append, List.mem_cons] at hd
    rcases hd with hd | rfl | hd
    · exact compact_printable v hv d hd
    · decide
    · exact compactItems_printable (w :: vs) hvs d hd

private theorem compactMembers_printable : ∀ (members : List (Text × Json)),
    membersPlain members = true → ∀ d ∈ compactMembers members, 0x20 ≤ d.toNat
  | [], _ => nofun
  | [(name, v)], hp => by
    intro d hd
    rw [compactMembers, List.mem_append, List.mem_cons] at hd
    rcases hd with hd | rfl | hd
    · exact printString_printable hd
    · decide
    · exact compact_printable v (Bool.and_eq_true_iff.mp hp).1 d hd
  | (name, v) :: m :: ms, hp => by
    obtain ⟨hv, hms⟩ := Bool.and_eq_true_iff.mp hp
    intro d hd
    rw [compactMembers, List.mem_append, List.mem_cons, List.mem_append, List.mem_cons] at hd
    rcases hd with hd | rfl | hd | rfl | hd
    · exact printString_printable hd
    · decide
    · exact compact_printable v hv d hd
    · decide
    · exact compactMembers_printable (m :: ms) hms d hd
end

end DocContract.Json
