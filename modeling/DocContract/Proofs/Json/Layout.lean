import DocContract.Proofs.Json.Written

/-!
# Blanks between the tokens do not count

The indented layout puts newlines and blanks between the tokens and nothing else, so its text gives
the same tokens as the text without blanks.
-/

namespace DocContract.Json

open Text Token

/-- The tokens of the items after the first one, with a comma in front of each. -/
def laterItemTokens : List Json → List Token
  | [] => []
  | v :: r => .comma :: (tokens v ++ laterItemTokens r)

/-- The tokens of the members after the first one, with a comma in front of each. -/
def laterMemberTokens : List (Text × Json) → List Token
  | [] => []
  | (name, v) :: r => .comma :: .string name :: .colon :: (tokens v ++ laterMemberTokens r)

private theorem itemTokens_cons (v : Json) (r : List Json) :
    itemTokens (v :: r) = tokens v ++ laterItemTokens r := by
  induction r generalizing v with
  | nil => rw [itemTokens, laterItemTokens, List.append_nil]
  | cons w r ih => rw [itemTokens, ih, laterItemTokens]

private theorem memberTokens_cons (name : Text) (v : Json) (r : List (Text × Json)) :
    memberTokens ((name, v) :: r)
      = .string name :: .colon :: (tokens v ++ laterMemberTokens r) := by
  induction r generalizing name v with
  | nil => rw [memberTokens, laterMemberTokens, List.append_nil]
  | cons m r ih => rw [memberTokens, ih, laterMemberTokens]

/-! ### Blanks -/

private theorem scan?_space {c : Char} (h : isSpace c = true) (r : Text) :
    scan? (c :: r) = scan? r := by
  conv => lhs; rw [scan?]
  rw [if_pos h]

private theorem scan?_newline (depth : Nat) (r : Text) : scan? (newline depth ++ r) = scan? r := by
  have hblanks : ∀ n, scan? (List.replicate n ' ' ++ r) = scan? r := by
    intro n
    induction n with
    | zero => rfl
    | succ n ih => rw [List.replicate_succ, List.cons_append, scan?_space rfl, ih]
  rw [newline, List.cons_append, scan?_space rfl, hblanks]

private theorem endsWord_newline (depth : Nat) (r : Text) : EndsWord (newline depth ++ r) :=
  endsWord_cons rfl

private theorem endsWord_prettyItems (depth : Nat) (items : List Json) {r : Text} (h : EndsWord r) :
    EndsWord (prettyItems depth items ++ r) := by
  cases items with
  | nil => exact h
  | cons v items => exact endsWord_cons rfl

private theorem endsWord_prettyMembers (depth : Nat) (members : List (Text × Json)) {r : Text}
    (h : EndsWord r) : EndsWord (prettyMembers depth members ++ r) := by
  cases members with
  | nil => exact h
  | cons m members => exact endsWord_cons rfl

/-! ### The indented layout -/

private theorem scan?_closeArray (r : Text) : scan? (']' :: r) = (scan? r).map (.closeArray :: ·) :=
  scan?_punctuation r rfl rfl

private theorem scan?_closeObject (r : Text) :
    scan? ('\x7d' :: r) = (scan? r).map (.closeObject :: ·) :=
  scan?_punctuation r rfl rfl

mutual
/-- A value gives its tokens in the indented layout too. -/
theorem scan?_pretty : ∀ (v : Json) (depth : Nat) {r : Text}, isPlain v = true → EndsWord r →
    scan? (pretty depth v ++ r) = (scan? r).map (tokens v ++ ·)
  | .null, _, r, _, hr => scan?_compact .null rfl hr
  | .bool b, _, r, _, hr => scan?_compact (.bool b) rfl hr
  | .nat n, _, r, _, hr => scan?_compact (.nat n) rfl hr
  | .string s, _, r, _, hr => scan?_compact (.string s) rfl hr
  | .array [], _, r, _, hr => scan?_compact (.array []) rfl hr
  | .object [], _, r, _, hr => scan?_compact (.object []) rfl hr
  | .array (v :: items), depth, r, hp, hr => by
    obtain ⟨hv, hitems⟩ := Bool.and_eq_true_iff.mp hp
    have hrest := endsWord_newline depth (']' :: r)
    rw [pretty, tokens, itemTokens_cons]
    simp only [List.cons_append, List.append_assoc, List.nil_append]
    rw [scan?_punctuation _ rfl rfl, scan?_newline,
      scan?_pretty v (depth + 1) hv (endsWord_prettyItems (depth + 1) items hrest),
      scan?_prettyItems items (depth + 1) hitems hrest, scan?_newline, scan?_closeArray]
    simp [Function.comp_def]
  | .object ((name, v) :: members), depth, r, hp, hr => by
    obtain ⟨hv, hmembers⟩ := Bool.and_eq_true_iff.mp hp
    have hrest := endsWord_newline depth ('\x7d' :: r)
    rw [pretty, tokens, memberTokens_cons]
    simp only [List.cons_append, List.append_assoc, List.nil_append]
    rw [scan?_punctuation _ rfl rfl, scan?_newline, scan?_printString,
      scan?_punctuation _ rfl rfl, scan?_space rfl,
      scan?_pretty v (depth + 1) hv (endsWord_prettyMembers (depth + 1) members hrest),
      scan?_prettyMembers members (depth + 1) hmembers hrest, scan?_newline, scan?_closeObject]
    simp [Function.comp_def]

private theorem scan?_prettyItems : ∀ (items : List Json) (depth : Nat) {r : Text},
    arePlain items = true → EndsWord r →
    scan? (prettyItems depth items ++ r) = (scan? r).map (laterItemTokens items ++ ·)
  | [], _, r, _, _ => by simp [prettyItems, laterItemTokens]
  | v :: items, depth, r, hp, hr => by
    obtain ⟨hv, hitems⟩ := Bool.and_eq_true_iff.mp hp
    rw [prettyItems, laterItemTokens]
    simp only [List.cons_append, List.append_assoc]
    rw [scan?_punctuation _ rfl rfl, scan?_newline,
      scan?_pretty v depth hv (endsWord_prettyItems depth items hr),
      scan?_prettyItems items depth hitems hr]
    simp [Function.comp_def]

private theorem scan?_prettyMembers : ∀ (members : List (Text × Json)) (depth : Nat) {r : Text},
    membersPlain members = true → EndsWord r →
    scan? (prettyMembers depth members ++ r) = (scan? r).map (laterMemberTokens members ++ ·)
  | [], _, r, _, _ => by simp [prettyMembers, laterMemberTokens]
  | (name, v) :: members, depth, r, hp, hr => by
    obtain ⟨hv, hmembers⟩ := Bool.and_eq_true_iff.mp hp
    rw [prettyMembers, laterMemberTokens]
    simp only [List.cons_append, List.append_assoc]
    rw [scan?_punctuation _ rfl rfl, scan?_newline, scan?_printString,
      scan?_punctuation _ rfl rfl, scan?_space rfl,
      scan?_pretty v depth hv (endsWord_prettyMembers depth members hr),
      scan?_prettyMembers members depth hmembers hr]
    simp [Function.comp_def]
end

/-! ### Whole texts -/

/-- A text that writes a value: in one of the two layouts, with or without a newline behind it. -/
inductive IsTextOf (v : Json) : Text → Prop
  | compact : IsTextOf v v.compact
  | pretty : IsTextOf v (v.pretty 0)
  | prettyLine : IsTextOf v (v.pretty 0 ++ ['\n'])

/-- A text of a value is read as the tokens of that value. -/
theorem IsTextOf.scan? {v : Json} {t : Text} (h : v.IsTextOf t) (hp : v.isPlain = true) :
    Token.scan? t = some (tokens v) := by
  have hnil : Token.scan? [] = some [] := by rw [Token.scan?]
  have hline : Token.scan? ['\n'] = some [] := by rw [scan?_space rfl, hnil]
  cases h with
  | compact =>
    have h := scan?_compact v hp endsWord_nil
    rwa [hnil, List.append_nil, Option.map_some, List.append_nil] at h
  | pretty =>
    have h := scan?_pretty v 0 hp endsWord_nil
    rwa [hnil, List.append_nil, Option.map_some, List.append_nil] at h
  | prettyLine =>
    rw [scan?_pretty v 0 hp (endsWord_cons rfl), hline, Option.map_some, List.append_nil]

end DocContract.Json
