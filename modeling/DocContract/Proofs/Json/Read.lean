import DocContract.Json.Reader
import DocContract.Proofs.Json.Written

/-!
# The tokens of a value are read back

The tokens of a value that holds no decimal literals and is not nested too deeply lead the reader
from where it waits for a value to where it has just this one, whatever containers are open around
it.
-/

namespace DocContract.Json

mutual
/-- Is the value nested in no more than `room` containers? -/
def fits (room : Nat) : Json → Bool
  | .array items => 0 < room && itemsFit (room - 1) items
  | .object members => 0 < room && membersFit (room - 1) members
  | _ => true

/-- `fits` of every item. -/
def itemsFit (room : Nat) : List Json → Bool
  | [] => true
  | v :: vs => fits room v && itemsFit room vs

/-- `fits` of every member's value. -/
def membersFit (room : Nat) : List (Text × Json) → Bool
  | [] => true
  | (_, v) :: ms => fits room v && membersFit room ms
end

/-- Items fit when each of them does. -/
theorem itemsFit_eq_true {room : Nat} {items : List Json} :
    itemsFit room items = true ↔ ∀ v ∈ items, fits room v = true := by
  induction items with
  | nil => simp [itemsFit]
  | cons v vs ih => rw [itemsFit, Bool.and_eq_true, ih, List.forall_mem_cons]

namespace Reader

/-- A value may begin here, inside the containers of the stack. -/
def AwaitsValue (stack : List Frame) (reader : Reader) : Prop :=
  ∀ t, t ≠ .closeArray → reader.step? t = begin? stack t

/-- A member may begin here, behind the others of an object. -/
def AwaitsMember (members : List (Text × Json)) (stack : List Frame) (reader : Reader) : Prop :=
  ∀ name, reader.step? (.string name) = some (.colon members name stack)

/-- A reader in front of a value awaits one. -/
theorem awaitsValue_value (stack : List Frame) : (value stack).AwaitsValue stack := fun _ _ => rfl

/-- A reader in front of a first name awaits a member. -/
theorem awaitsMember_firstName (stack : List Frame) : (firstName stack).AwaitsMember [] stack :=
  fun _ => rfl

/-- A reader in front of a further name awaits a member. -/
theorem awaitsMember_name (members : List (Text × Json)) (stack : List Frame) :
    (name members stack).AwaitsMember members stack :=
  fun _ => rfl

/-- A reader in front of a first item awaits a value in its array. -/
theorem awaitsValue_firstItem (stack : List Frame) :
    (firstItem stack).AwaitsValue (.array [] :: stack) := by
  intro t ht
  cases t with
  | closeArray => exact absurd rfl ht
  | _ => rfl

/-- The state of the reader behind some tokens. -/
abbrev after? (reader : Reader) (tokens : List Token) : Option Reader :=
  tokens.foldlM step? reader

/-- Tokens are read one by one. -/
theorem after?_cons {reader next : Reader} {t : Token} (h : reader.step? t = some next)
    (ts : List Token) : reader.after? (t :: ts) = next.after? ts := by
  rw [after?, List.foldlM_cons, h]
  rfl

mutual
/-- The tokens of a value lead to the value. -/
theorem after?_tokens : ∀ (v : Json) {reader : Reader} {stack : List Frame} (r : List Token),
    reader.AwaitsValue stack → isPlain v = true → fits (maxDepth - stack.length) v = true →
    reader.after? (tokens v ++ r) = (complete v stack).after? r
  | .null, _, _, r, h, _, _ => after?_cons (h (.scalar .null) nofun) r
  | .bool b, _, _, r, h, _, _ => after?_cons (h (.scalar (.bool b)) nofun) r
  | .nat n, _, _, r, h, _, _ => after?_cons (h (.scalar (.nat n)) nofun) r
  | .string s, _, _, r, h, _, _ => after?_cons (h (.string s) nofun) r
  | .array items, reader, stack, r, h, hp, hf => by
    rw [fits, Bool.and_eq_true, decide_eq_true_eq] at hf
    have hopen : reader.step? .openArray = some (.firstItem stack) := by
      rw [h .openArray nofun, begin?, if_pos (by omega)]
    rw [tokens, List.cons_append, after?_cons hopen, List.append_assoc, List.singleton_append]
    by_cases hne : items = []
    · rw [hne]
      exact after?_cons rfl r
    · exact after?_itemTokens items hne r (awaitsValue_firstItem stack) hp hf.2
  | .object members, reader, stack, r, h, hp, hf => by
    rw [fits, Bool.and_eq_true, decide_eq_true_eq] at hf
    have hopen : reader.step? .openObject = some (.firstName stack) := by
      rw [h .openObject nofun, begin?, if_pos (by omega)]
    rw [tokens, List.cons_append, after?_cons hopen, List.append_assoc, List.singleton_append]
    by_cases hne : members = []
    · rw [hne]
      exact after?_cons rfl r
    · exact after?_memberTokens members hne r (awaitsMember_firstName stack) hp hf.2

private theorem after?_itemTokens : ∀ (items : List Json) {reader : Reader} {stack : List Frame}
    {done : List Json}, items ≠ [] → ∀ (r : List Token), reader.AwaitsValue (.array done :: stack) →
    arePlain items = true → itemsFit (maxDepth - stack.length - 1) items = true →
    reader.after? (itemTokens items ++ .closeArray :: r)
      = (complete (.array (done.reverse ++ items)) stack).after? r
  | [], _, _, _, hne, _, _, _, _ => absurd rfl hne
  | [v], reader, stack, done, _, r, h, hp, hf => by
    rw [itemTokens, after?_tokens v _ h (Bool.and_eq_true_iff.mp hp).1
      (Bool.and_eq_true_iff.mp hf).1]
    have hclose : (complete v (.array done :: stack)).step? .closeArray
        = some (.complete (.array (done.reverse ++ [v])) stack) := by
      rw [step?, List.reverse_cons]
    exact after?_cons hclose r
  | v :: w :: vs, reader, stack, done, _, r, h, hp, hf => by
    obtain ⟨hv, hvs⟩ := Bool.and_eq_true_iff.mp hp
    obtain ⟨hfv, hfvs⟩ := Bool.and_eq_true_iff.mp hf
    have hcomma : (complete v (.array done :: stack)).step? .comma
        = some (.value (.array (v :: done) :: stack)) := rfl
    rw [itemTokens, List.append_assoc, after?_tokens v _ h hv hfv, List.cons_append,
      after?_cons hcomma, after?_itemTokens (w :: vs) nofun r (awaitsValue_value _) hvs hfvs,
      List.reverse_cons, List.append_assoc, List.singleton_append]

private theorem after?_memberTokens : ∀ (members : List (Text × Json)) {reader : Reader}
    {stack : List Frame} {done : List (Text × Json)}, members ≠ [] → ∀ (r : List Token),
    reader.AwaitsMember done stack → membersPlain members = true →
    membersFit (maxDepth - stack.length - 1) members = true →
    reader.after? (memberTokens members ++ .closeObject :: r)
      = (complete (.object (done.reverse ++ members)) stack).after? r
  | [], _, _, _, hne, _, _, _, _ => absurd rfl hne
  | [(key, v)], reader, stack, done, _, r, h, hp, hf => by
    have hclose : (complete v (.object done key :: stack)).step? .closeObject
        = some (.complete (.object (done.reverse ++ [(key, v)])) stack) := by
      rw [step?, List.reverse_cons]
    rw [memberTokens, List.cons_append, after?_cons (h key), List.cons_append, after?_cons rfl,
      after?_tokens v _ (awaitsValue_value (.object done key :: stack))
        (Bool.and_eq_true_iff.mp hp).1 (Bool.and_eq_true_iff.mp hf).1]
    exact after?_cons hclose r
  | (key, v) :: m :: ms, reader, stack, done, _, r, h, hp, hf => by
    obtain ⟨hv, hms⟩ := Bool.and_eq_true_iff.mp hp
    obtain ⟨hfv, hfms⟩ := Bool.and_eq_true_iff.mp hf
    have hcomma : (complete v (.object done key :: stack)).step? .comma
        = some (.name ((key, v) :: done) stack) := rfl
    rw [memberTokens, List.cons_append, after?_cons (h key), List.cons_append, after?_cons rfl,
      List.append_assoc, after?_tokens v _ (awaitsValue_value (.object done key :: stack)) hv hfv,
      List.cons_append, after?_cons hcomma,
      after?_memberTokens (m :: ms) nofun r (awaitsMember_name _ _) hms hfms, List.reverse_cons,
      List.append_assoc, List.singleton_append]
end

end Reader

end DocContract.Json
