import DocContract.Proofs.Json.Layout
import DocContract.Proofs.Json.Read
import Mathlib.Data.List.Forall2

/-!
# How deep a value may be nested

The reader refuses the token that opens one container too many, so it reads a written value exactly
when the value is not nested too deeply.
-/

namespace DocContract.Json

/-- Items that are nested as deep as others fit where those do. -/
theorem itemsFit_congr {α : Type} {f : α → Json} {xs : List α} {items : List Json} {room : Nat}
    (h : List.Forall₂ (fun x v => v.fits room = (f x).fits room) xs items) :
    itemsFit room items = itemsFit room (xs.map f) := by
  induction h with
  | nil => rfl
  | cons hv _ ih => rw [List.map_cons, itemsFit, itemsFit, hv, ih]

namespace Reader

private theorem after?_cons_none {reader : Reader} {t : Token} (h : reader.step? t = none)
    (ts : List Token) : reader.after? (t :: ts) = none := by
  rw [after?, List.foldlM_cons, h]
  rfl

mutual
/-- The tokens of a value that is nested too deeply lead nowhere. -/
theorem after?_tokens_eq_none : ∀ (v : Json) {reader : Reader} {stack : List Frame}
    (r : List Token), reader.AwaitsValue stack → isPlain v = true →
    fits (maxDepth - stack.length) v = false → reader.after? (tokens v ++ r) = none
  | .null, _, _, _, _, _, hf => by cases hf
  | .bool _, _, _, _, _, _, hf => by cases hf
  | .nat _, _, _, _, _, _, hf => by cases hf
  | .string _, _, _, _, _, _, hf => by cases hf
  | .array items, reader, stack, r, h, hp, hf => by
    rw [tokens, List.cons_append, List.append_assoc, List.singleton_append]
    by_cases hroom : stack.length < maxDepth
    · have hopen : reader.step? .openArray = some (.firstItem stack) := by
        rw [h .openArray nofun, begin?, if_pos hroom]
      rw [fits, decide_eq_true (by omega), Bool.true_and] at hf
      rw [after?_cons hopen]
      exact after?_itemTokens_eq_none items r (awaitsValue_firstItem stack) hp hf
    · have hopen : reader.step? .openArray = none := by
        rw [h .openArray nofun, begin?, if_neg hroom]
      exact after?_cons_none hopen _
  | .object members, reader, stack, r, h, hp, hf => by
    rw [tokens, List.cons_append, List.append_assoc, List.singleton_append]
    by_cases hroom : stack.length < maxDepth
    · have hopen : reader.step? .openObject = some (.firstName stack) := by
        rw [h .openObject nofun, begin?, if_pos hroom]
      rw [fits, decide_eq_true (by omega), Bool.true_and] at hf
      rw [after?_cons hopen]
      exact after?_memberTokens_eq_none members r (awaitsMember_firstName stack) hp hf
    · have hopen : reader.step? .openObject = none := by
        rw [h .openObject nofun, begin?, if_neg hroom]
      exact after?_cons_none hopen _

private theorem after?_itemTokens_eq_none :
    ∀ (items : List Json) {reader : Reader} {stack : List Frame}
    {done : List Json} (r : List Token), reader.AwaitsValue (.array done :: stack) →
    arePlain items = true → itemsFit (maxDepth - stack.length - 1) items = false →
    reader.after? (itemTokens items ++ .closeArray :: r) = none
  | [], _, _, _, _, _, _, hf => by cases hf
  | [v], reader, stack, done, r, h, hp, hf => by
    rw [itemsFit, itemsFit, Bool.and_true] at hf
    exact after?_tokens_eq_none v _ h (Bool.and_eq_true_iff.mp hp).1 hf
  | v :: w :: vs, reader, stack, done, r, h, hp, hf => by
    obtain ⟨hv, hvs⟩ := Bool.and_eq_true_iff.mp hp
    rw [itemTokens, List.append_assoc]
    cases hfv : fits (maxDepth - stack.length - 1) v with
    | false => exact after?_tokens_eq_none v _ h hv hfv
    | true =>
      rw [itemsFit, hfv, Bool.true_and] at hf
      have hcomma : (complete v (.array done :: stack)).step? .comma
          = some (.value (.array (v :: done) :: stack)) := rfl
      rw [after?_tokens v _ h hv hfv, List.cons_append, after?_cons hcomma]
      exact after?_itemTokens_eq_none (w :: vs) r (awaitsValue_value _) hvs hf

private theorem after?_memberTokens_eq_none : ∀ (members : List (Text × Json)) {reader : Reader}
    {stack : List Frame} {done : List (Text × Json)} (r : List Token),
    reader.AwaitsMember done stack → membersPlain members = true →
    membersFit (maxDepth - stack.length - 1) members = false →
    reader.after? (memberTokens members ++ .closeObject :: r) = none
  | [], _, _, _, _, _, _, hf => by cases hf
  | [(key, v)], reader, stack, done, r, h, hp, hf => by
    rw [membersFit, membersFit, Bool.and_true] at hf
    rw [memberTokens, List.cons_append, after?_cons (h key), List.cons_append, after?_cons rfl]
    exact after?_tokens_eq_none v _ (awaitsValue_value (.object done key :: stack))
      (Bool.and_eq_true_iff.mp hp).1 hf
  | (key, v) :: m :: ms, reader, stack, done, r, h, hp, hf => by
    obtain ⟨hv, hms⟩ := Bool.and_eq_true_iff.mp hp
    have hvalue := awaitsValue_value (.object done key :: stack)
    rw [memberTokens, List.cons_append, after?_cons (h key), List.cons_append, after?_cons rfl,
      List.append_assoc]
    cases hfv : fits (maxDepth - stack.length - 1) v with
    | false => exact after?_tokens_eq_none v _ hvalue hv hfv
    | true =>
      rw [membersFit, hfv, Bool.true_and] at hf
      have hcomma : (complete v (.object done key :: stack)).step? .comma
          = some (.name ((key, v) :: done) stack) := rfl
      rw [after?_tokens v _ hvalue hv hfv, List.cons_append, after?_cons hcomma]
      exact after?_memberTokens_eq_none (m :: ms) r (awaitsMember_name _ _) hms hf
end

end Reader

/-- A text that writes a value is read as the value, or refused when the value is nested too
deeply. -/
theorem IsTextOf.parse? {v : Json} {t : Text} (h : v.IsTextOf t) (hp : v.isPlain = true) :
    Json.parse? t = if v.fits maxDepth then some v else none := by
  rw [Json.parse?, h.scan? hp, Option.bind_some, ofTokens?]
  have hstart := Reader.awaitsValue_value []
  split
  · next hf =>
    have hread := Reader.after?_tokens v [] hstart hp hf
    rw [List.append_nil, Reader.after?] at hread
    rw [hread]
    rfl
  · next hf =>
    have hrefused := Reader.after?_tokens_eq_none v [] hstart hp (Bool.eq_false_iff.mpr hf)
    rw [List.append_nil, Reader.after?] at hrefused
    rw [hrefused, Option.bind_none]

end DocContract.Json
