import DocContract.Proofs.Cache.Entry
import DocContract.Proofs.Cache.Sound
import Mathlib.Data.List.Induction

/-!
# What a cache should hold

Seen from outside a cache is a map from keys to entries. Putting an entry changes it at one key,
clearing empties it, and opening the cache anew empties it unless its entries are kept in files. So
the map holds under a key what was put there last, if nothing has ended that since.
-/

namespace DocContract

/-- What may be done with a cache. -/
inductive CacheEvent where
  | put (key : CacheKey) (diagnostics : List Diagnostic) (now : Instant)
  | get (key : CacheKey) (modified? : Option Instant)
  | clear
  /-- The cache is dropped and opened anew with its settings. -/
  | reopen

namespace CacheEvent

/-- The keys are digests, and what is put can be written in JSON. -/
def IsProper : CacheEvent → Prop
  | .put key ds _ => key.IsDigest ∧ ∀ d ∈ ds, d.InRange
  | .get key _ => key.IsDigest
  | _ => True

/-- Does the event end what an earlier one has put under the key? A cache that is `kept` in files
outlives its being opened anew. -/
def supersedes (kept : Bool) (key : CacheKey) : CacheEvent → Bool
  | .put other _ _ => other == key
  | .get _ _ => false
  | .clear => true
  | .reopen => !kept

/-- The map after an event. -/
def apply (kept : Bool) (map : CacheKey → Option CacheEntry) :
    CacheEvent → CacheKey → Option CacheEntry
  | .put key ds now => fun other => if other = key then some ⟨ds, now⟩ else map other
  | .get _ _ => map
  | .clear => fun _ => none
  | .reopen => if kept then map else fun _ => none

/-- The map after some events, when it is empty at first. -/
def contents (kept : Bool) (es : List CacheEvent) : CacheKey → Option CacheEntry :=
  es.foldl (apply kept) fun _ => none

/-- The entry is what was put under the key last, and nothing has ended it since. -/
def IsLastPut (kept : Bool) (es : List CacheEvent) (key : CacheKey) (e : CacheEntry) : Prop :=
  ∃ front back, es = front ++ .put key e.diagnostics e.timestamp :: back
    ∧ ∀ event ∈ back, event.supersedes kept key = false

variable {kept : Bool} {key : CacheKey} {e : CacheEntry}

/-- A put changes the map at its own key only. -/
theorem apply_put (map : CacheKey → Option CacheEntry) (key other : CacheKey)
    (ds : List Diagnostic) (now : Instant) : apply kept map (.put key ds now) other
      = if other = key then some ⟨ds, now⟩ else map other := rfl

private theorem contents_append_singleton (es : List CacheEvent) (event : CacheEvent) :
    contents kept (es ++ [event]) = event.apply kept (contents kept es) := by
  rw [contents, List.foldl_append]
  rfl

private theorem apply_of_supersedes {event : CacheEvent} {map : CacheKey → Option CacheEntry}
    (h : event.supersedes kept key = true) :
    event.apply kept map key = some e ↔ event = .put key e.diagnostics e.timestamp := by
  cases event with
  | put other ds now =>
    cases beq_iff_eq.mp h
    obtain ⟨diagnostics, timestamp⟩ := e
    simp [apply]
  | get other modified? => cases h
  | clear => simp [apply]
  | reopen => simp_all [supersedes, apply]

private theorem apply_of_not_supersedes {event : CacheEvent} {map : CacheKey → Option CacheEntry}
    (h : event.supersedes kept key = false) : event.apply kept map key = map key := by
  cases event with
  | put other ds now =>
    have hne : key ≠ other := fun heq => beq_eq_false_iff_ne.mp h heq.symm
    simp [apply, hne]
  | get other modified? => rfl
  | clear => cases h
  | reopen => simp_all [supersedes, apply]

private theorem isLastPut_append_singleton {es : List CacheEvent} {event : CacheEvent} :
    IsLastPut kept (es ++ [event]) key e ↔ event = .put key e.diagnostics e.timestamp
      ∨ event.supersedes kept key = false ∧ IsLastPut kept es key e := by
  constructor
  · rintro ⟨front, back, heq, hback⟩
    rcases List.eq_nil_or_concat' back with rfl | ⟨back, last, rfl⟩
    · obtain ⟨-, ⟨⟩⟩ := List.append_inj' heq rfl
      exact .inl rfl
    · rw [← List.cons_append, ← List.append_assoc] at heq
      obtain ⟨hes, hlast⟩ := List.append_inj' heq rfl
      rw [List.singleton_inj.mp hlast]
      exact .inr ⟨hback last (by simp), front, back, hes, fun x hx => hback x (by simp [hx])⟩
  · rintro (rfl | ⟨hs, front, back, rfl, hback⟩)
    · exact ⟨es, [], rfl, fun _ h => absurd h List.not_mem_nil⟩
    · refine ⟨front, back ++ [event], by simp, fun x hx => ?_⟩
      rcases List.mem_append.mp hx with hx | hx
      · exact hback x hx
      · rw [List.mem_singleton.mp hx]
        exact hs

/-- The map holds what was put last. -/
theorem contents_eq_some_iff {es : List CacheEvent} :
    contents kept es key = some e ↔ IsLastPut kept es key e := by
  induction es using List.reverseRecOn with
  | nil => simp [contents, IsLastPut]
  | append_singleton es event ih =>
    rw [contents_append_singleton, isLastPut_append_singleton]
    cases hs : event.supersedes kept key with
    | true => simp [apply_of_supersedes hs]
    | false =>
      have hput : event ≠ .put key e.diagnostics e.timestamp := by
        rintro rfl
        simp [supersedes] at hs
      simp [apply_of_not_supersedes hs, ih, hput]

/-- Asking changes nothing. -/
theorem contents_without_get (front back : List CacheEvent) (key : CacheKey)
    (modified? : Option Instant) :
    contents kept (front ++ .get key modified? :: back) = contents kept (front ++ back) := by
  rw [contents, contents, List.foldl_append, List.foldl_append]
  rfl

end CacheEvent

end DocContract
