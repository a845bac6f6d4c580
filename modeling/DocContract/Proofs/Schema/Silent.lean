import DocContract.Proofs.Schema.Documented

/-!
# Checks without a finding

The check of a family of paths is silent when no path is documented twice, no documented path has
anything wrong with it, and no path is missing. Documentation that repeats the paths of a signature
one by one is silent, and so is a check whose parts all are.
-/

namespace DocContract

open Text

section Paths

variable {family : PathFamily} {signature : List SignaturePath} {place : Nat × Nat}

/-- Nothing is found about documented paths when none is repeated and each one is fine by itself. -/
theorem documentedFindings_eq_nil_iff {docs : List DocPath} :
    documentedFindings family signature [] docs = []
      ↔ (documentedPlaces signature docs).Nodup
        ∧ ∀ d ∈ docs, d.findings family signature = [] := by
  simp only [List.eq_nil_iff_forall_not_mem]
  refine (forall_documented_iff (P := fun _ => False) fun _ h => h).trans ?_
  refine and_congr_right fun _ => and_iff_right fun i _ => List.not_mem_nil

/-- Nothing is missing when each path is documented, optional or not expected. -/
theorem missingFindings_eq_nil_iff {documented : List Nat} {ps : List SignaturePath}
    {start : Nat} :
    missingFindings family signature documented place start ps = []
      ↔ ∀ (j : Nat) (p : SignaturePath), ps[j]? = some p →
        start + j ∈ documented ∨ p.optional = true ∨ isExpected signature documented p = false := by
  rw [List.eq_nil_iff_forall_not_mem]
  refine (forall_missing_iff (P := fun _ => False)).trans ?_
  simp only [or_false]

private theorem missingFindings_append {documented : List Nat} {ps qs : List SignaturePath}
    {start : Nat} :
    missingFindings family signature documented place start (ps ++ qs)
      = missingFindings family signature documented place start ps
        ++ missingFindings family signature documented place (start + ps.length) qs := by
  induction ps generalizing start with
  | nil => rfl
  | cons p ps ih =>
    rw [List.cons_append, missingFindings, missingFindings, ih, List.append_assoc,
      List.length_cons, Nat.add_assoc, Nat.add_comm 1]

/-- A path that is missing as the only one is the only finding. -/
theorem missingFindings_eq_singleton {documented : List Nat} {i : Nat} {p : SignaturePath}
    (hp : signature[i]? = some p) (hi : i ∉ documented) (hreq : p.optional = false)
    (hexpected : isExpected signature documented p = true)
    (hothers : ∀ (j : Nat) (q : SignaturePath), signature[j]? = some q → j ≠ i →
      j ∈ documented ∨ q.optional = true ∨ isExpected signature documented q = false) :
    missingFindings family signature documented place 0 signature
      = [⟨place.1, place.2, .pathMissing family p.key⟩] := by
  obtain ⟨hlt, hget⟩ := List.getElem?_eq_some_iff.mp hp
  have hlen : (signature.take i).length = i := List.length_take_of_le (Nat.le_of_lt hlt)
  have hsplit : signature = signature.take i ++ p :: signature.drop (i + 1) := by
    rw [← hget, List.getElem_cons_drop, List.take_append_drop]
  have hfront : missingFindings family signature documented place 0 (signature.take i) = [] := by
    refine missingFindings_eq_nil_iff.mpr fun j q hq => ?_
    have hj : j < i := by
      have := (List.getElem?_eq_some_iff.mp hq).1
      omega
    rw [Nat.zero_add]
    rw [List.getElem?_take_of_lt hj] at hq
    exact hothers j q hq (by omega)
  have hback : missingFindings family signature documented place (i + 1)
      (signature.drop (i + 1)) = [] := by
    refine missingFindings_eq_nil_iff.mpr fun j q hq => ?_
    rw [List.getElem?_drop] at hq
    exact hothers _ q hq (by omega)
  have hmid : (documented.contains i || p.optional || !isExpected signature documented p)
      = false := by
    simpa [hreq, hexpected] using hi
  conv_lhs => rw [hsplit]
  rw [missingFindings_append, missingFindings, hlen, ← hsplit, hfront, Nat.zero_add, hmid, hback]
  rfl

/-- What the check looks at in a documented path: its key, its option and its type. -/
def DocPath.outline (d : DocPath) : Text × Bool × Option Text :=
  (d.key, d.tag.optional, d.tag.type?)

/-- The outline of a path's documentation when there is nothing wrong with it. -/
def SignaturePath.outline (p : SignaturePath) : Text × Bool × Option Text :=
  (p.key, p.optional, none)

/-- Paths that repeat those of a signature one by one are documented without a finding. -/
theorem pathFindings_eq_nil (hd : (signature.map SignaturePath.key).Nodup) {docs : List DocPath}
    (hsame : docs.map DocPath.outline = signature.map SignaturePath.outline) {complete : Bool} :
    pathFindings family docs signature place complete = [] := by
  have hkeys : docs.map DocPath.key = signature.map SignaturePath.key := by
    have := congrArg (List.map Prod.fst) hsame
    rwa [List.map_map, List.map_map] at this
  have honce : (documentedPlaces signature docs).Nodup := by
    refine (nodup_documentedPlaces hd).mpr fun p _ => ?_
    rw [hkeys]
    exact List.nodup_iff_count_le_one.mp hd p.key
  have hfine : ∀ d ∈ docs, d.findings family signature = [] := by
    intro d hmem
    have houtline : d.outline ∈ signature.map SignaturePath.outline := by
      rw [← hsame]
      exact List.mem_map_of_mem hmem
    obtain ⟨p, hp, hpd⟩ := List.mem_map.mp houtline
    obtain ⟨hkey, hrest⟩ := Prod.mk.inj hpd
    obtain ⟨hopt, htype⟩ := Prod.mk.inj hrest
    obtain ⟨i, hi⟩ := List.getElem?_of_mem hp
    have hlast := lastPlace?_eq_some hd hi
    rw [hkey] at hlast
    rw [DocPath.findings, hlast]
    dsimp only
    rw [hi]
    dsimp only
    rw [matchedFindings, if_pos hopt.symm, ← htype]
    rfl
  have hmissing : missingFindings family signature (documentedPlaces signature docs) place 0
      signature = [] := by
    refine missingFindings_eq_nil_iff.mpr fun j p hp => .inl ?_
    rw [Nat.zero_add, mem_documentedPlaces hd hp, hkeys]
    exact List.mem_map_of_mem (List.mem_of_getElem? hp)
  rw [pathFindings, documentedFindings_eq_nil_iff.mpr ⟨honce, hfine⟩, hmissing, ite_self]
  rfl

end Paths

/-- The check finds nothing exactly when none of its parts does. -/
theorem SchemaCheck.run_eq_nil_iff {c : SchemaCheck} {file : Path} :
    c.run file = [] ↔ c.briefFindings = [] ∧ c.templateFindings = [] ∧ c.parameterFindings = []
      ∧ c.propertyFindings = [] ∧ c.returnFindings = [] ∧ c.throwsFindings = []
      ∧ c.usageFindings = [] := by
  simp only [run, List.map_eq_nil_iff, findings, List.append_eq_nil_iff, and_assoc]

end DocContract
