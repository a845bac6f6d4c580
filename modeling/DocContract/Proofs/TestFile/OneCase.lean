import DocContract.Proofs.TestFile.Quoted
import DocContract.TestFile.Layout

/-!
# A flow with one case

Every text is the title of a case, when it is written in a template with a backslash in front of
each quote and each backslash. The flow whose only case has a given title is read through the whole
pipeline: no comment is masked in it, it is one statement, this is a suite, and its only case has
the title.
-/

namespace DocContract

open Text

/-- A flow with one case. -/
def oneCase (title : Text) : Text :=
  "describe(it(" ++ tick :: (escaped tick title ++ tick :: "))".toList)

/-! ### Reading the flow -/

section Flow

variable (title : Text)

private theorem maskComments_oneCase : maskComments (oneCase title) = oneCase title :=
  congrArg ("describe(it(".toList ++ tick :: ·)
    (mask_escaped (by decide) (fitsLiteral_tick title) "))")

private theorem classify_oneCase (words : List Text) : classify words (oneCase title) = .suite :=
  rfl

private theorem suiteTitle?_oneCase : suiteTitle? (oneCase title) = none := rfl

private theorem casesFrom_skip (line : Nat) (t : Text) :
    casesFrom line false t.length (t ++ "))") = [] := by
  induction t generalizing line with
  | nil => rfl
  | cons c t ih => exact ih _

private theorem caseCall?_oneCase :
    caseCall? ("it(".toList ++ tick :: (escaped tick title ++ tick :: "))".toList))
      = some (title, "))".toList) := literalTitle?_escaped (by decide) "))" (by decide) title

private theorem casesFrom_oneCase : casesFrom 1 true 0 (oneCase title) = [⟨title, 1⟩] := by
  let call := "t(".toList ++ tick :: (escaped tick title ++ [tick])
  have hcall : "it(".toList ++ tick :: (escaped tick title ++ tick :: "))".toList)
      = 'i' :: (call ++ "))") := by simp [call]
  have hbefore : casesFrom 1 true 0 (oneCase title)
      = casesFrom 1 true 0 ("it(".toList ++ tick :: (escaped tick title ++ tick :: "))".toList)) :=
    rfl
  have hcase := caseCall?_oneCase title
  rw [hcall] at hbefore hcase
  have hlength : (call ++ "))").length - "))".toList.length = call.length := by simp
  rw [hbefore, casesFrom, if_pos rfl, hcase]
  dsimp only
  rw [hlength, casesFrom_skip]

/-- The brackets that close the two calls end the statement with the text. -/
theorem run_closeCalls {s : Splitter} {o : OpenFragment} (hcode : s.nesting = .code)
    (hdepth : s.depth = 2) (hend : s.atEnd = false) (ho : s.open? = some o) :
    s.run "))" = [⟨o.start, (')' :: ')' :: o.read).reverse⟩] := by
  obtain ⟨place, depth, nesting, _, last?, atEnd⟩ := s
  dsimp only at hcode hdepth hend ho
  subst hcode hdepth hend ho
  rfl

/-- The text in front of the title opens a statement with two calls and a template. -/
theorem fragments_call (t : Text) : ∃ s : Splitter,
    fragments ("describe(it(" ++ tick :: t) = s.run t ∧ s.nesting = .literal tick false
      ∧ s.depth = 2 ∧ s.atEnd = false
      ∧ s.open? = some ⟨{}, tick :: "describe(it(".toList.reverse⟩ :=
  ⟨⟨⟨1, 14⟩, 2, .literal tick false, some ⟨{}, tick :: "describe(it(".toList.reverse⟩, some tick,
    false⟩, rfl, rfl, rfl, rfl, rfl⟩

/-- The flow is one statement. -/
theorem fragments_oneCase : fragments (oneCase title) = [⟨{}, oneCase title⟩] := by
  obtain ⟨s, hbefore, hliteral, hdepth, hend, ho⟩ :=
    fragments_call (escaped tick title ++ tick :: "))".toList)
  obtain ⟨s', hrun, hcode, hdepth', hend', ho'⟩ :=
    run_escaped (by decide) (fitsLiteral_tick title) "))" hliteral ho
  have hclose := run_closeCalls hcode (hdepth'.trans hdepth) (hend'.trans hend) ho'
  have hread : ∀ before written : Text,
      (')' :: ')' :: tick :: (written.reverse ++ tick :: before.reverse)).reverse
        = before ++ tick :: (written ++ tick :: [')', ')']) := by simp
  have htext := hread "describe(it(" (escaped tick title)
  exact hbefore.trans (hrun.trans (hclose.trans (congrArg (fun t => [Fragment.mk {} t]) htext)))

/-- The outline of the flow does not depend on the words for a database. -/
theorem outline_oneCase (words : List Text) :
    outline words (oneCase title) = ⟨[⟨.suite, {}, none, [⟨title, 1⟩]⟩]⟩ := by
  rw [outline, maskComments_oneCase, fragments_oneCase, List.map_singleton, Fragment.toStatement,
    classify_oneCase, suiteTitle?_oneCase]
  exact congrArg (fun cases => Outline.mk [⟨.suite, {}, none, cases⟩]) (casesFrom_oneCase title)

end Flow

end DocContract
