import DocContract.Proofs.TestFile.Coverage
import DocContract.Proofs.TestFile.Masked

/-!
# How the splitter goes on

A run over two texts is the run over the first and then, from the state reached, over the second.
Where the splitter is inside a literal depends on the characters alone, and it agrees with the
pieces: in front of each piece of a file it is in the code. Between two statements outside all
brackets the splitter is as it was at first, apart from its place; the last significant character
is not looked at before there is another one.
-/

namespace DocContract

open Text

namespace Splitter

/-! ### Runs -/

/-- The splitter behind a text. -/
def after (s : Splitter) (t : Text) : Splitter := t.foldl (fun s c => (s.step c).1) s

/-- The statements that end in a text. -/
def ended (s : Splitter) : Text → List Fragment
  | [] => []
  | c :: r => (s.step c).2 ++ (s.step c).1.ended r

private theorem after_cons (s : Splitter) (c : Char) (r : Text) :
    s.after (c :: r) = (s.step c).1.after r := rfl

/-- Going over joined texts is going over the first one and then over the second. -/
theorem after_append (s : Splitter) (t u : Text) : s.after (t ++ u) = (s.after t).after u :=
  List.foldl_append

/-- A run goes on from where it was. -/
theorem run_append (s : Splitter) (t u : Text) :
    s.run (t ++ u) = s.ended t ++ (s.after t).run u := by
  induction t generalizing s with
  | nil => rfl
  | cons c r ih =>
    rw [List.cons_append, run, ended, after_cons, List.append_assoc]
    exact congrArg _ (ih _)

/-- Going over a text goes on to the place behind it. -/
theorem place_after (s : Splitter) (t : Text) : (s.after t).place = s.place.behind t := by
  induction t generalizing s with
  | nil => rfl
  | cons c r ih =>
    rw [after_cons, ih, place_step]
    rfl

end Splitter

/-! ### Literals -/

namespace Nesting

/-- Where the splitter is behind a character. -/
def next : Nesting → Char → Nesting
  | .code, c => if isQuote c then .literal c false else .code
  | .literal quote true, _ => .literal quote false
  | .literal quote false, c =>
    if c == '\\' then .literal quote true
    else if endsLiteral quote c then .code
    else .literal quote false

/-- Where the splitter is behind a text. -/
def after (n : Nesting) (t : Text) : Nesting := t.foldl next n

private theorem after_append (n : Nesting) (t u : Text) : n.after (t ++ u) = (n.after t).after u :=
  List.foldl_append

private theorem after_blanked {t : Text} (h : ∀ b ∈ t, b = ' ' ∨ b = '\n') :
    code.after t = code := by
  induction t with
  | nil => rfl
  | cons b r ih =>
    obtain ⟨hb, hr⟩ := List.forall_mem_cons.mp h
    have hnext : code.next b = code := by
      rcases hb with rfl | rfl
      · decide
      · decide
    have hrest : code.after (b :: r) = (code.next b).after r := rfl
    rw [hrest, hnext, ih hr]

/-- A character of a literal that takes none along is no backslash, if something follows. -/
theorem beq_backslash_eq_false {c : Char} {r : Text}
    (h : ∀ d u, c = '\\' → r = d :: u → False) (hr : r ≠ []) : (c == '\\') = false := by
  obtain ⟨d, u, rfl⟩ := List.exists_cons_of_ne_nil hr
  exact beq_eq_false_iff_ne.mpr fun hc => h d u hc rfl

/-- Behind a literal that something follows is the code. -/
theorem after_cutLiteral (quote : Char) {t : Text} (h : (cutLiteral quote t).2 ≠ []) :
    (literal quote false).after (cutLiteral quote t).1 = code := by
  fun_induction cutLiteral quote t with
  | case1 => exact absurd rfl h
  | case2 c r ih => exact ih h
  | case3 c r hslash hends =>
    have hclose : (literal quote false).next c = code := by
      rw [next, beq_backslash_eq_false hslash h, hends]
      rfl
    exact hclose
  | case4 c r hslash hgoes ih =>
    have hr : r ≠ [] := by
      rintro rfl
      exact h rfl
    have hstay : (literal quote false).next c = literal quote false := by
      rw [next, beq_backslash_eq_false hslash hr, Bool.eq_false_iff.mpr hgoes]
      rfl
    have hrest : (literal quote false).after (c :: (cutLiteral quote r).1)
        = ((literal quote false).next c).after (cutLiteral quote r).1 := rfl
    rw [hrest, hstay, ih h]

/-- A piece leads from the code back to the code, if another one follows. -/
theorem after_masked_of_cons {t : Text} {p : Piece} {qs : List Piece} (h : pieces t = p :: qs)
    (hne : qs ≠ []) : code.after p.masked = code := by
  revert h
  fun_cases pieces t with
  | case1 => rintro ⟨⟩
  | case2 r =>
    rintro ⟨rfl, rfl⟩
    exact after_blanked fun _ => Piece.eq_of_mem_masked rfl
  | case3 r =>
    rintro ⟨rfl, rfl⟩
    exact after_blanked fun _ => Piece.eq_of_mem_masked rfl
  | case4 c r _ _ hquote =>
    rintro ⟨rfl, rfl⟩
    have hopen : code.next c = literal c false := if_pos hquote
    have hrest : (cutLiteral c r).2 ≠ [] := by
      intro hnil
      rw [hnil, pieces] at hne
      exact hne rfl
    have hliteral : code.after (c :: (cutLiteral c r).1)
        = (code.next c).after (cutLiteral c r).1 := rfl
    rw [Piece.masked_of_visible rfl, hliteral, hopen, after_cutLiteral c hrest]
  | case5 c r _ _ hquote =>
    rintro ⟨rfl, rfl⟩
    exact if_neg hquote

/-- In front of each piece of a file is the code. -/
theorem after_masked {t : Text} {ps qs : List Piece} {p : Piece} (h : pieces t = ps ++ p :: qs) :
    code.after (ps.flatMap Piece.masked) = code := by
  induction ps generalizing t with
  | nil => rfl
  | cons q ps ih =>
    have hrest : ps ++ p :: qs = pieces (Piece.joined (ps ++ p :: qs)) := @pieces_suffix t [q] _ h
    rw [List.flatMap_cons, after_append, after_masked_of_cons h (by simp), ih hrest.symm]

end Nesting

namespace Splitter

private theorem nesting_inLiteral (s : Splitter) (quote : Char) (escaped : Bool) (c : Char)
    (h : s.nesting = .literal quote escaped) :
    (s.inLiteral quote escaped c).nesting = s.nesting.next c := by
  rw [h]
  cases escaped with
  | true => rfl
  | false =>
    unfold inLiteral Nesting.next
    dsimp only
    rw [if_neg Bool.false_ne_true]
    split
    · rfl
    · split
      · rfl
      · exact h

/-- A character that ends or opens no literal leaves the splitter in the code. -/
theorem nesting_significant {s : Splitter} (h : s.nesting = .code) (o : OpenFragment) (c : Char) :
    (s.significant o c).1.nesting = s.nesting.next c := by
  unfold significant
  dsimp only
  rw [h]
  split
  · next hends =>
    rw [eq_of_beq (Bool.and_eq_true_iff.mp hends).1]
    rfl
  · rfl

private theorem nesting_begin {s : Splitter} (h : s.nesting = .code) (c : Char) :
    (s.begin c).1.nesting = s.nesting.next c := by
  unfold begin
  split
  · next hc =>
    rw [eq_of_beq hc, h]
    rfl
  · exact nesting_significant h _ c

/-- A step goes on with a literal as the character says. -/
theorem nesting_step (s : Splitter) (c : Char) : (s.step c).1.nesting = s.nesting.next c := by
  cases hnesting : s.nesting with
  | literal quote escaped =>
    rw [← hnesting, ← nesting_inLiteral s quote escaped c hnesting, step, hnesting]
  | code =>
    rw [← hnesting, step, hnesting]
    dsimp only
    split
    · next hblank =>
      rw [nesting_blank, hnesting, Nesting.next, isQuote_of_isBlank hblank]
      rfl
    · rw [← hnesting]
      split
      · exact nesting_begin hnesting c
      · split
        · exact nesting_begin hnesting c
        · exact nesting_significant hnesting _ c

/-- Going over a text nests as its brackets and quotes say. -/
theorem nesting_after (s : Splitter) (t : Text) : (s.after t).nesting = s.nesting.after t := by
  induction t generalizing s with
  | nil => rfl
  | cons c r ih =>
    rw [after_cons, ih, nesting_step]
    rfl

/-! ### Inside a statement -/

/-- The splitter reads the statement and is in its code. -/
structure Reads (s : Splitter) (o : OpenFragment) : Prop where
  nesting : s.nesting = .code
  opened : s.open? = some o
  atEnd : s.atEnd = false

/-- A blank is no bracket. -/
theorem depthAfter_blank {c : Char} (h : isBlank c = true) (depth : Nat) :
    depthAfter depth c = depth := by
  have hne : ∀ d, isBlank d = false → (c == d) = false := by
    intro d hd
    rw [beq_eq_false_iff_ne]
    rintro rfl
    rw [h] at hd
    cases hd
  unfold depthAfter
  rw [hne '(' rfl, hne '[' rfl, hne '\x7b' rfl, hne ')' rfl, hne ']' rfl, hne '\x7d' rfl]
  rfl

/-- The character neither ends a line nor a statement, and opens no literal. -/
def IsPlain (c : Char) : Prop := isQuote c = false ∧ c ≠ '\n' ∧ c ≠ ';'

instance (c : Char) : Decidable (IsPlain c) := inferInstanceAs (Decidable (_ ∧ _ ∧ _))

namespace Reads

variable {s : Splitter} {o : OpenFragment} {c : Char}

/-- A plain character goes on with the statement. -/
theorem step_plain (h : s.Reads o) (hc : IsPlain c) :
    (s.step c).2 = [] ∧ (s.step c).1.Reads (o.push c)
      ∧ (s.step c).1.depth = depthAfter s.depth c := by
  obtain ⟨hquote, hline, hsemi⟩ := hc
  rw [step, h.nesting]
  dsimp only
  split
  · next hblank =>
    have hkeep : s.blank c = s.keep c := by
      unfold Splitter.blank
      dsimp only
      rw [beq_eq_false_iff_ne.mpr hline, Bool.false_and, Bool.false_and]
      rfl
    have hopen : (s.keep c).open? = s.open?.map (·.push c) := rfl
    rw [hkeep, depthAfter_blank hblank]
    exact ⟨rfl, ⟨h.nesting, by rw [hopen, h.opened]; rfl, h.atEnd⟩, rfl⟩
  · rw [h.opened, h.atEnd]
    dsimp only
    rw [Bool.false_and, if_neg Bool.false_ne_true]
    unfold significant
    dsimp only
    rw [beq_eq_false_iff_ne.mpr hsemi, hquote, Bool.false_and]
    exact ⟨rfl, ⟨rfl, rfl, rfl⟩, rfl⟩

/-- Plain text goes on with the statement. -/
theorem after_plain (h : s.Reads o) {t : Text} (ht : ∀ c ∈ t, IsPlain c) :
    s.ended t = [] ∧ (s.after t).Reads ⟨o.start, t.reverse ++ o.read⟩
      ∧ (s.after t).depth = t.foldl depthAfter s.depth := by
  induction t generalizing s o with
  | nil => exact ⟨rfl, h, rfl⟩
  | cons c t ih =>
    obtain ⟨hc, ht⟩ := List.forall_mem_cons.mp ht
    obtain ⟨hnone, hreads, hdepth⟩ := h.step_plain hc
    obtain ⟨hended, hafter, hdepths⟩ := ih hreads ht
    rw [ended, after_cons, hnone, hended, hdepths, hdepth]
    refine ⟨rfl, ?_, rfl⟩
    rw [List.reverse_cons, List.append_assoc]
    exact hafter

/-- A semicolon outside all brackets ends the statement. -/
theorem step_semicolon (h : s.Reads o) (hdepth : s.depth = 0) :
    (s.step ';').2 = [(o.push ';').close] := by
  have hblank : isBlank ';' = false := rfl
  rw [step, h.nesting]
  dsimp only
  rw [hblank, h.opened, h.atEnd]
  dsimp only
  rw [Bool.false_and, if_neg Bool.false_ne_true, if_neg Bool.false_ne_true]
  unfold significant
  dsimp only
  rw [hdepth]
  rfl

end Reads

/-! ### Between two statements -/

/-- The splitter is between two statements, outside all brackets. -/
structure IsFresh (s : Splitter) : Prop where
  depth : s.depth = 0
  nesting : s.nesting = .code
  opened : s.open? = none
  atEnd : s.atEnd = false

/-- A semicolon of the code, outside all brackets, ends every statement. -/
theorem isFresh_semicolon {s : Splitter} (hnesting : s.nesting = .code) (hdepth : s.depth = 0) :
    (s.step ';').1.IsFresh := by
  obtain ⟨place, depth, nesting, open?, last?, atEnd⟩ := s
  dsimp only at hnesting hdepth
  subst hnesting hdepth
  cases open? with
  | none => exact ⟨rfl, rfl, rfl, rfl⟩
  | some o =>
    cases atEnd with
    | false => exact ⟨rfl, rfl, rfl, rfl⟩
    | true => exact ⟨rfl, rfl, rfl, rfl⟩

namespace IsFresh

variable {s s' : Splitter}

/-- A fresh splitter is still fresh after a blank. -/
theorem blank (h : s.IsFresh) (c : Char) : (s.blank c).IsFresh := by
  have hkeep : (s.keep c).open? = none := by
    rw [keep, h.opened]
    rfl
  have hblank : s.blank c = s.keep c := by
    unfold Splitter.blank
    dsimp only
    rw [hkeep, Option.isSome_none, Bool.and_false, if_neg Bool.false_ne_true]
  rw [hblank]
  exact ⟨h.depth, h.nesting, hkeep, h.atEnd⟩

/-- A statement begins in the same way whatever stood in front. -/
theorem begin_eq (h : s.IsFresh) (h' : s'.IsFresh) (hplace : s.place = s'.place) (c : Char) :
    s.begin c = s'.begin c ∨ (s.begin c).1.IsFresh ∧ (s'.begin c).1.IsFresh
      ∧ (s.begin c).2 = [] ∧ (s'.begin c).2 = [] := by
  unfold begin
  split
  · exact .inr ⟨⟨h.depth, h.nesting, rfl, rfl⟩, ⟨h'.depth, h'.nesting, rfl, rfl⟩, rfl, rfl⟩
  · next hc =>
    left
    have hsemi : (c == ';') = false := Bool.eq_false_iff.mpr hc
    unfold significant
    dsimp only
    rw [hsemi, h.depth, h'.depth, hplace]
    rfl

/-- Between two statements the splitter goes on as it would at the beginning of a file. -/
theorem run_eq (h : s.IsFresh) (h' : s'.IsFresh) (hplace : s.place = s'.place) (t : Text) :
    s.run t = s'.run t := by
  induction t generalizing s s' with
  | nil => rw [run, run, h.opened, h'.opened]
  | cons c r ih =>
    have hplaces : (s.step c).1.place = (s'.step c).1.place := by
      rw [place_step, place_step, hplace]
    rw [run, run]
    dsimp only
    by_cases hblank : isBlank c = true
    · have hstep : ∀ {s : Splitter}, s.IsFresh → s.step c = (s.blank c, []) := by
        intro s h
        rw [step, h.nesting]
        exact if_pos hblank
      rw [hstep h, hstep h'] at hplaces ⊢
      rw [ih (h.blank c) (h'.blank c) hplaces]
    · have hstep : ∀ {s : Splitter}, s.IsFresh → s.step c = s.begin c := by
        intro s h
        rw [step, h.nesting]
        dsimp only
        rw [if_neg hblank, h.opened]
      rw [hstep h, hstep h'] at hplaces ⊢
      rcases h.begin_eq h' hplace c with heq | ⟨hs, hs', hfound, hfound'⟩
      · rw [heq]
      · rw [hfound, hfound', ih hs hs' hplaces]

end IsFresh

end Splitter

end DocContract
