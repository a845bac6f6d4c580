import DocContract.Proofs.TestFile.Located

/-!
# Cases in the code

Masking hides the calls of cases in comments, but not those in literals. A call that a string or a
template spells out is a case like any other, unless a call in front of it reaches it, as with a
title that mentions a case.
-/

namespace DocContract

open Text

/-! ### What stands at an offset -/

/-- A character that masking leaves and that is no blank belongs to a piece that is no comment. -/
theorem exists_placed_of_masked {ps : List Piece} {above r : Text} {c : Char}
    (hc : isBlank c = false) (h : ps.flatMap Piece.masked = above ++ c :: r) (offset : Nat) :
    ∃ d ∈ placedFrom offset ps, d.piece.isComment = false
      ∧ d.offset ≤ offset + width above ∧ offset + width above < d.stop := by
  induction ps generalizing above offset with
  | nil => cases above <;> cases h
  | cons p ps ih =>
    rw [List.flatMap_cons] at h
    have hwidth : width p.masked = width p.text := (BlanksTo.piece p).width_eq
    have hsplit : (∃ b, above = p.masked ++ b ∧ ps.flatMap Piece.masked = b ++ c :: r)
        ∨ ∃ y, p.masked = above ++ c :: y := by
      rcases List.append_eq_append_iff.mp h with hbehind | ⟨y, hmasked, hcons⟩
      · exact .inl hbehind
      · cases y with
        | nil => exact .inl ⟨[], by rw [hmasked, List.append_nil, List.append_nil], hcons.symm⟩
        | cons d y =>
          obtain ⟨rfl, -⟩ := List.cons.inj hcons
          exact .inr ⟨y, hmasked⟩
    rcases hsplit with ⟨b, rfl, hbehind⟩ | ⟨y, hmasked⟩
    · obtain ⟨d, hd, hvisible, hplace⟩ := ih hbehind (offset + width p.text)
      refine ⟨d, List.mem_cons_of_mem _ hd, hvisible, ?_⟩
      rwa [width_append, hwidth, ← Nat.add_assoc]
    · refine ⟨⟨offset, p⟩, List.mem_cons_self, ?_, Nat.le_add_right _ _, ?_⟩
      · rw [Bool.eq_false_iff]
        intro hcomment
        have hmem : c ∈ p.masked := hmasked ▸ List.mem_append_right above List.mem_cons_self
        rcases Piece.eq_of_mem_masked hcomment hmem with rfl | rfl
        · exact absurd hc (by decide)
        · exact absurd hc (by decide)
      · have hpos : 0 < c.utf8Size := c.utf8Size_pos
        rw [PlacedPiece.stop, ← hwidth, hmasked, width_append, width]
        dsimp only
        omega

/-- Masking leaves nothing but blanks of the comments. -/
theorem kindAt_of_masked {t above r : Text} {c : Char} (hc : isBlank c = false)
    (h : maskComments t = above ++ c :: r) :
    KindAt t .code (width above) ∨ KindAt t .literal (width above) := by
  rw [maskComments_eq_flatMap] at h
  obtain ⟨d, hd, hvisible, hstart, hstop⟩ := exists_placed_of_masked hc h 0
  rw [Nat.zero_add] at hstart hstop
  cases hkind : d.piece.kind with
  | code => exact .inl ⟨d, hd, hkind, hstart, hstop⟩
  | literal => exact .inr ⟨d, hd, hkind, hstart, hstop⟩
  | lineComment =>
    rw [Piece.isComment, hkind] at hvisible
    cases hvisible
  | blockComment =>
    rw [Piece.isComment, hkind] at hvisible
    cases hvisible

/-! ### Suites -/

/-- The statement is read off a fragment of the masked file, which stands behind what is above. -/
structure Statement.ReadOff (words : List Text) (t above : Text) (f : Fragment) (s : Statement) :
    Prop where
  found : f ∈ fragments (maskComments t)
  stands : ∃ below, maskComments t = above ++ (f.text ++ below)
  start : f.start = Position.behind {} above
  read : s = f.toStatement words

private theorem exists_readOff {words : List Text} {t : Text} {s : Statement}
    (hs : s ∈ (outline words t).statements) : ∃ above f, s.ReadOff words t above f := by
  obtain ⟨f, hf, rfl⟩ := List.mem_map.mp hs
  obtain ⟨above, text, below, ht, hstands⟩ := (covers_fragments _).exists_of_mem hf
  rw [List.nil_append, ← hstands.written] at ht
  exact ⟨above, f, hf, ⟨below, ht⟩, hstands.start, rfl⟩

/-- The word of the call, in a statement behind what stands above, begins in a piece of the kind. -/
def CaseCall.LiesIn (t above : Text) (kind : PieceKind) (k : CaseCall) : Prop :=
  KindAt t kind (width (above ++ k.front))

instance (t above : Text) (kind : PieceKind) (k : CaseCall) : Decidable (k.LiesIn t above kind) :=
  inferInstanceAs (Decidable (KindAt t kind (width (above ++ k.front))))

section Suite

variable {words : List Text} {t above : Text} {f : Fragment} {s : Statement} {k : CaseCall}

private theorem Statement.ReadOff.cases_eq (h : s.ReadOff words t above f)
    (hkind : s.kind = .suite) :
    s.cases = (caseCalls f.text).map (CaseCall.toCase s.place.line) := by
  obtain rfl := h.read
  rw [f.toStatement_kind words] at hkind
  unfold Fragment.toStatement
  dsimp only
  rw [if_pos hkind]
  exact cases_eq_map f.start.line f.text

/-- Whatever call stands in the masked statement begins in the code or in a literal of the file. -/
theorem Statement.ReadOff.liesIn (h : s.ReadOff words t above f) (hk : k.StandsIn f.text) :
    (k.toCase s.place.line).IsAt t above f.text k.front
      ∧ (k.LiesIn t above .code ∨ k.LiesIn t above .literal) := by
  obtain rfl := h.read
  obtain ⟨below, ht⟩ := h.stands
  obtain ⟨call, htext, hread⟩ := hk.called
  have hcalled : (k.toCase (Position.behind {} above).line).CalledIn (Position.behind {} above).line
      f.text k.front := ⟨call, k.rest, htext, hread, rfl⟩
  refine ⟨?_, ?_⟩
  · rw [f.toStatement_place words, h.start]
    exact hcalled.isAt ht
  · obtain ⟨word, hword, rest, rfl⟩ := word_of_caseCall? hread
    obtain ⟨hsolid, hne⟩ := solid_caseWords word hword
    obtain ⟨c, w, hcons⟩ := List.exists_cons_of_ne_nil hne
    have hwhole : maskComments t = above ++ k.front ++ c :: (w ++ rest ++ below) := by
      rw [ht, htext, hcons]
      simp only [List.append_assoc, List.cons_append]
    exact kindAt_of_masked (hsolid c (hcons ▸ List.mem_cons_self)) hwhole

/-- The calls that are found in a statement stand in the code exactly when each call that a literal
of it spells out is reached by one of them. -/
theorem Statement.ReadOff.code_iff (h : s.ReadOff words t above f) :
    (∀ k ∈ caseCalls f.text, k.LiesIn t above .code)
      ↔ ∀ k : CaseCall, k.StandsIn f.text → k.LiesIn t above .literal →
          ∃ k' ∈ caseCalls f.text, k'.Reaches f.text k ∧ k'.LiesIn t above .code := by
  constructor
  · intro hcode k hstands hliteral
    have hmissed : k ∉ caseCalls f.text := fun hk => nomatch (hcode k hk).unique hliteral
    rw [mem_caseCalls_iff, not_and] at hmissed
    obtain ⟨k', hk', hreaches⟩ : ∃ k' ∈ caseCalls f.text, k'.Reaches f.text k := by
      simpa using hmissed hstands
    exact ⟨k', hk', hreaches, hcode k' hk'⟩
  · intro hreached k hk
    obtain ⟨hstands, hfree⟩ := mem_caseCalls_iff.mp hk
    rcases (h.liesIn hstands).2 with hcode | hliteral
    · exact hcode
    · obtain ⟨k', hk', hreaches, -⟩ := hreached k hstands hliteral
      exact absurd hreaches (hfree k' hk')

end Suite

/-- Every case of a suite comes from a call in the masked text of the suite, and such a call stands
in the code of the file or in a literal, never in a comment. The collected calls are those that none
of them reaches. So all of them stand in the code exactly when each call that a literal of the suite
spells out is reached by one that stands in the code. -/
theorem casesInCode_iff (words : List Text) (t : Text) {s : Statement}
    (hs : s ∈ (outline words t).suites) :
    ∃ above f, s.ReadOff words t above f
      ∧ s.cases = (caseCalls f.text).map (CaseCall.toCase s.place.line)
      ∧ (∀ k : CaseCall, k.StandsIn f.text → (k.toCase s.place.line).IsAt t above f.text k.front
          ∧ (k.LiesIn t above .code ∨ k.LiesIn t above .literal))
      ∧ (∀ k : CaseCall, k ∈ caseCalls f.text
          ↔ k.StandsIn f.text ∧ ∀ k' ∈ caseCalls f.text, ¬ k'.Reaches f.text k)
      ∧ ((∀ k ∈ caseCalls f.text, k.LiesIn t above .code)
        ↔ ∀ k : CaseCall, k.StandsIn f.text → k.LiesIn t above .literal →
            ∃ k' ∈ caseCalls f.text, k'.Reaches f.text k ∧ k'.LiesIn t above .code) := by
  obtain ⟨hmem, hkind⟩ := List.mem_filter.mp hs
  obtain ⟨above, f, h⟩ := exists_readOff hmem
  exact ⟨above, f, h, h.cases_eq (eq_of_beq hkind), fun _ => h.liesIn, fun _ => mem_caseCalls_iff,
    h.code_iff⟩

/-- A call in the title of a case is no case of its own: the case reaches it. -/
theorem casesInCode_titleExample :
    let t : Text := "describe('f', () => \x7b it('says it(\"x\")', g); \x7d);"
    let s : Statement := ⟨.suite, {}, some "f", [⟨"says it(\"x\")", 1⟩]⟩
    s ∈ (outline [] t).suites
      ∧ ∃ above f, s.ReadOff [] t above f
        ∧ (∀ k ∈ caseCalls f.text, k.LiesIn t above .code)
        ∧ ∀ k : CaseCall, k.StandsIn f.text → k.LiesIn t above .literal →
            ∃ k' ∈ caseCalls f.text, k'.Reaches f.text k ∧ k'.LiesIn t above .code := by
  intro t s
  have hs : s ∈ (outline [] t).suites := by decide +kernel
  have hfragments : fragments (maskComments t) = [⟨{}, t⟩] := by decide +kernel
  have hmask : maskComments t = t := by decide +kernel
  obtain ⟨above, f, hread, -, -, -, hiff⟩ := casesInCode_iff [] t hs
  have hf : f = ⟨{}, t⟩ := List.mem_singleton.mp (hfragments ▸ hread.found)
  subst hf
  obtain ⟨below, hwhole⟩ := hread.stands
  have habove : above = [] := by
    rw [hmask] at hwhole
    have hlength := congrArg List.length hwhole
    rw [List.length_append, List.length_append] at hlength
    exact List.length_eq_zero_iff.mp (by dsimp only at hlength; omega)
  subst habove
  have hcode : ∀ k ∈ caseCalls t, k.LiesIn t [] .code := by decide +kernel
  exact ⟨hs, [], ⟨{}, t⟩, hread, hcode, hiff.mp hcode⟩

/-- A string that spells out a call adds a case to the suite. -/
theorem casesInCode_stringExample :
    let t : Text := "describe('f', () => \x7b const s = \"it('x')\"; \x7d);"
    ∃ s ∈ (outline [] t).suites, ∃ above f, s.ReadOff [] t above f
      ∧ s.cases = (caseCalls f.text).map (CaseCall.toCase s.place.line)
      ∧ ∃ k ∈ caseCalls f.text, k.toCase s.place.line = ⟨"x", 1⟩
        ∧ k.LiesIn t above .literal ∧ ¬ k.LiesIn t above .code := by
  intro t
  have hsuites : (outline [] t).suites = [⟨.suite, {}, some "f", [⟨"x", 1⟩]⟩] := by decide +kernel
  have hfragments : fragments (maskComments t) = [⟨{}, t⟩] := by decide +kernel
  have hmask : maskComments t = t := by decide +kernel
  have hcalls : caseCalls t = [⟨"describe('f', () => \x7b const s = \"", "x", ")\"; \x7d);"⟩] := by
    decide +kernel
  refine ⟨_, by rw [hsuites]; exact List.mem_cons_self, [], ⟨{}, t⟩,
    ⟨by rw [hfragments]; exact List.mem_cons_self, ⟨[], by rw [hmask]; simp⟩, rfl, ?_⟩, ?_,
    _, by rw [hcalls]; exact List.mem_cons_self, rfl, ?_, ?_⟩
  · decide +kernel
  · rw [hcalls]
    rfl
  · decide +kernel
  · decide +kernel

end DocContract
