import DocContract.TestFile.Outline

/-!
# Titles in quotes

Every title can be written as a literal, when each quote of its kind and each backslash gets a
backslash in front; only a template takes newlines. Such a literal is inert wherever a file is read:
nothing is masked in it, the splitter passes over it, and it is read back as the title.
-/

namespace DocContract

open Text

/-- The quote of a template. -/
def tick : Char := Char.ofNat 0x60

/-- There are three quotes. -/
theorem eq_of_isQuote {c : Char} (h : isQuote c = true) : c = '\'' ∨ c = '"' ∨ c = tick := by
  simp only [isQuote, Bool.or_eq_true, beq_iff_eq, or_assoc] at h
  rcases h with rfl | rfl | h
  · exact .inl rfl
  · exact .inr (.inl rfl)
  · exact .inr (.inr (Char.toNat_inj.mp h))

/-- A title as a literal has it. -/
def escaped (quote : Char) : Text → Text
  | [] => []
  | c :: r =>
    if c = quote ∨ c = '\\' then '\\' :: c :: escaped quote r else c :: escaped quote r

/-- Only the quote itself ends the literal in the title. -/
def FitsLiteral (quote : Char) (title : Text) : Prop :=
  ∀ c ∈ title, c ≠ quote → endsLiteral quote c = false

private theorem endsLiteral_tick (c : Char) : endsLiteral tick c = (c == tick) := by
  have htemplate : (tick.toNat != 0x60) = false := by decide
  rw [endsLiteral, htemplate, Bool.and_false, Bool.or_false]

/-- A template takes every title. -/
theorem fitsLiteral_tick (title : Text) : FitsLiteral tick title := fun c _ hc => by
  rw [endsLiteral_tick, beq_eq_false_iff_ne.mpr hc]

/-- Every literal takes a title of one line. -/
theorem fitsLiteral_of_line (quote : Char) {title : Text} (h : '\n' ∉ title) :
    FitsLiteral quote title := fun c hmem hc => by
  have hline : c ≠ '\n' := by
    rintro rfl
    exact h hmem
  rw [endsLiteral, beq_eq_false_iff_ne.mpr hc, beq_eq_false_iff_ne.mpr hline]
  rfl

private theorem endsLiteral_self (quote : Char) : endsLiteral quote quote = true := by
  rw [endsLiteral, beq_self_eq_true, Bool.true_or]

section Literal

variable {quote : Char} (hslash : quote ≠ '\\') {title : Text} (hfits : FitsLiteral quote title)
  (rest : Text)

include hslash hfits

/-- Nothing is masked in a literal. -/
theorem mask_escaped : Lexeme.mask (.literal quote) (escaped quote title ++ quote :: rest)
    = escaped quote title ++ quote :: Lexeme.mask .code rest := by
  induction title with
  | nil =>
    have hclose : Lexeme.afterLiteral quote quote = .code := if_pos (endsLiteral_self quote)
    rw [escaped, List.nil_append, Lexeme.mask_literal_cons fun _ _ hc => absurd hc hslash, hclose]
    rfl
  | cons c title ih =>
    obtain ⟨hc, htitle⟩ := List.forall_mem_cons.mp hfits
    unfold escaped
    split
    · rw [List.cons_append, List.cons_append, Lexeme.mask, ih htitle]
      rfl
    · next hplain =>
      obtain ⟨hquote, hback⟩ := not_or.mp hplain
      have hstay : Lexeme.afterLiteral quote c = .literal quote := by
        rw [Lexeme.afterLiteral, hc hquote]
        rfl
      rw [List.cons_append, Lexeme.mask_literal_cons fun _ _ hc => absurd hc hback, hstay,
        ih htitle]
      rfl

omit hfits in
/-- A literal is read as the title that it was written for. -/
theorem literalTitle?_escaped (hline : quote ≠ '\n') (title : Text) :
    literalTitle? quote (escaped quote title ++ quote :: rest) = some (title, rest) := by
  induction title with
  | nil =>
    rw [escaped, List.nil_append, literalTitle?, if_pos rfl]
    exact fun _ _ hc => absurd hc hslash
  | cons c title ih =>
    unfold escaped
    split
    · next hspecial =>
      have hc : c ≠ '\n' := by
        rintro rfl
        rcases hspecial with hquote | hback
        · exact hline hquote.symm
        · exact absurd hback (by decide)
      rw [List.cons_append, List.cons_append, literalTitle?, if_neg hc, ih]
      rfl
    · next hplain =>
      obtain ⟨hquote, hback⟩ := not_or.mp hplain
      rw [List.cons_append, literalTitle?, if_neg hquote, if_neg hback, ih]
      · rfl
      · exact fun _ _ hc => absurd hc hback

omit hslash hfits in
private theorem run_literal {s : Splitter} {escaped : Bool} (h : s.nesting = .literal quote escaped)
    (c : Char) (t : Text) : s.run (c :: t) = (s.inLiteral quote escaped c).run t := by
  have hstep : s.step c = (s.inLiteral quote escaped c, []) := by
    unfold Splitter.step
    rw [h]
  rw [Splitter.run, hstep]
  rfl

omit hslash hfits in
private theorem inLiteral_plain (s : Splitter) {c : Char} (hc : endsLiteral quote c = false)
    (hback : c ≠ '\\') : s.inLiteral quote false c = { s.keep c with last? := some c } := by
  unfold Splitter.inLiteral
  rw [hc, beq_eq_false_iff_ne.mpr hback]
  rfl

/-- A literal is passed over as part of the statement that it stands in. -/
theorem run_escaped {s : Splitter} {o : OpenFragment}
    (hliteral : s.nesting = .literal quote false) (ho : s.open? = some o) :
    ∃ s' : Splitter, s.run (escaped quote title ++ quote :: rest) = s'.run rest
      ∧ s'.nesting = .code ∧ s'.depth = s.depth ∧ s'.atEnd = s.atEnd
      ∧ s'.open? = some ⟨o.start, quote :: ((escaped quote title).reverse ++ o.read)⟩ := by
  induction title generalizing s o with
  | nil =>
    have hclose : s.inLiteral quote false quote
        = { s.keep quote with nesting := .code, last? := some quote } := by
      unfold Splitter.inLiteral
      rw [endsLiteral_self, beq_eq_false_iff_ne.mpr hslash]
      rfl
    refine ⟨_, run_literal hliteral quote rest, ?_⟩
    rw [hclose]
    refine ⟨rfl, rfl, rfl, ?_⟩
    have hopen : (s.keep quote).open? = s.open?.map (·.push quote) := rfl
    rw [ho] at hopen
    exact hopen
  | cons c title ih =>
    obtain ⟨hc, htitle⟩ := List.forall_mem_cons.mp hfits
    unfold escaped
    split
    · let next := (s.inLiteral quote false '\\').inLiteral quote true c
      have hopen : next.open? = (s.open?.map (·.push '\\')).map (·.push c) := rfl
      rw [ho] at hopen
      obtain ⟨s', hrun, hcode, hdepth, hend, hread⟩ := ih htitle rfl hopen
      refine ⟨s', ?_, hcode, hdepth, hend, ?_⟩
      · rw [List.cons_append, List.cons_append, run_literal hliteral, run_literal rfl, hrun]
      · rw [hread]
        simp [OpenFragment.push]
    · next hplain =>
      obtain ⟨hquote, hback⟩ := not_or.mp hplain
      let next : Splitter := { s.keep c with last? := some c }
      have hopen : next.open? = s.open?.map (·.push c) := rfl
      rw [ho] at hopen
      obtain ⟨s', hrun, hcode, hdepth, hend, hread⟩ := ih htitle (s := next) hliteral hopen
      refine ⟨s', ?_, hcode, hdepth, hend, ?_⟩
      · rw [List.cons_append, run_literal hliteral, inLiteral_plain s (hc hquote) hback, hrun]
      · rw [hread]
        simp [OpenFragment.push]

end Literal

end DocContract
