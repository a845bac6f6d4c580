import DocContract.Proofs.Text.Lines
import DocContract.Schema.Validate

/-!
# What the language of a file matters for

The language is asked for in one place only, the fence tags of usage snippets, and what is found
there names the language. So files that differ in nothing else have the same findings exactly when
neither has a finding about a fence tag, or their languages are the same.
-/

namespace DocContract

open Text

/-- The files have the same path, the same text and the same symbols. -/
structure SourceUnit.Alike (u v : SourceUnit) : Prop where
  path : u.path = v.path
  text : u.text = v.text
  symbols : u.symbols = v.symbols

/-! ### Messages -/

private theorem Language.displayName_inj {l m : Language} (h : l.displayName = m.displayName) :
    l = m := by
  cases l <;> cases m <;> first | rfl | exact absurd h (by decide)

private theorem Language.fenceTags_inj {l m : Language}
    (h : join ", " l.fenceTags = join ", " m.fenceTags) : l = m := by
  cases l <;> cases m <;> first | rfl | exact absurd h (by decide)

private theorem Language.space_not_mem_displayName (l : Language) : ' ' ∉ l.displayName := by
  cases l <;> decide

/-- Only the messages about fence tags name the language. -/
theorem SchemaFinding.message_eq {f : SchemaFinding} (hf : f.code ≠ .languageTagMismatch)
    (name : Text) (l m : Language) : f.message name l = f.message name m := by
  cases f with
  | snippetUntagged => exact absurd rfl hf
  | snippetForeign _ => exact absurd rfl hf
  | _ => rfl

/-- A finding about a fence tag has a message of one of two forms. -/
theorem SchemaFinding.eq_snippet {f : SchemaFinding} (hf : f.code = .languageTagMismatch) :
    f = .snippetUntagged ∨ ∃ tag, f = .snippetForeign tag := by
  cases f with
  | snippetUntagged => exact .inl rfl
  | snippetForeign tag => exact .inr ⟨tag, rfl⟩
  | pathMissing family _ => cases family <;> cases hf
  | pathUnknown family _ => cases family <;> cases hf
  | _ => cases hf

private theorem SchemaFinding.message_snippetForeign (tag name : Text) (l : Language) :
    ∃ r, (snippetForeign tag).message name l = ("usage snippet is tagged " : Text) ++ r := by
  have hassoc : ∀ t a b c d e f : Text,
      t ++ a ++ b ++ c ++ d ++ e ++ f = t ++ (a ++ (b ++ (c ++ (d ++ (e ++ f))))) := by
    simp
  exact ⟨_, hassoc _ _ _ _ _ _ _⟩

/-- A message about a foreign fence tag ends with the name of the language. -/
theorem SchemaFinding.displayName_of_message {tag tag' name name' : Text} {l m : Language}
    (h : (snippetForeign tag).message name l = (snippetForeign tag').message name' m) :
    l.displayName = m.displayName := by
  have hcut : ∀ p r : Text, p ++ (" is " : Text) ++ r = (p ++ (" is" : Text)) ++ ' ' :: r := by
    intro p r
    have hword : (" is " : Text) = (" is" : Text) ++ [' '] := by decide
    rw [hword, List.append_assoc, List.append_assoc, List.append_assoc, List.singleton_append]
  have hends := List.append_cancel_right h
  rw [hcut, hcut] at hends
  exact (append_cons_inj_last l.space_not_mem_displayName m.space_not_mem_displayName hends).2

/-- A message about a fence tag is a message of one language only. -/
theorem SchemaFinding.language_eq_of_message {f g : SchemaFinding}
    (hf : f.code = .languageTagMismatch) (hg : g.code = .languageTagMismatch)
    {name other : Text} {l m : Language} (h : f.message name l = g.message other m) : l = m := by
  have hforms : ∀ (tags tag : Text) (name : Text) (l : Language),
      ("usage snippet has no language tag, expected one of " : Text) ++ tags
        ≠ (snippetForeign tag).message name l := by
    intro tags tag name l h
    obtain ⟨r, hr⟩ := message_snippetForeign tag name l
    have hstart := congrArg (List.take 16) (h.trans hr)
    rw [List.take_append_of_le_length (by decide), List.take_append_of_le_length (by decide)]
      at hstart
    exact absurd hstart (by decide)
  rcases SchemaFinding.eq_snippet hf with rfl | ⟨tag, rfl⟩ <;>
    rcases SchemaFinding.eq_snippet hg with rfl | ⟨tag', rfl⟩
  · exact Language.fenceTags_inj (List.append_cancel_left h)
  · exact absurd h (hforms _ _ _ _)
  · exact absurd h.symm (hforms _ _ _ _)
  · exact Language.displayName_inj (displayName_of_message h)

/-! ### Findings -/

/-- All that is found about usage tags is about fence tags. -/
theorem SchemaCheck.code_of_mem_usageFindings {c : SchemaCheck} {f : Located SchemaFinding}
    (hf : f ∈ c.usageFindings) : f.value.code = .languageTagMismatch := by
  obtain ⟨t, -, hf⟩ := List.mem_flatMap.mp hf
  unfold usageTagFindings at hf
  split at hf
  · cases hf
  · split at hf
    · cases hf
    · split at hf <;>
      · rw [List.mem_singleton.mp hf]
        rfl

/-- The check of a symbol finds the same for two languages if neither finds fault with a fence
tag. -/
theorem SchemaCheck.run_eq {l m : Language} {s : Symbol} {b : CommentBlock} {file : Path}
    (hl : ∀ d ∈ run ⟨l, s, b⟩ file, d.code ≠ .languageTagMismatch)
    (hm : ∀ d ∈ run ⟨m, s, b⟩ file, d.code ≠ .languageTagMismatch) :
    run ⟨l, s, b⟩ file = run ⟨m, s, b⟩ file := by
  have husage : ∀ {k : Language}, (∀ d ∈ run ⟨k, s, b⟩ file, d.code ≠ .languageTagMismatch) →
      usageFindings ⟨k, s, b⟩ = [] := by
    intro k hk
    rw [List.eq_nil_iff_forall_not_mem]
    intro f hf
    exact hk _ (List.mem_map_of_mem (List.mem_append_right _ hf)) (code_of_mem_usageFindings hf)
  have hfindings : findings ⟨l, s, b⟩ = findings ⟨m, s, b⟩ := by
    unfold findings
    rw [husage hl, husage hm]
    rfl
  unfold run
  rw [hfindings]
  apply List.map_congr_left
  intro f hf
  have hcode : f.value.code ≠ .languageTagMismatch := by
    rw [← hfindings] at hf
    exact hl _ (List.mem_map_of_mem hf)
  unfold toDiagnostic
  rw [SchemaFinding.message_eq hcode s.name l m]

/-- A finding about a fence tag is a finding of the schema. -/
theorem exists_message_of_mem_checkParsed {l : Language} {file : Path} {s : Symbol}
    {parsed : ParsedComment} {d : Diagnostic} (hd : d ∈ checkParsed l file s parsed)
    (hc : d.code = .languageTagMismatch) :
    ∃ f : SchemaFinding, f.code = .languageTagMismatch ∧ d.message = f.message s.name l := by
  rw [checkParsed, List.mem_append, List.mem_append] at hd
  rcases hd with (hd | hd) | hd
  · obtain ⟨e, -, rfl⟩ := List.mem_map.mp hd
    change e.value.code = _ at hc
    cases he : e.value <;> rw [he] at hc <;> cases hc
  · obtain ⟨w, -, rfl⟩ := List.mem_map.mp hd
    change w.value.code = _ at hc
    cases hw : w.value <;> rw [hw] at hc <;> cases hc
  · obtain ⟨f, -, rfl⟩ := List.mem_map.mp hd
    exact ⟨f.value, hc, rfl⟩

/-- What is found about a missing block depends on the settings in its severity only. -/
theorem eq_of_mem_missingDoc {settings : Settings} {file : Path} {s : Symbol} {d : Diagnostic}
    (hd : d ∈ missingDoc settings file s) : ∃ severity,
      d = ((Diagnostic.ofCode .missingDoc file s.declarationLine 1 (missingDocMessage s)).about
        s.id).withSeverity severity := by
  unfold missingDoc at hd
  dsimp only at hd
  split at hd
  · exact ⟨_, List.mem_singleton.mp hd⟩
  · split at hd
    · exact ⟨_, List.mem_singleton.mp hd⟩
    · cases hd

private theorem exists_message_of_mem_validateSymbol {settings : Settings} {u : SourceUnit}
    {s : Symbol}
    {a : Association} {d : Diagnostic} (hd : d ∈ validateSymbol settings u s a)
    (hc : d.code = .languageTagMismatch) :
    ∃ f : SchemaFinding, f.code = .languageTagMismatch
      ∧ d.message = f.message s.name u.language := by
  cases a with
  | missing =>
    obtain ⟨_, rfl⟩ := eq_of_mem_missingDoc hd
    cases hc
  | malformed unclosed =>
    rw [List.mem_singleton.mp hd] at hc
    cases hc
  | found block => exact exists_message_of_mem_checkParsed hd hc

namespace SourceUnit.Alike

variable {settings : Settings} {u v : SourceUnit} (h : u.Alike v)

include h

private theorem extract : u.extract = v.extract := by
  obtain ⟨path, text, l, symbols, changed⟩ := u
  obtain ⟨path', text', l', symbols', changed'⟩ := v
  obtain ⟨rfl, rfl, rfl⟩ := h
  rfl

private theorem validateSymbol_eq {s : Symbol} {a : Association}
    (hu : ∀ d ∈ validateSymbol settings u s a, d.code ≠ .languageTagMismatch)
    (hv : ∀ d ∈ validateSymbol settings v s a, d.code ≠ .languageTagMismatch) :
    validateSymbol settings u s a = validateSymbol settings v s a := by
  cases a with
  | missing => simp only [validateSymbol, h.path]
  | malformed unclosed => simp only [validateSymbol, h.path]
  | found block =>
    simp only [validateSymbol, checkParsed, h.path, List.mem_append] at hu hv ⊢
    rw [SchemaCheck.run_eq (fun d hd => hu d (.inr hd)) (fun d hd => hv d (.inr hd))]

/-- Files that a key does not tell apart are read alike; what the check finds in one of them is
either the same as in the other, or holds a finding about a fence tag. -/
theorem validateUnit_eq_or (settings : Settings) :
    validateUnit settings u = validateUnit settings v
      ∨ ∃ ds es, validateUnit settings u = .ok ds ∧ validateUnit settings v = .ok es
        ∧ ∃ d, (d ∈ ds ∨ d ∈ es) ∧ d.code = .languageTagMismatch := by
  have hextract := h.extract
  unfold validateUnit
  rw [← hextract]
  cases u.extract with
  | error cause => exact .inl rfl
  | ok e =>
    simp only [Except.map, h.path]
    by_cases hnone : ∀ p ∈ e.symbols,
        (∀ d ∈ validateSymbol settings u p.1 p.2, d.code ≠ .languageTagMismatch)
        ∧ ∀ d ∈ validateSymbol settings v p.1 p.2, d.code ≠ .languageTagMismatch
    · left
      congr 2
      unfold List.flatMap
      congr 1
      apply List.map_congr_left
      intro p hp
      exact h.validateSymbol_eq (hnone p hp).1 (hnone p hp).2
    · right
      refine ⟨_, _, rfl, rfl, ?_⟩
      simp only [not_forall, not_and_or, not_not] at hnone
      obtain ⟨p, hp, ⟨d, hd, hc⟩ | ⟨d, hd, hc⟩⟩ := hnone
      · exact ⟨d, .inl (List.mem_append_right _ (List.mem_flatMap.mpr ⟨p, hp, hd⟩)), hc⟩
      · exact ⟨d, .inr (List.mem_append_right _ (List.mem_flatMap.mpr ⟨p, hp, hd⟩)), hc⟩

end SourceUnit.Alike

/-- What is found about a file is about a comment that goes with no symbol or about a symbol. -/
theorem of_mem_validateUnit {settings : Settings} {u : SourceUnit} {ds : List Diagnostic}
    (hu : validateUnit settings u = .ok ds) {d : Diagnostic} (hd : d ∈ ds) :
    (∃ b : Unclosed, d = b.toDiagnostic u.path)
      ∨ ∃ s association, d ∈ validateSymbol settings u s association := by
  unfold validateUnit at hu
  cases he : u.extract with
  | error cause =>
    rw [he] at hu
    cases hu
  | ok e =>
    rw [he] at hu
    cases hu
    rcases List.mem_append.mp hd with hd | hd
    · obtain ⟨b, -, rfl⟩ := List.mem_map.mp hd
      exact .inl ⟨b, rfl⟩
    · obtain ⟨p, -, hd⟩ := List.mem_flatMap.mp hd
      exact .inr ⟨p.1, p.2, hd⟩

/-- A finding about a fence tag of a file names the language of the file. -/
theorem exists_message_of_mem_validateUnit {settings : Settings} {u : SourceUnit}
    {ds : List Diagnostic} (hu : validateUnit settings u = .ok ds) {d : Diagnostic} (hd : d ∈ ds)
    (hc : d.code = .languageTagMismatch) :
    ∃ (f : SchemaFinding) (name : Text), f.code = .languageTagMismatch
      ∧ d.message = f.message name u.language := by
  rcases of_mem_validateUnit hu hd with ⟨b, rfl⟩ | ⟨s, a, hd⟩
  · cases hc
  · obtain ⟨f, hf, hm⟩ := exists_message_of_mem_validateSymbol hd hc
    exact ⟨f, s.name, hf, hm⟩

end DocContract
