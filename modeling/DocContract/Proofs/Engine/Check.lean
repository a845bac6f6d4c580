import DocContract.Engine
import DocContract.Proofs.Cache.Key
import DocContract.Proofs.Report.Listed
import DocContract.Proofs.Schema.Languages

/-!
# What checking a file depends on

Test files are checked the same when their key texts are equal, and so when the same bytes are
hashed for them. Source files with equal key texts can still differ in their languages; then the
reports tell them apart whenever the findings do.
-/

namespace DocContract

/-! ### Test files -/

/-- A test file is checked by its path, its text, its stated kind and what its paired file
declares. -/
theorem TestLayout.validate_eq (layout : TestLayout) {u v : TestUnit}
    {source? source?' : Option SourceUnit} (hpath : u.path = v.path) (htext : u.text = v.text)
    (hkind : u.kind? = v.kind?) (hsource : source?.map (fun s => (s.path, s.symbols))
      = source?'.map fun s => (s.path, s.symbols)) :
    layout.validate u source? = layout.validate v source?' := by
  obtain ⟨path, text, l, kind?, paired?⟩ := u
  obtain ⟨path', text', l', kind?', paired?'⟩ := v
  cases hpath
  cases htext
  cases hkind
  rcases source? with _ | ⟨path, text, l, symbols, changed?⟩ <;>
    rcases source?' with _ | ⟨path', text', l', symbols', changed?'⟩ <;>
    cases hsource <;> rfl

namespace SourceUnit.Alike

variable {settings : Settings} {u v : SourceUnit} (h : u.Alike v)

include h

/-- Files that are alike and in the same language are checked the same. -/
theorem validateUnit_eq (hl : u.language = v.language) :
    validateUnit settings u = validateUnit settings v := by
  obtain ⟨path, text, l, symbols, changed?⟩ := u
  obtain ⟨path', text', l', symbols', changed?'⟩ := v
  obtain ⟨rfl, rfl, rfl⟩ := h
  cases hl
  rfl

/-- Files that are alike both fail, for the same reason, or are both checked. -/
theorem validateUnit_eq_of_error {cause : Failure} (hu : validateUnit settings u = .error cause) :
    validateUnit settings v = .error cause := by
  rcases h.validateUnit_eq_or settings with heq | ⟨ds, es, hds, -, -⟩
  · rw [← heq, hu]
  · rw [hu] at hds
    cases hds

/-- When the reports about files that are alike list the same, the findings are the same. -/
theorem validateUnit_eq_of_report {ds es : List Diagnostic}
    (hu : validateUnit settings u = .ok ds) (hv : validateUnit settings v = .ok es)
    {strict complete : Bool} {n : Nat}
    (hr : (Report.assemble strict complete n ds).diagnostics
      = (Report.assemble strict complete n es).diagnostics) :
    validateUnit settings u = validateUnit settings v := by
  rcases h.validateUnit_eq_or settings with heq | ⟨ds', es', hds, hes, d, hd, hc⟩
  · exact heq
  · rw [hu] at hds
    rw [hv] at hes
    cases hds
    cases hes
    -- A finding about a fence tag is listed in both reports and names the language in each.
    apply h.validateUnit_eq
    rcases hd with hd | hd
    · obtain ⟨e, he, hcode, hmessage⟩ := Report.exists_of_diagnostics_eq hr hd
      obtain ⟨f, name, hf, hfm⟩ := exists_message_of_mem_validateUnit hu hd hc
      obtain ⟨g, other, hg, hgm⟩ := exists_message_of_mem_validateUnit hv he (hcode.trans hc)
      rw [hfm, hgm] at hmessage
      exact (SchemaFinding.language_eq_of_message hg hf hmessage).symm
    · obtain ⟨e, he, hcode, hmessage⟩ := Report.exists_of_diagnostics_eq hr.symm hd
      obtain ⟨f, name, hf, hfm⟩ := exists_message_of_mem_validateUnit hv hd hc
      obtain ⟨g, other, hg, hgm⟩ := exists_message_of_mem_validateUnit hu he (hcode.trans hc)
      rw [hfm, hgm] at hmessage
      exact SchemaFinding.language_eq_of_message hg hf hmessage

end SourceUnit.Alike

end DocContract
