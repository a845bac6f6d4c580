import DocContract.Cache.Key
import DocContract.Proofs.Json.Signature
import DocContract.Proofs.Text.Lines

/-!
# What a key text says

The parts of a key text can be told apart again as long as no path holds a NUL character: the paths
end at the first separator behind them, and what is written behind the last separator holds none. So
a key text determines the path, the text and the symbols of a source file, and the path, the text,
the stated kind and the paired file of a test file. It says nothing of languages. The options can be
told apart as well if they hold no NUL character either.
-/

namespace DocContract

open Text

/-- The text holds no NUL character. -/
def NulFree (t : Text) : Prop := Char.ofNat 0 ∉ t

instance (t : Text) : Decidable (NulFree t) := inferInstanceAs (Decidable (_ ∉ _))

private theorem nulFree_append {t u : Text} : NulFree (t ++ u) ↔ NulFree t ∧ NulFree u := by
  simp [NulFree]

/-! ### Options without NUL characters -/

namespace Settings

/-- The words of the lists and the flow pattern hold no NUL character. -/
structure IsNulFree (s : Settings) : Prop where
  extraTags : ∀ word ∈ s.extraTags, NulFree word
  dbSetupKeywords : ∀ word ∈ s.tests.dbSetupKeywords, NulFree word
  negativeCaseKeywords : ∀ word ∈ s.tests.negativeCaseKeywords, NulFree word
  flowFilePattern : NulFree s.tests.flowFilePattern

private theorem nulFree_join {words : List Text} (h : ∀ word ∈ words, NulFree word) :
    NulFree (Text.join "," words) := by
  induction words with
  | nil => exact List.not_mem_nil
  | cons word words ih =>
    obtain ⟨hword, hwords⟩ := List.forall_mem_cons.mp h
    by_cases hnil : words = []
    · rw [hnil]
      exact hword
    · rw [join_cons hnil, nulFree_append, nulFree_append]
      exact ⟨⟨hword, by decide⟩, ih hwords⟩

private theorem nulFree_flagText (b : Bool) : NulFree (flagText b) := by
  cases b <;> decide

private theorem nulFree_depthText (n? : Option Nat) : NulFree (depthText n?) := by
  cases n? with
  | none => decide
  | some n =>
    have hdigits : NulFree (ofNat n) := fun h => by cases isDigit_of_mem_ofNat h
    exact nulFree_append.mpr ⟨nulFree_append.mpr ⟨by decide, hdigits⟩, by decide⟩

/-- The other options hold none in any case. -/
theorem IsNulFree.fingerprint {s : Settings} (h : s.IsNulFree) : NulFree s.fingerprint := by
  have hmarkers : NulFree s.markerConvention.shortName := by
    cases s.markerConvention <;> decide
  unfold Settings.fingerprint
  simp only [nulFree_append, nulFree_flagText, nulFree_depthText, hmarkers,
    nulFree_join h.extraTags, nulFree_join h.dbSetupKeywords, nulFree_join h.negativeCaseKeywords,
    h.flowFilePattern, and_true]
  decide

end Settings

namespace CacheKey

/-! ### Parts -/

private theorem part_append (p r : Text) : part p ++ r = p ++ Char.ofNat 0 :: r := by
  simp [part, separator]

/-- A part without a separator ends at the first one. -/
theorem part_append_inj {p q r s : Text} (hp : NulFree p) (hq : NulFree q)
    (h : part p ++ r = part q ++ s) : p = q ∧ r = s := by
  rw [part_append, part_append] at h
  exact append_cons_inj_first hp hq h

/-- Whatever a part holds, it ends at the last separator if what follows holds none. -/
theorem part_append_inj_last {p q r s : Text} (hr : NulFree r) (hs : NulFree s)
    (h : part p ++ r = part q ++ s) : p = q ∧ r = s := by
  rw [part_append, part_append] at h
  exact append_cons_inj_last hr hs h

private theorem isPlain_symbols (symbols : List Symbol) :
    (Json.array (symbols.map Symbol.toJson)).isPlain = true := by
  rw [Json.isPlain, Json.arePlain_eq_true, List.forall_mem_map]
  exact fun s _ => s.isPlain_toJson

private theorem nulFree_symbolsText (symbols : List Symbol) : NulFree (symbolsText symbols) := by
  intro h
  have := Json.compact_printable _ (isPlain_symbols symbols) _ h
  revert this
  decide

private theorem symbolsText_inj {ss ts : List Symbol} (h : symbolsText ss = symbolsText ts) :
    ss = ts := by
  have harray := Json.compact_inj (isPlain_symbols ss) (isPlain_symbols ts) h
  exact (List.map_inj_right fun _ _ => Symbol.toJson_inj).mp (Json.array.inj harray)

private theorem nulFree_kindText : ∀ kind? : Option TestKind, NulFree (kindText kind?)
  | none => by decide
  | some .unit => by decide
  | some .integration => by decide

/-- A stated kind ends with its form. -/
theorem kindText_append_inj {k l : Option TestKind} {r s : Text}
    (h : kindText k ++ r = kindText l ++ s) : k = l ∧ r = s := by
  rcases k with _ | _ | _ <;> rcases l with _ | _ | _ <;> cases h <;> exact ⟨rfl, rfl⟩

/-- A stated kind is no list of symbols. -/
theorem kindText_ne_symbolsText (kind? : Option TestKind) (symbols : List Symbol) :
    kindText kind? ≠ symbolsText symbols := by
  intro h
  rcases kind? with _ | _ | _ <;> cases h

/-! ### Key texts -/

variable {fingerprint : Text}

/-- The key text of a source file determines what the file is read from. -/
theorem sourceText_inj {u v : SourceUnit} (hu : NulFree u.path) (hv : NulFree v.path)
    (h : sourceText fingerprint u = sourceText fingerprint v) :
    u.path = v.path ∧ u.text = v.text ∧ u.symbols = v.symbols := by
  simp only [sourceText, List.append_assoc, List.append_cancel_left_eq] at h
  obtain ⟨hpath, h⟩ := part_append_inj hu hv h
  obtain ⟨htext, hsymbols⟩ :=
    part_append_inj_last (nulFree_symbolsText _) (nulFree_symbolsText _) h
  exact ⟨hpath, htext, symbolsText_inj hsymbols⟩

private theorem nulFree_kindText_append {k : Option TestKind} {p : Text} (hp : NulFree p) :
    NulFree (kindText k ++ p) := nulFree_append.mpr ⟨nulFree_kindText k, hp⟩

/-- A paired file brings a separator of its own, with its symbols behind it. -/
theorem part_append_paired (t : Text) (k : Option TestKind) (s : SourceUnit) :
    part t ++ (kindText k ++ pairedText (some s))
      = part (part t ++ (kindText k ++ s.path)) ++ symbolsText s.symbols := by
  simp [part, pairedText]

/-- A test file with a paired file is not taken for one without. -/
theorem part_append_unpaired_ne (t t' : Text) (k k' : Option TestKind) (s : SourceUnit) :
    part t ++ (kindText k ++ pairedText none)
      ≠ part t' ++ (kindText k' ++ pairedText (some s)) := by
  intro h
  rw [part_append_paired, pairedText, List.append_nil] at h
  have hrest := (part_append_inj_last (nulFree_kindText k) (nulFree_symbolsText _) h).2
  exact kindText_ne_symbolsText k _ hrest

/-- The parts of a test file's key text behind its path determine the rest that is checked. -/
theorem pairing_inj {t t' : Text} {k k' : Option TestKind} {source? source?' : Option SourceUnit}
    (hs : ∀ s ∈ source?, NulFree s.path) (hs' : ∀ s ∈ source?', NulFree s.path)
    (h : part t ++ (kindText k ++ pairedText source?) =
      part t' ++ (kindText k' ++ pairedText source?')) :
    t = t' ∧ k = k' ∧ source?.map (fun s => (s.path, s.symbols))
      = source?'.map fun s => (s.path, s.symbols) := by
  cases source? with
  | none =>
    cases source?' with
    | none =>
      have hnil : NulFree (pairedText none) := List.not_mem_nil
      obtain ⟨ht, hrest⟩ := part_append_inj_last (nulFree_kindText_append hnil)
        (nulFree_kindText_append hnil) h
      exact ⟨ht, (kindText_append_inj hrest).1, rfl⟩
    | some s' => exact absurd h (part_append_unpaired_ne t t' k k' s')
  | some s =>
    cases source?' with
    | none => exact absurd h.symm (part_append_unpaired_ne t' t k' k s)
    | some s' =>
      rw [part_append_paired, part_append_paired] at h
      obtain ⟨hfront, hsymbols⟩ :=
        part_append_inj_last (nulFree_symbolsText _) (nulFree_symbolsText _) h
      obtain ⟨ht, hrest⟩ := part_append_inj_last (nulFree_kindText_append (hs s rfl))
        (nulFree_kindText_append (hs' s' rfl)) hfront
      obtain ⟨hk, hpath⟩ := kindText_append_inj hrest
      exact ⟨ht, hk, congrArg some (Prod.ext hpath (symbolsText_inj hsymbols))⟩

/-- The key text of a test file determines what the file is checked against. -/
theorem testText_inj {u v : TestUnit} {source? source?' : Option SourceUnit}
    (hu : NulFree u.path) (hv : NulFree v.path) (hs : ∀ s ∈ source?, NulFree s.path)
    (hs' : ∀ s ∈ source?', NulFree s.path)
    (h : testText fingerprint u source? = testText fingerprint v source?') :
    u.path = v.path ∧ u.text = v.text ∧ u.kind? = v.kind?
      ∧ source?.map (fun s => (s.path, s.symbols))
        = source?'.map fun s => (s.path, s.symbols) := by
  simp only [testText, List.append_assoc, List.append_cancel_left_eq] at h
  obtain ⟨hpath, h⟩ := part_append_inj hu hv h
  exact ⟨hpath, pairing_inj hs hs' h⟩

/-- Source files and test files have different key texts, also under different options. -/
theorem sourceText_ne_testText {other : Text} (u : SourceUnit) (v : TestUnit)
    (source? : Option SourceUnit) : sourceText fingerprint u ≠ testText other v source? := by
  intro h
  simp only [sourceText, testText, List.append_assoc] at h
  cases (part_append_inj (by decide) (by decide) h).1

/-- Options without NUL characters can be told apart, too. -/
theorem fingerprint_eq_of_sourceText {s s' : Settings} {u v : SourceUnit} (hs : s.IsNulFree)
    (hs' : s'.IsNulFree) (h : sourceText s.fingerprint u = sourceText s'.fingerprint v) :
    s.fingerprint = s'.fingerprint := by
  simp only [sourceText, List.append_assoc, List.append_cancel_left_eq] at h
  exact (part_append_inj hs.fingerprint hs'.fingerprint h).1

end CacheKey

end DocContract
