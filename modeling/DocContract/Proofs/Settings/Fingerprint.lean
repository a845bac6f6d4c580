import DocContract.Proofs.Json.Literal
import DocContract.Proofs.Text.Lines
import DocContract.Settings

/-!
# What a fingerprint says

The parts of a fingerprint are separated by semicolons, and the words of a list by commas. No
switch, convention or limit holds a semicolon, so a fingerprint determines these options. The lists
it determines only when their words are not empty and hold no separator themselves.
-/

namespace DocContract

open Text

namespace Settings

/-- The lists and the pattern in the fingerprint. -/
def listsText (s : Settings) : Text :=
  ("extra=" ++ Text.join [','] s.extraTags) ++ ';' ::
    (("db=" ++ Text.join [','] s.tests.dbSetupKeywords) ++ ';' ::
      (("neg=" ++ Text.join [','] s.tests.negativeCaseKeywords) ++ ';' ::
        ("flow=" ++ s.tests.flowFilePattern)))

private theorem fingerprint_eq (s : Settings) : s.fingerprint
    = ("strict=" ++ flagText s.strictMode) ++ ';' ::
      (("internal=" ++ flagText s.requireInternalDocs) ++ ';' ::
        (("markers=" ++ s.markerConvention.shortName) ++ ';' ::
          (("gap=" ++ flagText s.coverageGapIsError) ++ ';' ::
            (("depth=" ++ depthText s.maxTagDepth?) ++ ';' :: s.listsText)))) := by
  have hassoc : ∀ a b c d e f g h i j k l m n o p q r : Text,
      a ++ b ++ ';' :: c ++ d ++ ';' :: e ++ f ++ ';' :: g ++ h ++ ';' :: i ++ j ++ ';' :: k ++ l
        ++ ';' :: m ++ n ++ ';' :: o ++ p ++ ';' :: q ++ r
      = (a ++ b) ++ ';' :: ((c ++ d) ++ ';' :: ((e ++ f) ++ ';' :: ((g ++ h) ++ ';' ::
        ((i ++ j) ++ ';' :: ((k ++ l) ++ ';' :: ((m ++ n) ++ ';' :: ((o ++ p) ++ ';' ::
          (q ++ r)))))))) := by
    simp only [List.append_assoc, List.cons_append, implies_true]
  exact hassoc "strict=" _ "internal=" _ "markers=" _ "gap=" _ "depth=" _ "extra=" _ "db=" _
    "neg=" _ "flow=" _

/-! ### Options without separators -/

private theorem flagText_inj {b c : Bool} (h : flagText b = flagText c) : b = c := by
  cases b <;> cases c <;> simp_all [flagText]

private theorem Convention.shortName_inj {c d : Convention} (h : c.shortName = d.shortName) :
    c = d := by
  cases c with
  | dashPlus =>
    cases d with
    | dashPlus => rfl
    | braceTyped => cases h
  | braceTyped =>
    cases d with
    | dashPlus => cases h
    | braceTyped => rfl

private theorem depthText_inj {m? n? : Option Nat} (h : depthText m? = depthText n?) : m? = n? := by
  cases m? with
  | none =>
    cases n? with
    | none => rfl
    | some n => cases h
  | some m =>
    cases n? with
    | none => cases h
    | some n =>
      have hdigits : ofNat m = ofNat n := List.append_cancel_left (List.append_cancel_right h)
      rw [ofNat_inj hdigits]

private theorem not_mem_flag {name : Text} (h : ';' ∉ name) (b : Bool) :
    ';' ∉ name ++ flagText b := by
  have hflag : ';' ∉ flagText b := by cases b <;> decide
  exact fun hm => (List.mem_append.mp hm).elim h hflag

private theorem not_mem_convention (c : Convention) : ';' ∉ "markers=" ++ c.shortName := by
  cases c <;> decide

private theorem not_mem_depth (n? : Option Nat) : ';' ∉ "depth=" ++ depthText n? := by
  cases n? with
  | none => decide
  | some n =>
    have hdigits : ';' ∉ ofNat n := by
      intro h
      cases isDigit_of_mem_ofNat h
    have hlimit : ';' ∉ "Some(" ++ ofNat n :=
      fun hm => (List.mem_append.mp hm).elim (by decide) hdigits
    have hclosed : ';' ∉ depthText (some n) :=
      fun hm => (List.mem_append.mp hm).elim hlimit (by decide)
    exact fun hm => (List.mem_append.mp hm).elim (by decide) hclosed

/-- The options in a fingerprint that hold no separators, and what follows them. -/
structure SameSwitches (s s' : Settings) : Prop where
  strictMode : s.strictMode = s'.strictMode
  requireInternalDocs : s.requireInternalDocs = s'.requireInternalDocs
  markerConvention : s.markerConvention = s'.markerConvention
  coverageGapIsError : s.coverageGapIsError = s'.coverageGapIsError
  maxTagDepth : s.maxTagDepth? = s'.maxTagDepth?
  lists : s.listsText = s'.listsText

/-- A fingerprint determines all options but the lists and the pattern. -/
theorem sameSwitches_of_fingerprint {s s' : Settings} (h : s.fingerprint = s'.fingerprint) :
    s.SameSwitches s' := by
  rw [fingerprint_eq, fingerprint_eq] at h
  obtain ⟨hstrict, h⟩ := append_cons_inj_first (not_mem_flag (by decide) _)
    (not_mem_flag (by decide) _) h
  obtain ⟨hinternal, h⟩ := append_cons_inj_first (not_mem_flag (by decide) _)
    (not_mem_flag (by decide) _) h
  obtain ⟨hmarkers, h⟩ := append_cons_inj_first (not_mem_convention _) (not_mem_convention _) h
  obtain ⟨hgap, h⟩ := append_cons_inj_first (not_mem_flag (by decide) _)
    (not_mem_flag (by decide) _) h
  obtain ⟨hdepth, h⟩ := append_cons_inj_first (not_mem_depth _) (not_mem_depth _) h
  exact ⟨flagText_inj (List.append_cancel_left hstrict),
    flagText_inj (List.append_cancel_left hinternal),
    Convention.shortName_inj (List.append_cancel_left hmarkers),
    flagText_inj (List.append_cancel_left hgap), depthText_inj (List.append_cancel_left hdepth), h⟩

/-! ### Lists of plain words -/

/-- The word is not empty and holds no separator of a fingerprint. -/
structure IsPlainWord (word : Text) : Prop where
  ne_nil : word ≠ []
  comma : ',' ∉ word
  semicolon : ';' ∉ word

/-- The lists of the settings hold plain words only. -/
structure IsPlain (s : Settings) : Prop where
  extraTags : ∀ word ∈ s.extraTags, IsPlainWord word
  dbSetupKeywords : ∀ word ∈ s.tests.dbSetupKeywords, IsPlainWord word
  negativeCaseKeywords : ∀ word ∈ s.tests.negativeCaseKeywords, IsPlainWord word

private theorem join_eq_nil {words : List Text} (h : ∀ word ∈ words, IsPlainWord word)
    (hjoin : Text.join [','] words = []) : words = [] := by
  cases words with
  | nil => rfl
  | cons word words =>
    have hne := (h word List.mem_cons_self).ne_nil
    cases words with
    | nil => exact absurd hjoin hne
    | cons other words => simp [Text.join, hne] at hjoin

/-- Plain words are determined by the text that they are joined to. -/
theorem join_inj {words others : List Text} (h : ∀ word ∈ words, IsPlainWord word)
    (ho : ∀ word ∈ others, IsPlainWord word)
    (hjoin : Text.join [','] words = Text.join [','] others) : words = others := by
  by_cases hnil : words = []
  · rw [hnil] at hjoin ⊢
    exact (join_eq_nil ho hjoin.symm).symm
  · have honil : others ≠ [] := by
      rintro rfl
      exact hnil (join_eq_nil h hjoin)
    have hsplit := congrArg (splitOn ',') hjoin
    rwa [splitOn_join hnil fun word hw => (h word hw).comma,
      splitOn_join honil fun word hw => (ho word hw).comma] at hsplit

private theorem not_mem_join {words : List Text} (h : ∀ word ∈ words, IsPlainWord word) :
    ';' ∉ Text.join [','] words := by
  induction words with
  | nil => exact List.not_mem_nil
  | cons word words ih =>
    obtain ⟨hword, hwords⟩ := List.forall_mem_cons.mp h
    cases words with
    | nil => exact hword.semicolon
    | cons other words =>
      rw [join_cons (List.cons_ne_nil other words)]
      have hrest := ih hwords
      simp [hword.semicolon, hrest]

private theorem not_mem_list {name : Text} (hname : ';' ∉ name) {words : List Text}
    (h : ∀ word ∈ words, IsPlainWord word) : ';' ∉ name ++ Text.join [','] words := by
  exact fun hm => (List.mem_append.mp hm).elim hname (not_mem_join h)

private theorem tests_eq {l l' : LayoutSettings} (hdb : l.dbSetupKeywords = l'.dbSetupKeywords)
    (hneg : l.negativeCaseKeywords = l'.negativeCaseKeywords)
    (hflow : l.flowFilePattern = l'.flowFilePattern) : l = l' := by
  cases l
  cases l'
  rw [LayoutSettings.mk.injEq]
  exact ⟨hdb, hneg, hflow⟩

/-- Plain settings with one fingerprint have the same lists and the same pattern. -/
theorem IsPlain.lists_eq {s s' : Settings} (hs : s.IsPlain) (hs' : s'.IsPlain)
    (h : s.listsText = s'.listsText) : s.extraTags = s'.extraTags ∧ s.tests = s'.tests := by
  unfold listsText at h
  obtain ⟨hextra, h⟩ := append_cons_inj_first (not_mem_list (by decide) hs.extraTags)
    (not_mem_list (by decide) hs'.extraTags) h
  obtain ⟨hdb, h⟩ := append_cons_inj_first (not_mem_list (by decide) hs.dbSetupKeywords)
    (not_mem_list (by decide) hs'.dbSetupKeywords) h
  obtain ⟨hneg, hflow⟩ := append_cons_inj_first (not_mem_list (by decide) hs.negativeCaseKeywords)
    (not_mem_list (by decide) hs'.negativeCaseKeywords) h
  refine ⟨join_inj hs.extraTags hs'.extraTags (List.append_cancel_left hextra), ?_⟩
  have hdb' := join_inj hs.dbSetupKeywords hs'.dbSetupKeywords (List.append_cancel_left hdb)
  have hneg' := join_inj hs.negativeCaseKeywords hs'.negativeCaseKeywords
    (List.append_cancel_left hneg)
  exact tests_eq hdb' hneg' (List.append_cancel_left hflow)

end Settings

end DocContract
