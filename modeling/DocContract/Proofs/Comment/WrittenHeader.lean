import DocContract.Comment.Canonical
import DocContract.Proofs.Comment.Expressible
import DocContract.Proofs.Comment.Name
import DocContract.Proofs.Lists

/-!
# Headers read from their written form

The written header of each kind of tag, and of a nested field in each convention, is read as the
header that it was written from. An error tag is the exception: its kind has to be there, and a lone
dash at the start of its description is taken for the dash that may stand in front of it.
-/

namespace DocContract

open Text

namespace Text

/-- Tidy texts are tidy when joined. -/
theorem IsTidy.append {t u : Text} (ht : IsTidy t) (hu : IsTidy u) : IsTidy (t ++ u) := by
  refine .of_ends ?_ (endsSolid_append_of ht.endsSolid hu.endsSolid) ?_
  · by_cases hn : t = []
    · subst hn
      exact hu.startsSolid
    · exact startsSolid_append_of hn ht.startsSolid
  · rw [List.mem_append]
    rintro (h | h)
    · exact ht.oneLine h
    · exact hu.oneLine h

/-- A solid character is tidy. -/
theorem isTidy_singleton {c : Char} (h : isBlank c = false) : IsTidy [c] :=
  Header.isTidy_of_solid (by simpa using h)

/-- A tidy text stays tidy behind a solid character. -/
theorem IsTidy.cons {c : Char} {t : Text} (hc : isBlank c = false) (ht : IsTidy t) :
    IsTidy (c :: t) :=
  (isTidy_singleton hc).append ht

/-- A tidy text that is not empty is trimmed as it stands. -/
theorem trimmed?_tidy {t : Text} (hne : t ≠ []) (ht : IsTidy t) : trimmed? t = some t := by
  rw [trimmed?, ht.trimmed]
  cases t with
  | nil => exact absurd rfl hne
  | cons c r => rfl

/-- A head with a tidy description is tidy. -/
theorem withText_tidy {head d : Text} (hne : head ≠ []) (hh : IsTidy head) (hd : IsTidy d) :
    IsTidy (withText head d) := by
  unfold withText
  split
  · exact hh
  · next h => exact hh.join_space hd hne (by simpa using h)

/-- The space between a head and its text leaves the text as it is. -/
theorem trimStart_space (t : Text) : trimStart (' ' :: t) = trimStart t :=
  trimStart_cons_blank (by decide)

end Text

/-! ### Descriptions behind a dash -/

/-- A dash and the description behind it. -/
def dashed (d : Text) : Text := withText ['-'] d

/-- A dash is written between a head and its description, with nothing behind it when that is empty.
-/
theorem withDash_eq (head d : Text) : withDash head d = head ++ ' ' :: dashed d := by
  have hs : (" -" : String).toList = [' ', '-'] := rfl
  unfold withDash dashed withText
  rw [hs]
  split <;> simp

private theorem dashed_cons (d : Text) : ∃ r, dashed d = '-' :: r := by
  unfold dashed withText
  split
  · exact ⟨[], rfl⟩
  · exact ⟨' ' :: d, rfl⟩

/-- A description with its dash is not empty. -/
theorem dashed_ne_nil (d : Text) : dashed d ≠ [] := by
  obtain ⟨r, hr⟩ := dashed_cons d
  simp [hr]

/-- A tidy description is tidy with its dash. -/
theorem dashed_tidy {d : Text} (hd : IsTidy d) : IsTidy (dashed d) :=
  withText_tidy (by simp) (isTidy_singleton (by decide)) hd

/-- A head with a tidy description behind a dash is tidy. -/
theorem join_dashed_tidy {head d : Text} (hhead : IsTidy head) (hne : head ≠ []) (hd : IsTidy d) :
    IsTidy (head ++ ' ' :: dashed d) :=
  hhead.join_space (dashed_tidy hd) hne (dashed_ne_nil d)

namespace Header

/-- A tidy description is read back from behind a dash and a blank. -/
theorem afterDash?_space {d : Text} (hd : IsTidy d) : afterDash? (' ' :: d) = some d := by
  have ht : trimStart d = d := trimStart_solid hd.startsSolid
  rw [afterDash?_blank (by decide) (by rw [ht]; exact hd.oneLine), ht]

/-- The description is read from behind its dash. -/
theorem afterDash?_dashed {d : Text} (hd : IsTidy d) :
    ∃ r, dashed d = '-' :: r ∧ afterDash? r = some d := by
  unfold dashed withText
  split
  · next h =>
    rw [List.isEmpty_iff.mp h]
    exact ⟨[], rfl, rfl⟩
  · exact ⟨' ' :: d, rfl, afterDash?_space hd⟩

/-- A tidy description is read back from behind its separator. -/
theorem separator?_dashed {d : Text} (hd : IsTidy d) : separator? (' ' :: dashed d) = some d := by
  obtain ⟨r, hr, ha⟩ := afterDash?_dashed hd
  rw [hr]
  have hblank : ∀ c ∈ [' '], isBlank c = true := List.forall_mem_singleton.mpr rfl
  exact (separator?_dash (List.cons_ne_nil ' ' []) hblank).trans ha

/-- A tidy description behind a separator closes a header. -/
theorem closes_dashed {bare : Bool} {d : Text} (hd : IsTidy d) :
    Closes bare (' ' :: dashed d) d :=
  .inl (separator?_dashed hd)

/-! ### Types -/

/-- A type with the end of its header is read after any blanks. -/
theorem typed?_written {bare : Bool} {blanks type tail d : Text} (ht : IsType type)
    (h : Closes bare tail d) : typed? bare blanks (type ++ tail) = some (some type, d) := by
  obtain ⟨c, r, rfl⟩ := List.exists_cons_of_ne_nil ht.nonempty
  have hn : '\n' ∉ r := fun hm => ht.tidy.oneLine (List.mem_cons_of_mem _ hm)
  have he : EndsSolid r := ht.tidy.endsSolid.of_suffix (List.suffix_cons c r)
  have hu : ¬ HoldsSeparator r := fun hs => ht.unseparated (holdsSeparator_cons hs)
  simp [typed?, splitSeparator?_append hn he hu h]

/-- The end of a header does not look like the colon of a type. -/
theorem Closes.trimStart_ne_colon {bare : Bool} {tail d r : Text} (h : Closes bare tail d) :
    trimStart tail ≠ ':' :: r := by
  rcases h with h | ⟨-, rfl, -⟩
  · obtain ⟨bs, after, rfl, -, hbs, -⟩ := separator?_eq_some h
    rw [trimStart_blanks_append hbs, trimStart_cons_solid (by decide)]
    simp
  · simp

/-- What closes a header without a type is read as its description. -/
theorem untyped?_closes {bare : Bool} {tail d : Text} (h : Closes bare tail d) :
    untyped? bare tail = some d := by
  rcases h with h | ⟨rfl, rfl, rfl⟩
  · have hne : tail.isEmpty = false := by
      cases tail with
      | nil => cases h
      | cons c r => rfl
    simp [untyped?, hne, h]
  · rfl

/-- A name without a type is read with the description that closes it. -/
theorem afterName?_untyped {bare : Bool} {tail d : Text} (h : Closes bare tail d) :
    afterName? bare tail = some (none, d) := by
  unfold afterName?
  split
  · next r hr => exact absurd hr h.trimStart_ne_colon
  · rw [untyped?_closes h]
    rfl

/-- The type between a colon and the end of the header, with any blanks around the colon. -/
theorem afterName?_typed {bare : Bool} {before blanks type tail d : Text}
    (hbefore : ∀ c ∈ before, isBlank c = true) (hblanks : ∀ c ∈ blanks, isBlank c = true)
    (ht : IsType type) (h : Closes bare tail d) :
    afterName? bare (before ++ ':' :: (blanks ++ (type ++ tail))) = some (some type, d) := by
  have hs : trimStart (before ++ ':' :: (blanks ++ (type ++ tail)))
      = ':' :: (blanks ++ (type ++ tail)) := by
    rw [trimStart_blanks_append hbefore, trimStart_cons_solid (by decide)]
  have hstart : StartsSolid (type ++ tail) :=
    startsSolid_append_of ht.nonempty ht.tidy.startsSolid
  simp only [afterName?, hs]
  rw [leadingBlanks_blanks_append hblanks hstart, trimStart_blanks_append hblanks,
    trimStart_solid hstart]
  exact typed?_written ht h

/-! ### Names -/

/-- The mark of an optional name is read back. -/
theorem flag_written {optional : Bool} {tail : Text} (h : ∀ c ∈ tail.head?, c ≠ '?') :
    flag ((if optional then ['?'] else []) ++ tail) = (optional, tail) := by
  cases optional with
  | true => rfl
  | false =>
    unfold flag
    split
    · next r hr =>
      exfalso
      apply h '?' _ rfl
      rw [if_neg (by simp), List.nil_append] at hr
      rw [hr]
      rfl
    · rfl

/-- Neither a flag nor what stops a name goes on with the name. -/
theorem head?_flag {optional : Bool} {tail : Text} (h : ∀ c ∈ tail.head?, isNameChar c = false) :
    ∀ c ∈ ((if optional then ['?'] else []) ++ tail).head?, isNameChar c = false := by
  cases optional with
  | true =>
    intro c hc
    cases hc
    decide
  | false => exact h

/-- A name, its flag and what follows them. -/
theorem ofNamed?_written {bare optional : Bool} {name tail d : Text} {type? : Option Text}
    (hname : isName name = true) (hstop : ∀ c ∈ tail.head?, isNameChar c = false ∧ c ≠ '?')
    (h : afterName? bare tail = some (type?, d)) :
    ofNamed? bare (name ++ ((if optional then ['?'] else []) ++ tail))
      = some ⟨some name, type?, optional, d⟩ := by
  have hnext : ∀ c ∈ ((if optional then ['?'] else []) ++ tail).head?, isNameChar c = false :=
    head?_flag fun c hc => (hstop c hc).1
  have htake := takeWhile_run (fun c hc => isNameChar_of_mem hname hc) hnext
  have hdrop := dropWhile_run (fun c hc => isNameChar_of_mem hname hc) hnext
  have hflag : flag ((if optional then ['?'] else []) ++ tail) = (optional, tail) :=
    flag_written fun c hc => (hstop c hc).2
  simp [ofNamed?, htake, hdrop, hflag, hname, h]

/-- A blank or a colon stops a name. -/
theorem stops_of_blank {c : Char} (h : isBlank c = true) : isNameChar c = false ∧ c ≠ '?' := by
  constructor
  · cases hn : isNameChar c with
    | false => rfl
    | true => rw [isBlank_of_isNameChar hn] at h; cases h
  · rintro rfl
    exact absurd h (by decide)

end Header

/-! ### The header of a tag -/

/-- The description without a lone dash in front of it. -/
def undashed (d : Text) : Text :=
  match d with
  | '-' :: r => (Header.afterDash? r).getD d
  | _ => d

/-- A tidy description keeps its dash unless it leads with one. -/
theorem undashed_eq_self {d : Text} (hd : IsTidy d) : undashed d = d ↔ ¬ LeadsWithDash d := by
  unfold undashed
  split
  · next r =>
    constructor
    · rintro hu ⟨r', hr, hblank⟩
      obtain rfl : r = r' := (List.cons.inj hr).2
      have hn : '\n' ∉ r := fun hm => hd.oneLine (List.mem_cons_of_mem _ hm)
      obtain ⟨d', hd'⟩ := Option.isSome_iff_exists.mp (Header.afterDash?_isSome hn hblank)
      have hlen := (Header.afterDash?_eq_some hd').1.length_le
      rw [hd', Option.getD_some] at hu
      rw [hu, List.length_cons] at hlen
      omega
    · intro hlead
      have hnone : Header.afterDash? r = none := by
        cases ha : Header.afterDash? r with
        | none => rfl
        | some d' => exact absurd ⟨r, rfl, (Header.afterDash?_eq_some ha).2.2.2⟩ hlead
      rw [hnone, Option.getD_none]
  · next hne =>
    refine ⟨fun _ => ?_, fun _ => rfl⟩
    rintro ⟨r, rfl, -⟩
    exact hne r rfl

namespace Tag

/-- What the header line of a tag holds behind the sigil. -/
def sigilRest (t : Tag) : Text :=
  match t.kind with
  | .brief => []
  | .param | .property => t.flaggedName ++ (t.typeClause ++ ' ' :: dashed t.description)
  | .return =>
    match t.name?, t.type? with
    | some _, _ => t.flaggedName ++ (t.typeClause ++ ' ' :: dashed t.description)
    | none, some type => ':' :: ' ' :: (type ++ ' ' :: dashed t.description)
    | none, none => dashed t.description
  | .throws => withText ('{' :: (t.nameText ++ ['}'])) t.description
  | .template =>
    match t.type? with
    | some bound =>
      t.nameText ++ ' ' :: ("extends".toList ++ ' ' :: (bound ++ ' ' :: dashed t.description))
    | none => t.nameText ++ ' ' :: dashed t.description
  | .usage => t.description

/-- A description that is not empty is written behind a blank. -/
theorem withText_cons {head : Text} {c : Char} {r : Text} :
    withText head (c :: r) = head ++ ' ' :: c :: r := rfl

private theorem withText_of_ne_nil {head rest : Text} (h : rest ≠ []) :
    withText head rest = head ++ ' ' :: rest := by
  cases rest with
  | nil => exact absurd rfl h
  | cons c r => rfl

private theorem withText_append (before head d : Text) :
    withText (before ++ head) d = before ++ withText head d := by
  unfold withText
  split <;> simp

/-- The head line of a tag is its sigil with the rest behind it. -/
theorem headLine_eq {t : Tag} (h : t.kind ≠ .brief) :
    t.headLine = withText t.kind.sigil t.sigilRest := by
  have hparam : ("@param " : String).toList = TagKind.param.sigil ++ [' '] := rfl
  have hproperty : ("@property " : String).toList = TagKind.property.sigil ++ [' '] := rfl
  have hreturn : ("@return " : String).toList = TagKind.return.sigil ++ [' '] := rfl
  have hcolon : ("@return : " : String).toList = TagKind.return.sigil ++ [' ', ':', ' '] := rfl
  have hthrows : ("@throws " : String).toList = TagKind.throws.sigil ++ [' '] := rfl
  have htemplate : ("@template " : String).toList = TagKind.template.sigil ++ [' '] := rfl
  have hextends : (" extends " : String).toList = ' ' :: ("extends".toList ++ [' ']) := rfl
  cases hk : t.kind with
  | brief => exact absurd hk h
  | param =>
    simp only [headLine, sigilRest, hk, withDash_eq, hparam]
    rw [withText_of_ne_nil (by simp)]
    simp
  | property =>
    simp only [headLine, sigilRest, hk, withDash_eq, hproperty]
    rw [withText_of_ne_nil (by simp)]
    simp
  | «return» =>
    cases hn : t.name? with
    | some name =>
      simp only [headLine, sigilRest, hk, hn, withDash_eq, hreturn]
      rw [withText_of_ne_nil (by simp)]
      simp
    | none =>
      cases ht : t.type? with
      | some type =>
        simp only [headLine, sigilRest, hk, hn, ht, withDash_eq, hcolon]
        rw [withText_of_ne_nil (by simp)]
        simp
      | none =>
        obtain ⟨r, hr⟩ := dashed_cons t.description
        simp only [headLine, sigilRest, hk, hn, ht, withDash_eq, hr]
        rfl
  | throws =>
    have hne : withText ('{' :: (t.nameText ++ ['}'])) t.description ≠ [] := by
      unfold withText
      split <;> simp
    simp only [headLine, sigilRest, hk, hthrows]
    rw [withText_append, withText_of_ne_nil hne]
    simp
  | template =>
    cases ht : t.type? with
    | some bound =>
      simp only [headLine, sigilRest, hk, ht, withDash_eq, htemplate, hextends]
      rw [withText_of_ne_nil (by simp)]
      simp
    | none =>
      simp only [headLine, sigilRest, hk, ht, withDash_eq, htemplate]
      rw [withText_of_ne_nil (by simp)]
      simp
  | usage =>
    simp only [headLine, sigilRest, hk]
    rfl

/-- The clause of a type with the end of the header, behind the name. -/
theorem afterName?_typeClause {bare : Bool} {t : Tag} {tail d : Text}
    (ht : ∀ type ∈ t.type?, Header.IsType type) (h : Header.Closes bare tail d) :
    Header.afterName? bare (t.typeClause ++ tail) = some (t.type?, d) := by
  unfold typeClause
  split
  · next hnone =>
    rw [hnone]
    exact Header.afterName?_untyped h
  · next type hsome =>
    rw [hsome]
    have hs : (": " : String).toList = [':', ' '] := rfl
    have hblank : ∀ c ∈ [' '], isBlank c = true := List.forall_mem_singleton.mpr rfl
    have hread := Header.afterName?_typed (List.forall_mem_nil _) hblank (ht type hsome) h
    simpa [hs] using hread

private theorem typeClause_stops {t : Tag} {tail : Text}
    (h : ∀ c ∈ tail.head?, isBlank c = true) :
    ∀ c ∈ (t.typeClause ++ tail).head?, Header.isNameChar c = false ∧ c ≠ '?' := by
  intro c hc
  unfold typeClause at hc
  split at hc
  · exact Header.stops_of_blank (h c hc)
  · cases hc
    decide

/-- A name, a flag and a type, with the end of the header. -/
theorem ofNamed?_parts {bare : Bool} {t : Tag} {name tail d : Text} (hn : t.name? = some name)
    (hname : Header.isName name = true) (ht : ∀ type ∈ t.type?, Header.IsType type)
    (h : Header.Closes bare tail d) :
    Header.ofNamed? bare (t.flaggedName ++ (t.typeClause ++ tail))
      = some ⟨t.name?, t.type?, t.optional, d⟩ := by
  rw [flaggedName, nameText, hn, Option.getD_some, List.append_assoc]
  exact Header.ofNamed?_written hname (typeClause_stops h.startsBlank) (afterName?_typeClause ht h)

/-- A name with its marks is tidy. -/
theorem flaggedName_tidy {t : Tag} {name : Text} (hn : t.name? = some name)
    (hname : Header.isName name = true) : IsTidy t.flaggedName := by
  rw [flaggedName, nameText, hn]
  apply (Header.isTidy_name hname).append
  split
  · exact isTidy_singleton (by decide)
  · exact isTidy_nil

end Tag

end DocContract
