import DocContract.Comment.Parse
import DocContract.Proofs.Comment.Accepted
import DocContract.Proofs.Text.Column

/-!
# Where the parts of a comment stand

Tags and defects carry the place of the sign that introduces them, a sigil or a marker, and the
brief that of its first word. The reader never computes a place: it keeps the places of the lines
that it goes over, so whatever is true of the lines is true of all that is read from them. `holds`
says of a line, a column and a text whether the text stands there.
-/

namespace DocContract

open Text

variable {holds : Nat → Nat → Text → Prop}

/-! ### Places -/

/-- A marker stands at the place. -/
def MarkerAt (holds : Nat → Nat → Text → Prop) (line column : Nat) : Prop :=
  ∃ m : Marker, holds line column [m.symbol]

/-- The parts of the line stand where its column says. -/
def InteriorLine.Shows (holds : Nat → Nat → Text → Prop) (l : InteriorLine) : Prop :=
  ∀ column part, StandsAt l.text column part → holds l.line (l.column + column - 1) part

/-- The field and the fields below it stand at markers. -/
inductive Tag.MarkedField (holds : Nat → Nat → Text → Prop) : Tag → Prop
  | intro {t : Tag} (marker : MarkerAt holds t.line t.column)
      (fields : ∀ child ∈ t.children, Tag.MarkedField holds child) : Tag.MarkedField holds t

/-- The tag stands at a sigil and its fields at markers. -/
structure Tag.MarkedTag (holds : Nat → Nat → Text → Prop) (t : Tag) : Prop where
  notBrief : t.kind ≠ .brief
  sigil : holds t.line t.column ['@']
  fields : ∀ child ∈ t.children, child.MarkedField holds

/-- An error about a nested line stands at a marker, any other one at a sigil. -/
def ErrorMarked (holds : Nat → Nat → Text → Prop) (e : Located ParseError) : Prop :=
  match e.value with
  | .badField _ => MarkerAt holds e.line e.column
  | _ => holds e.line e.column ['@']

/-- Tags stand at sigils, fields at markers, and defects at what they are about. -/
structure Output.Marked (holds : Nat → Nat → Text → Prop) (o : Output) : Prop where
  tags : ∀ t ∈ o.tags, t.MarkedTag holds
  errors : ∀ e ∈ o.errors, ErrorMarked holds e
  warnings : ∀ w ∈ o.warnings, MarkerAt holds w.line w.column

/-! ### Lines -/

private theorem Marker.eq_symbol {c : Char} {marker : Marker} (h : Marker.ofChar? c = some marker) :
    c = marker.symbol := by
  unfold Marker.ofChar? at h
  split at h
  · next hc =>
    cases h
    exact hc
  · split at h
    · next hc =>
      cases h
      exact hc
    · cases h

namespace InteriorLine

variable {l : InteriorLine} (h : l.Shows holds)

include h

/-- What is left of a line without its blanks stands at the column of its content. -/
theorem Shows.content {part : Text} (hp : part <+: trimStart l.text) :
    holds l.line l.contentColumn part := by
  have := h _ part ((StandsAt.self l.text).trimStart.of_isPrefixOf hp)
  rwa [show l.column + (1 + Text.indent l.text) - 1 = l.contentColumn by
    rw [contentColumn]; omega] at this

private theorem Shows.sigil {sigil : SigilLine} (hs : l.sigil? = some sigil) :
    holds l.line l.contentColumn ['@'] := by
  apply h.content
  obtain ⟨c, r, ht, -⟩ := SigilLine.parse?_eq_some_iff.mp hs
  rw [ht]
  exact ⟨c :: r, rfl⟩

private theorem Shows.marker {field : FieldLine} (hf : FieldLine.parse? l.text = some field) :
    MarkerAt holds l.line (l.column + field.indent) := by
  obtain ⟨c, r, marker, ht, hm, -, rfl⟩ := FieldLine.parse?_eq_some_iff.mp hf
  refine ⟨marker, h.content ?_⟩
  rw [ht, Marker.eq_symbol hm]
  exact ⟨r, rfl⟩

end InteriorLine

/-! ### Tags that grow -/

namespace Tag

private theorem MarkedField.extend {t : Tag} (h : t.MarkedField holds) (text : Text) :
    (t.extend text).MarkedField holds := by
  obtain ⟨d, hd, -⟩ := t.extend_eq text
  rw [hd]
  cases h with
  | intro marker fields => exact .intro marker fields

private theorem MarkedTag.extend {t : Tag} (h : t.MarkedTag holds) (text : Text) :
    (t.extend text).MarkedTag holds := by
  obtain ⟨d, hd, -⟩ := t.extend_eq text
  rw [hd]
  exact ⟨h.notBrief, h.sigil, h.fields⟩

private theorem MarkedField.graft {t : Tag} (h : t.MarkedField holds) {ts : List Tag}
    (hts : ∀ child ∈ ts, child.MarkedField holds) :
    MarkedField holds { t with children := t.children ++ ts } := by
  cases h with
  | intro marker fields => exact .intro marker (List.forall_mem_append.mpr ⟨fields, hts⟩)

private theorem MarkedTag.graft {t : Tag} (h : t.MarkedTag holds) {ts : List Tag}
    (hts : ∀ child ∈ ts, child.MarkedField holds) :
    MarkedTag holds { t with children := t.children ++ ts } :=
  ⟨h.notBrief, h.sigil, List.forall_mem_append.mpr ⟨h.fields, hts⟩⟩

end Tag

/-! ### Branches -/

namespace Branch

/-- The tag stands at a sigil and the open fields at markers. -/
structure Marked (holds : Nat → Nat → Text → Prop) (b : Branch) : Prop where
  root : b.root.MarkedTag holds
  path : ∀ f ∈ b.path, f.field.MarkedField holds

private theorem Marked.graft {b : Branch} (h : b.Marked holds) {ts : List Tag}
    (hts : ∀ child ∈ ts, child.MarkedField holds) : (b.graft ts).Marked holds := by
  obtain ⟨root, path⟩ := b
  cases path with
  | nil => exact ⟨h.root.graft hts, List.forall_mem_nil _⟩
  | cons f path =>
    obtain ⟨hf, hpath⟩ := List.forall_mem_cons.mp h.path
    exact ⟨h.root, List.forall_mem_cons.mpr ⟨hf.graft hts, hpath⟩⟩

private theorem Marked.closed {root : Tag} {f : OpenField} {path : List OpenField}
    (h : Marked holds ⟨root, f :: path⟩) : (Branch.graft ⟨root, path⟩ [f.field]).Marked holds := by
  obtain ⟨hf, hpath⟩ := List.forall_mem_cons.mp h.path
  have hrest : Marked holds ⟨root, path⟩ := ⟨h.root, hpath⟩
  exact hrest.graft (List.forall_mem_singleton.mpr hf)

private theorem Marked.upTo (n : Nat) {b : Branch} (h : b.Marked holds) : (b.upTo n).Marked holds :=
  upTo_invariant Marked.closed n h

private theorem Marked.toTag {b : Branch} (h : b.Marked holds) : b.toTag.MarkedTag holds :=
  (toTag_invariant (motive := Marked holds) Marked.closed h).root

private theorem Marked.extend {b : Branch} (h : b.Marked holds) (text : Text) :
    (b.extend text).Marked holds := by
  obtain ⟨root, path⟩ := b
  cases path with
  | nil => exact ⟨h.root.extend text, h.path⟩
  | cons f path =>
    obtain ⟨hf, hpath⟩ := List.forall_mem_cons.mp h.path
    exact ⟨h.root, List.forall_mem_cons.mpr ⟨hf.extend text, hpath⟩⟩

/-- A new field stands where its line does. -/
theorem Marked.push {b : Branch} (h : b.Marked holds) (n : Nat) (header : Header)
    {line column : Nat} (hm : MarkerAt holds line column) :
    (b.push n ((Tag.ofKind .property line column).withHeader header)).Marked holds := by
  have hb := h.upTo n
  refine ⟨hb.root, List.forall_mem_cons.mpr ⟨.intro hm (List.forall_mem_nil _), hb.path⟩⟩

end Branch

/-! ### Groups -/

namespace Output

private theorem marked_empty : Output.Marked holds {} :=
  ⟨List.forall_mem_nil _, List.forall_mem_nil _, List.forall_mem_nil _⟩

private theorem Marked.append {a b : Output} (ha : a.Marked holds) (hb : b.Marked holds) :
    (a ++ b).Marked holds :=
  ⟨List.forall_mem_append.mpr ⟨ha.tags, hb.tags⟩, List.forall_mem_append.mpr ⟨ha.errors, hb.errors⟩,
    List.forall_mem_append.mpr ⟨ha.warnings, hb.warnings⟩⟩

private theorem marked_ofError {line column : Nat} {e : ParseError}
    (h : ErrorMarked holds ⟨line, column, e⟩) : (ofError line column e).Marked holds :=
  ⟨List.forall_mem_nil _, List.forall_mem_singleton.mpr h, List.forall_mem_nil _⟩

end Output

namespace Group

/-- The tag of the group stands at a sigil and its fields at markers. -/
def Marked (holds : Nat → Nat → Text → Prop) : Group → Prop
  | .skip => True
  | .entry branch _ => branch.Marked holds
  | .awaitFence tag => tag.MarkedTag holds
  | .fence tag _ _ => tag.MarkedTag holds

variable {s : Settings}

private theorem Marked.finish {g : Group} (h : g.Marked holds) : g.finish.Marked holds := by
  cases g with
  | skip => exact Output.marked_empty
  | entry branch swallow =>
    exact ⟨List.forall_mem_singleton.mpr (Branch.Marked.toTag h), List.forall_mem_nil _,
      List.forall_mem_nil _⟩
  | awaitFence tag => exact Output.marked_ofError (Tag.MarkedTag.sigil h)
  | fence tag language body => exact Output.marked_ofError (Tag.MarkedTag.sigil h)

/-- A group that opens at a sigil. -/
theorem marked_opened (sigil : SigilLine) {line column : Nat} (h : holds line column ['@']) :
    (opened s sigil line column).1.Marked holds ∧ (opened s sigil line column).2.Marked holds := by
  generalize hnext : opened s sigil line column = next
  cases Opens.of_eq hnext with
  | marker => exact ⟨trivial, ⟨List.forall_mem_nil _, List.forall_mem_nil _, List.forall_mem_nil _⟩⟩
  | extra => exact ⟨trivial, Output.marked_empty⟩
  | unknown => exact ⟨trivial, Output.marked_ofError h⟩
  | usage known =>
    have husage : (Tag.ofKind .usage line column).MarkedTag holds :=
      ⟨nofun, h, List.forall_mem_nil _⟩
    exact ⟨husage.extend sigil.rest, Output.marked_empty⟩
  | entry known read =>
    exact ⟨⟨⟨TagKind.ne_brief_of_header? read, h, List.forall_mem_nil _⟩, List.forall_mem_nil _⟩,
      Output.marked_empty⟩
  | badHeader => exact ⟨trivial, Output.marked_ofError h⟩

section Line

variable {l : InteriorLine} (hl : l.Shows holds)

include hl

/-- A line that opens no group. -/
theorem marked_continued {g : Group} (h : g.Marked holds) :
    (continued s l g).1.Marked holds ∧ (continued s l g).2.Marked holds := by
  generalize hnext : continued s l g = next
  cases Continues.of_eq hnext with
  | skip => exact ⟨trivial, Output.marked_empty⟩
  | blank => exact ⟨h, Output.marked_empty⟩
  | @field _ _ _ field header _ adds _ grows =>
    have hm := hl.marker (fieldOf?_eq_some_iff.mp adds).2
    subst grows
    refine ⟨Branch.Marked.push h field.indent header hm, List.forall_mem_nil _,
      List.forall_mem_nil _, ?_⟩
    exact List.forall_mem_map.mpr fun _ _ => hm
  | badField _ adds =>
    exact ⟨h, Output.marked_ofError (hl.marker (fieldOf?_eq_some_iff.mp adds).2)⟩
  | dropped => exact ⟨h, Output.marked_empty⟩
  | text => exact ⟨Branch.Marked.extend h l.text, Output.marked_empty⟩
  | waits => exact ⟨Tag.MarkedTag.extend h l.text, Output.marked_empty⟩
  | fence => exact ⟨h, Output.marked_empty⟩
  | code => exact ⟨h, Output.marked_empty⟩
  | closed =>
    have ht : Tag.MarkedTag holds _ := h
    exact ⟨⟨⟨ht.notBrief, ht.sigil, ht.fields⟩, List.forall_mem_nil _⟩, Output.marked_empty⟩

/-- One line keeps what is read at its sign, and gives out what stands there. -/
theorem marked_step {g : Group} (h : g.Marked holds) :
    (step s g l).1.Marked holds ∧ (step s g l).2.Marked holds := by
  rw [step]
  cases ho : g.opening? l with
  | none => exact marked_continued hl h
  | some sigil =>
    obtain ⟨hnext, hout⟩ := marked_opened (s := s) sigil (hl.sigil (opening?_eq_some ho))
    exact ⟨hnext, h.finish.append hout⟩

end Line

private theorem marked_run {g : Group} (h : g.Marked holds) {ls : List InteriorLine}
    (hls : ∀ l ∈ ls, l.Shows holds) : (run s g ls).Marked holds := by
  induction ls generalizing g with
  | nil => exact h.finish
  | cons l ls ih =>
    obtain ⟨hl, hrest⟩ := List.forall_mem_cons.mp hls
    obtain ⟨hnext, hout⟩ := marked_step (s := s) hl h
    exact hout.append (ih hnext hrest)

end Group

/-! ### Paragraphs -/

/-- The first word of the paragraph stands at its place. -/
structure Paragraph.Shown (holds : Nat → Nat → Text → Prop) (p : Paragraph) : Prop where
  word : firstWord p.text ≠ []
  place : holds p.line p.column (firstWord p.text)

/-- A paragraph begins with its first line. -/
theorem shown_paragraph {l : InteriorLine} (hl : l.Shows holds) (hb : l.isBlank = false)
    {text : Text} (ht : firstWord text = firstWord (trim l.text)) :
    Paragraph.Shown holds ⟨l.line, l.contentColumn, text⟩ := by
  have hne : trim l.text ≠ [] := by
    rw [ne_eq, trim_eq_nil, Bool.not_eq_true]
    exact hb
  refine ⟨?_, ?_⟩
  · change firstWord text ≠ []
    rw [ht]
    exact firstWord_ne_nil hne (startsSolid_trim _)
  · change holds l.line l.contentColumn (firstWord text)
    rw [ht]
    exact hl.content ((firstWord_isPrefixOf _).trans (trimEnd_isPrefixOf _))

/-- Paragraphs show what their lines show. -/
theorem shown_paragraphs {ls : List InteriorLine} (hls : ∀ l ∈ ls, l.Shows holds) :
    ∀ p ∈ paragraphs ls, p.Shown holds := by
  induction ls with
  | nil => exact List.forall_mem_nil _
  | cons l ls ih =>
    obtain ⟨hl, hrest⟩ := List.forall_mem_cons.mp hls
    have hps := ih hrest
    rw [paragraphs_cons]
    split
    · exact hps
    · next hb =>
      have hb : l.isBlank = false := by simpa using hb
      have halone := shown_paragraph hl hb rfl
      split
      · next p ps heq =>
        rw [heq] at hps
        obtain ⟨hp, hps⟩ := List.forall_mem_cons.mp hps
        split
        · exact List.forall_mem_cons.mpr ⟨halone, List.forall_mem_cons.mpr ⟨hp, hps⟩⟩
        · have hjoined := shown_paragraph hl hb
            (firstWord_append_blank (trim l.text) (by decide : isBlank ' ' = true) p.text)
          exact List.forall_mem_cons.mpr ⟨hjoined, hps⟩
      · exact List.forall_mem_cons.mpr ⟨halone, hps⟩

/-! ### Whole comments -/

/-- The brief stands at its first word, tags at sigils, fields at markers, and defects at what they
are about. -/
structure ParsedComment.Marked (holds : Nat → Nat → Text → Prop) (p : ParsedComment) : Prop where
  brief : ∀ t ∈ p.block.tags, t.kind = .brief →
    firstWord t.description ≠ [] ∧ holds t.line t.column (firstWord t.description)
  tags : ∀ t ∈ p.block.tags, t.kind ≠ .brief → t.MarkedTag holds
  errors : ∀ e ∈ p.errors, ErrorMarked holds e
  warnings : ∀ w ∈ p.warnings, MarkerAt holds w.line w.column

/-- Whatever is read from lines stands where they show it. -/
theorem marked_parseLines (s : Settings) {ls : List InteriorLine} (hls : ∀ l ∈ ls, l.Shows holds) :
    (parseLines s ls).Marked holds := by
  have hparagraphs := shown_paragraphs fun l hl =>
    hls l (List.takeWhile_subset (fun l : InteriorLine => l.sigil?.isNone) hl)
  have hskip : Group.Marked holds .skip := trivial
  have hrun := Group.marked_run (s := s) hskip fun l hl =>
    hls l (List.dropWhile_subset (fun l : InteriorLine => l.sigil?.isNone) hl)
  have htags : ∀ t ∈ (parseLines s ls).block.tags,
      (t.kind = .brief ∧ firstWord t.description ≠ []
        ∧ holds t.line t.column (firstWord t.description)) ∨ t.MarkedTag holds := by
    refine List.forall_mem_append.mpr ⟨fun t ht => .inl ?_, fun t ht => .inr (hrun.tags t ht)⟩
    obtain ⟨p, hp, rfl⟩ := List.mem_map.mp ht
    have hshown := hparagraphs p (List.mem_of_mem_head? (Option.mem_toList.mp hp))
    exact ⟨rfl, hshown.word, hshown.place⟩
  refine ⟨fun t ht hk => ?_, fun t ht hk => ?_, hrun.errors, hrun.warnings⟩
  · rcases htags t ht with h | h
    · exact h.2
    · exact absurd hk h.notBrief
  · rcases htags t ht with h | h
    · exact absurd h.1 hk
    · exact h

end DocContract
