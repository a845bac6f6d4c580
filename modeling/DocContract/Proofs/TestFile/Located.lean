import DocContract.Proofs.Text.Column
import DocContract.Proofs.TestFile.CaseCalls
import DocContract.Proofs.TestFile.Coverage
import DocContract.Proofs.TestFile.Masked
import DocContract.Proofs.TestFile.Setup

/-!
# Places of statements and cases

The outline is read off masked text, and its places are those of the file. Masking only blanks
characters, each to as many bytes as it had, so a word of masked text with no blank in it stands at
the same offset, line and column of the file.
-/

namespace DocContract

open Text

/-! ### Blanked characters -/

/-- The second text is the first with some characters blanked. -/
inductive BlanksTo : Text → Text → Prop
  | nil : BlanksTo [] []
  | keep (c : Char) {t u : Text} (h : BlanksTo t u) : BlanksTo (c :: t) (c :: u)
  | blank (c : Char) {t u : Text} (h : BlanksTo t u) : BlanksTo (c :: t) (Lexeme.blanked c ++ u)

namespace BlanksTo

variable {t u t' u' : Text}

private theorem append (h : BlanksTo t u) (h' : BlanksTo t' u') : BlanksTo (t ++ t') (u ++ u') := by
  induction h with
  | nil => exact h'
  | keep c _ ih => exact .keep c ih
  | blank c _ ih =>
    rw [List.append_assoc]
    exact .blank c ih

private theorem self (t : Text) : BlanksTo t t := by
  induction t with
  | nil => exact .nil
  | cons c t ih => exact .keep c ih

private theorem all (t : Text) : BlanksTo t (t.flatMap Lexeme.blanked) := by
  induction t with
  | nil => exact .nil
  | cons c t ih => exact .blank c ih

/-- A piece is blanked where it is a comment. -/
theorem piece (p : Piece) : BlanksTo p.text p.masked := by
  unfold Piece.masked
  split
  · exact all p.text
  · exact self p.text

private theorem pieces (ps : List Piece) :
    BlanksTo (Piece.joined ps) (ps.flatMap Piece.masked) := by
  induction ps with
  | nil => exact .nil
  | cons p ps ih => exact (piece p).append ih

/-- A text is blanked where it has comments. -/
theorem maskComments (t : Text) : BlanksTo t (maskComments t) := by
  have h := pieces (DocContract.pieces t)
  rwa [joined_pieces, ← maskComments_eq_flatMap] at h

/-- Blanking keeps the width. -/
theorem width_eq (h : BlanksTo t u) : width u = width t := by
  induction h with
  | nil => rfl
  | keep c _ ih => rw [width, width, ih]
  | blank c _ ih =>
    rw [width_append, ih, width]
    unfold Lexeme.blanked
    split
    · next hc =>
      subst hc
      rfl
    · rw [width_replicate_space]

private theorem behind_replicate_space (p : Position) (n : Nat) :
    p.behind (List.replicate n ' ') = ⟨p.line, p.column + n⟩ := by
  induction n generalizing p with
  | zero => rfl
  | succ n ih =>
    have hrest : p.behind (List.replicate (n + 1) ' ')
        = Position.behind ⟨p.line, p.column + 1⟩ (List.replicate n ' ') := rfl
    rw [hrest, ih, Nat.add_assoc, Nat.add_comm 1]

private theorem behind_blanked (p : Position) (c : Char) :
    p.behind (Lexeme.blanked c) = p.advance c := by
  unfold Lexeme.blanked Position.advance
  split
  · rfl
  · exact behind_replicate_space p c.utf8Size

/-- Blanking keeps the place behind a text. -/
theorem behind_eq (h : BlanksTo t u) (p : Position) : p.behind u = p.behind t := by
  induction h generalizing p with
  | nil => rfl
  | keep c _ ih => exact ih (p.advance c)
  | blank c _ ih =>
    rw [Position.behind_append, behind_blanked, ih]
    rfl

/-! ### Words without blanks -/

/-- What is in front of a character that is no blank, and what is behind it, have been blanked on
their own. -/
theorem cut {c : Char} {p r : Text} (hc : isBlank c = false) (h : BlanksTo t (p ++ c :: r)) :
    ∃ front rest, t = front ++ c :: rest ∧ BlanksTo front p ∧ BlanksTo rest r := by
  generalize hu : p ++ c :: r = u at h
  induction h generalizing p with
  | nil => exact absurd hu (by simp)
  | @keep d t u h ih =>
    cases p with
    | nil =>
      cases hu
      exact ⟨[], t, rfl, .nil, h⟩
    | cons e p =>
      obtain ⟨rfl, hp⟩ := List.cons.inj hu
      obtain ⟨front, rest, rfl, hfront, hrest⟩ := ih hp
      exact ⟨e :: front, rest, rfl, .keep e hfront, hrest⟩
  | @blank d t u h ih =>
    have hmem : c ∉ Lexeme.blanked d := by
      intro hmem
      rcases Lexeme.eq_of_mem_blanked hmem with rfl | rfl
      · exact absurd hc (by decide)
      · exact absurd hc (by decide)
    -- The character is none of the blanks, so it stands behind them.
    have hbehind : ∃ b, p = Lexeme.blanked d ++ b ∧ u = b ++ c :: r := by
      rcases List.append_eq_append_iff.mp hu with ⟨b, hb, hcons⟩ | hbehind
      · cases b with
        | nil => exact ⟨[], by rw [hb, List.append_nil, List.append_nil], hcons.symm⟩
        | cons e b =>
          obtain ⟨rfl, -⟩ := List.cons.inj hcons
          exact absurd (hb ▸ List.mem_append_right p List.mem_cons_self) hmem
      · exact hbehind
    obtain ⟨b, rfl, hb⟩ := hbehind
    obtain ⟨front, rest, rfl, hfront, hrest⟩ := ih hb.symm
    exact ⟨d :: front, rest, rfl, .blank d hfront, hrest⟩

private theorem eq_nil_of_nil (h : BlanksTo t []) : t = [] := by
  generalize hu : ([] : Text) = u at h
  cases h with
  | nil => rfl
  | keep c h => cases hu
  | @blank d t u h =>
    have hwidth : width (Lexeme.blanked d ++ u) = 0 := by rw [← hu]; rfl
    rw [(BlanksTo.blank d h).width_eq] at hwidth
    cases eq_nil_of_width_eq_zero hwidth

/-- The rest of a word stands right behind its first character. -/
theorem word {w r : Text} (hw : ∀ c ∈ w, isBlank c = false) (h : BlanksTo t (w ++ r))
    (hne : w ≠ []) : ∃ rest, t = w ++ rest := by
  induction w generalizing t with
  | nil => exact absurd rfl hne
  | cons c w ih =>
    obtain ⟨hc, hw⟩ := List.forall_mem_cons.mp hw
    obtain ⟨front, rest, rfl, hfront, hrest⟩ := cut (p := []) hc h
    rw [hfront.eq_nil_of_nil]
    cases w with
    | nil => exact ⟨rest, rfl⟩
    | cons d w =>
      obtain ⟨rest', rfl⟩ := ih hw hrest nofun
      exact ⟨rest', rfl⟩

end BlanksTo

/-! ### Places in the file -/

/-- The part stands in the text at the place, which has the given number of bytes in front of it. -/
def StandsIn (t part : Text) (offset : Nat) (place : Position) : Prop :=
  ∃ front rest, t = front ++ (part ++ rest) ∧ width front = offset
    ∧ Position.behind {} front = place

/-- A word without blanks stands in the file where it stands in the masked text. -/
theorem standsIn_of_masked {t above w below : Text} (hw : ∀ c ∈ w, isBlank c = false)
    (hne : w ≠ []) (h : maskComments t = above ++ (w ++ below)) :
    StandsIn t w (width above) (Position.behind {} above) := by
  have hblanks := BlanksTo.maskComments t
  rw [h] at hblanks
  cases w with
  | nil => exact absurd rfl hne
  | cons c w =>
    obtain ⟨front, rest, ht, hfront, hrest⟩ := hblanks.cut (hw c List.mem_cons_self)
    have hword : BlanksTo (c :: rest) (c :: w ++ below) := .keep c hrest
    obtain ⟨rest', hrest'⟩ := hword.word hw nofun
    refine ⟨front, rest', ?_, hfront.width_eq.symm, (hfront.behind_eq {}).symm⟩
    rw [ht, hrest']

/-! ### Cases -/

/-- The case is called in the text behind the front, on the line where the call begins. -/
def TestCase.CalledIn (line : Nat) (t front : Text) (c : TestCase) : Prop :=
  ∃ call rest, t = front ++ call ∧ caseCall? call = some (c.title, rest)
    ∧ c.line = line + front.count '\n'

/-- The cases of a text are called in it one behind another. -/
theorem casesFrom_called (line : Nat) (t : Text) :
    ∃ fronts, List.Forall₂ (TestCase.CalledIn line t) fronts (casesFrom line true 0 t)
      ∧ fronts.Pairwise (·.length < ·.length) := by
  refine ⟨(caseCalls t).map CaseCall.front, ?_, ?_⟩
  · rw [cases_eq_map, List.forall₂_map_left_iff, List.forall₂_map_right_iff, List.forall₂_same]
    intro k hk
    obtain ⟨call, ht, hread⟩ := (mem_caseCalls_iff.mp hk).1.called
    exact ⟨call, k.rest, ht, hread, rfl⟩
  · rw [List.pairwise_map]
    exact (pairwise_caseCalls t).imp And.left

/-- The case is called in the statement behind the front, and the word of the call stands in the
file on the line of the case. -/
def TestCase.IsAt (t above text front : Text) (c : TestCase) : Prop :=
  ∃ word ∈ caseWords, ∃ call rest, text = front ++ (word.toList ++ call)
    ∧ caseCall? (word.toList ++ call) = some (c.title, rest)
    ∧ ∃ place, StandsIn t word.toList (width (above ++ front)) place ∧ c.line = place.line

variable {t above text below : Text}

/-- A case that is called in a statement stands at that place of the file. -/
theorem TestCase.CalledIn.isAt {front : Text} {c : TestCase}
    (h : c.CalledIn (Position.behind {} above).line text front)
    (ht : maskComments t = above ++ (text ++ below)) : c.IsAt t above text front := by
  obtain ⟨call, rest, rfl, hcall, hline⟩ := h
  obtain ⟨word, hword, call, rfl⟩ := word_of_caseCall? hcall
  obtain ⟨hsolid, hne⟩ := solid_caseWords word hword
  refine ⟨word, hword, call, rest, rfl, hcall, Position.behind {} (above ++ front), ?_, ?_⟩
  · have hwhole : maskComments t = above ++ front ++ (word.toList ++ (call ++ below)) := by
      rw [ht]
      simp only [List.append_assoc]
    exact standsIn_of_masked hsolid hne hwhole
  · rw [hline, Position.behind_append, Position.line_behind _ front]

/-! ### Statements -/

/-- The statement is read off a text of the masked file. Its place is that of the first character in
the file, and its cases stand in the file one behind another. -/
structure Statement.IsAt (words : List Text) (t above text : Text) (s : Statement) : Prop where
  kind : s.kind = classify words text
  title : s.title? = if s.kind = .suite then suiteTitle? text else none
  place : ∃ c r, text = c :: r ∧ OpensStatement c ∧ StandsIn t [c] (width above) s.place
  cases : ∃ fronts, List.Forall₂ (TestCase.IsAt t above text) fronts s.cases
    ∧ fronts.Pairwise (·.length < ·.length)

private theorem Fragment.StandsBehind.isAt (words : List Text) {f : Fragment}
    (h : f.StandsBehind above text) (ht : maskComments t = above ++ (text ++ below)) :
    (f.toStatement words).IsAt words t above text where
  kind := by rw [f.toStatement_kind words, h.written]
  title := by
    rw [f.toStatement_kind words, ← h.written]
    unfold Fragment.toStatement
    dsimp only
    split <;> rfl
  place := by
    obtain ⟨c, r, rfl, hopens⟩ := h.opens
    refine ⟨c, r, rfl, hopens, ?_⟩
    rw [f.toStatement_place words, h.start]
    exact standsIn_of_masked (List.forall_mem_singleton.mpr hopens.1) nofun ht
  cases := by
    unfold Fragment.toStatement
    dsimp only
    split
    · dsimp only
      rw [h.written, h.start]
      obtain ⟨fronts, hcalled, hpairwise⟩ :=
        casesFrom_called (Position.behind {} above).line text
      exact ⟨fronts, hcalled.imp fun _ _ hc => hc.isAt ht, hpairwise⟩
    · exact ⟨[], .nil, .nil⟩

/-- The fragments of the masked file cover it up to blanks and semicolons. The outline has a
statement for each of them, and every place in it is the one in the file. -/
theorem outline_covers (words : List Text) (t : Text) :
    ∃ items : List (Fragment × Statement),
      items.map Prod.fst = fragments (maskComments t)
        ∧ items.map Prod.snd = (outline words t).statements
        ∧ Covers (fun above text p => p.1.StandsBehind above text ∧ p.2.IsAt words t above text) []
            (maskComments t) items := by
  refine ⟨(fragments (maskComments t)).map fun f => (f, f.toStatement words), ?_, ?_, ?_⟩
  · rw [List.map_map]
    exact List.map_id _
  · rw [List.map_map]
    rfl
  · exact (covers_fragments _).map rfl fun _ _ _ _ ht hf => ⟨hf, hf.isAt words ht⟩

end DocContract
