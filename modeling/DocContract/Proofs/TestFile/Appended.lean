import DocContract.Proofs.TestFile.Located
import DocContract.Proofs.TestFile.Splitting

/-!
# Test files put together

A text that ends a statement with a semicolon and a newline leaves nothing open: no comment, no
literal, no bracket, no statement. What is put behind it is read as a file of its own, only further
down, and neither part bears on the statements of the other.
-/

namespace DocContract

/-! ### Further down -/

/-- The same place some lines further down. -/
def Position.down (n : Nat) (p : Position) : Position := { p with line := p.line + n }

/-- The same statement some lines further down. -/
def Fragment.down (n : Nat) (f : Fragment) : Fragment := { f with start := f.start.down n }

/-- The same statement, still being read, some lines further down. -/
def OpenFragment.down (n : Nat) (o : OpenFragment) : OpenFragment :=
  { o with start := o.start.down n }

/-- The same splitter some lines further down. -/
def Splitter.down (n : Nat) (s : Splitter) : Splitter :=
  { s with place := s.place.down n, open? := s.open?.map (·.down n) }

/-- The same case some lines further down. -/
def TestCase.down (n : Nat) (c : TestCase) : TestCase := { c with line := c.line + n }

/-- The same statement of an outline, with its cases, some lines further down. -/
def Statement.down (n : Nat) (s : Statement) : Statement :=
  { s with place := s.place.down n, cases := s.cases.map (·.down n) }

private theorem Position.advance_down (n : Nat) (p : Position) (c : Char) :
    (p.down n).advance c = (p.advance c).down n := by
  unfold advance
  split
  · exact congrArg (fun line => Position.mk line 1) (Nat.add_right_comm p.line n 1)
  · rfl

namespace Splitter

variable (n : Nat) (s : Splitter) (c : Char)

private theorem keep_down : (s.down n).keep c = (s.keep c).down n := by
  obtain ⟨place, depth, nesting, open?, last?, atEnd⟩ := s
  unfold keep down
  cases open? <;> simp [Position.advance_down, OpenFragment.down, OpenFragment.push]

private theorem inLiteral_down (quote : Char) (escaped : Bool) :
    (s.down n).inLiteral quote escaped c = (s.inLiteral quote escaped c).down n := by
  unfold inLiteral
  dsimp only
  rw [keep_down]
  split
  · rfl
  · split
    · rfl
    · split <;> rfl

private theorem blank_down : (s.down n).blank c = (s.blank c).down n := by
  have hdepth : ((s.keep c).down n).depth = (s.keep c).depth := rfl
  have hopen : ((s.keep c).down n).open?.isSome = (s.keep c).open?.isSome := Option.isSome_map
  unfold blank
  dsimp only
  rw [keep_down, hdepth, hopen]
  split <;> rfl

private theorem significant_down (o : OpenFragment) : (s.down n).significant (o.down n) c
    = ((s.significant o c).1.down n, (s.significant o c).2.map (·.down n)) := by
  have hdepth : (s.down n).depth = s.depth := rfl
  have hplace : (s.down n).place.advance c = (s.place.advance c).down n :=
    Position.advance_down n s.place c
  unfold significant
  dsimp only
  rw [hdepth, hplace]
  split <;> rfl

private theorem begin_down :
    (s.down n).begin c = ((s.begin c).1.down n, (s.begin c).2.map (·.down n)) := by
  have hplace : (s.down n).place.advance c = (s.place.advance c).down n :=
    Position.advance_down n s.place c
  unfold begin
  rw [hplace]
  split
  · rfl
  · exact significant_down n s c ⟨s.place, []⟩

/-- A step does the same further down. -/
theorem step_down : (s.down n).step c = ((s.step c).1.down n, (s.step c).2.map (·.down n)) := by
  have hnesting : (s.down n).nesting = s.nesting := rfl
  have hend : (s.down n).atEnd = s.atEnd := rfl
  have hopen : (s.down n).open? = s.open?.map (·.down n) := rfl
  unfold step
  rw [hnesting, hend, hopen]
  split
  · rw [inLiteral_down]
    rfl
  · split
    · rw [blank_down]
      rfl
    · cases s.open? with
      | none => exact begin_down n s c
      | some o =>
        dsimp only [Option.map_some]
        rw [begin_down, significant_down]
        split <;> rfl

/-- A run finds the same statements further down. -/
theorem run_down (t : Text) : (s.down n).run t = (s.run t).map (·.down n) := by
  induction t generalizing s with
  | nil =>
    have hopen : (s.down n).open? = s.open?.map (·.down n) := rfl
    rw [run, run, hopen]
    cases s.open? <;> rfl
  | cons c r ih =>
    rw [run, run, step_down, List.map_append]
    exact congrArg _ (ih _)

end Splitter

/-! ### Outlines further down -/

private theorem casesFrom_down (n line : Nat) (t : Text) :
    casesFrom (line + n) true 0 t = (casesFrom line true 0 t).map (·.down n) := by
  rw [cases_eq_map, cases_eq_map, List.map_map]
  refine List.map_congr_left fun k _ => ?_
  have hline : line + n + k.front.count '\n' = line + k.front.count '\n' + n :=
    Nat.add_right_comm line n _
  exact congrArg (TestCase.mk k.title) hline

private theorem Fragment.toStatement_down (words : List Text) (n : Nat) (f : Fragment) :
    (f.down n).toStatement words = (f.toStatement words).down n := by
  have htext : (f.down n).text = f.text := rfl
  have hline : (f.down n).start.line = f.start.line + n := rfl
  unfold toStatement
  rw [htext, hline, casesFrom_down]
  dsimp only
  split <;> rfl

/-! ### Texts that leave nothing open -/

/-- The text is empty, or ends with a semicolon and a newline, both in the code, where the
semicolon stands outside all brackets. -/
def EndsStatement (t : Text) : Prop :=
  t = [] ∨ ∃ ps, pieces t = ps ++ [⟨.code, [';']⟩, ⟨.code, ['\n']⟩]
    ∧ (Splitter.after {} (ps.flatMap Piece.masked)).depth = 0

namespace EndsStatement

variable {t : Text}

/-- What is put behind the text is masked on its own. -/
theorem maskComments_append (h : EndsStatement t) (u : Text) :
    maskComments (t ++ u) = maskComments t ++ maskComments u := by
  rcases h with rfl | ⟨ps, hps, -⟩
  · rfl
  · have hlast : pieces t = (ps ++ [⟨.code, [';']⟩]) ++ [⟨.code, ['\n']⟩] := by
      rw [hps, List.append_assoc]
      rfl
    rw [maskComments_eq_flatMap, maskComments_eq_flatMap, maskComments_eq_flatMap,
      pieces_append (by decide) hlast, List.flatMap_append]

/-- Behind the text the splitter is between two statements. -/
theorem isFresh_after (h : EndsStatement t) : (Splitter.after {} (maskComments t)).IsFresh := by
  rcases h with rfl | ⟨ps, hps, hdepth⟩
  · exact ⟨rfl, rfl, rfl, rfl⟩
  · have hmask : maskComments t = ps.flatMap Piece.masked ++ [';', '\n'] := by
      rw [maskComments_eq_flatMap, hps, List.flatMap_append]
      rfl
    have hcode : (Splitter.after {} (ps.flatMap Piece.masked)).nesting = .code := by
      rw [Splitter.nesting_after]
      exact Nesting.after_masked hps
    have hsemicolon := Splitter.isFresh_semicolon hcode hdepth
    rw [hmask, Splitter.after_append]
    have hnewline : ∀ {s : Splitter}, s.IsFresh → (s.step '\n').1 = s.blank '\n' := by
      intro s hs
      rw [Splitter.step, hs.nesting]
      rfl
    have hafter : ((Splitter.after {} (ps.flatMap Piece.masked)).after [';', '\n'])
        = ((Splitter.after {} (ps.flatMap Piece.masked)).step ';').1.blank '\n' :=
      hnewline hsemicolon
    rw [hafter]
    exact hsemicolon.blank '\n'

/-- Behind the text a line begins. -/
theorem place_after (h : EndsStatement t) :
    (Splitter.after {} (maskComments t)).place = Position.down (t.count '\n') {} := by
  rw [Splitter.place_after, (BlanksTo.maskComments t).behind_eq]
  rcases h with rfl | ⟨ps, hps, -⟩
  · rfl
  · have ht : t = Piece.joined ps ++ [';', '\n'] := by
      rw [← joined_pieces t, hps, joined_append]
      rfl
    have hcolumn : (Position.behind {} t).column = 1 := by
      rw [ht, Position.behind_append]
      rfl
    have hplace : Position.behind {} t
        = ⟨(Position.behind {} t).line, (Position.behind {} t).column⟩ := rfl
    rw [hplace, hcolumn, Position.line_behind]
    rfl

end EndsStatement

/-- A file behind a text that leaves nothing open has the statements of both, the file's own ones
further down. -/
theorem fragments_append {t : Text} (h : EndsStatement t) (u : Text) :
    fragments (maskComments (t ++ u)) = fragments (maskComments t)
      ++ (fragments (maskComments u)).map (·.down (t.count '\n')) := by
  have hfresh := h.isFresh_after
  have hfirst : fragments (maskComments t) = Splitter.ended {} (maskComments t) := by
    have hrun := Splitter.run_append {} (maskComments t) []
    rw [List.append_nil, Splitter.run, hfresh.opened] at hrun
    exact hrun.trans (List.append_nil _)
  have hrest : (Splitter.after {} (maskComments t)).run (maskComments u)
      = (fragments (maskComments u)).map (·.down (t.count '\n')) := by
    rw [fragments, ← Splitter.run_down]
    exact hfresh.run_eq ⟨rfl, rfl, rfl, rfl⟩ h.place_after _
  rw [h.maskComments_append, hfirst, ← hrest]
  exact Splitter.run_append {} _ _

/-- The outline of a text that leaves nothing open and of what is put behind it are the outlines of
the two, the second one further down by the newlines of the first. -/
theorem outline_append (words : List Text) {t : Text} (h : EndsStatement t) (u : Text) :
    (outline words (t ++ u)).statements = (outline words t).statements
      ++ (outline words u).statements.map (·.down (t.count '\n')) := by
  have hdown : (Fragment.toStatement words) ∘ Fragment.down (t.count '\n')
      = Statement.down (t.count '\n') ∘ Fragment.toStatement words := by
    funext f
    exact f.toStatement_down words _
  unfold outline
  dsimp only
  rw [fragments_append h, List.map_append, List.map_map, List.map_map, hdown]

/-- Behind a statement that takes up two lines a suite and its case stand two lines further down. -/
theorem outline_append_setupExample :
    EndsStatement "f('(', /* ;\n */ g);\n"
      ∧ (outline [] ("f('(', /* ;\n */ g);\n".toList ++ "describe('g', it('x'))")).statements
        = [⟨.other, ⟨1, 1⟩, none, []⟩, ⟨.suite, ⟨3, 1⟩, some "g", [⟨"x", 3⟩]⟩] := by
  have hends : EndsStatement "f('(', /* ;\n */ g);\n" :=
    .inr ⟨(pieces "f('(', /* ;\n */ g);\n").dropLast.dropLast, by decide +kernel,
      by decide +kernel⟩
  refine ⟨hends, ?_⟩
  rw [outline_append [] hends]
  decide +kernel

end DocContract
