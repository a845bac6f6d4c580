import DocContract.Proofs.DocBlock.Association
import DocContract.Proofs.DocBlock.Scan

/-!
# Where the scan gives up

One line gives up at most one opening, the one that is being read, and the line is read like any
other then. So the openings that are given up come in turn: each stops at the latest on the line on
which the next one opens, and only the last one can be open when the file ends.
-/

namespace DocContract

open Text

/-- An opening that a scan gives up on some lines: it stands on one of them, or was read before
them, and the line on which it is given up is one of them, a stop and below the opening. -/
structure Unclosed.LiesOn (x : Unclosed) (stops : List Nat) (open? : Option Nat)
    (ls : List SourceLine) : Prop where
  starts : open? = some x.line ∨ ∃ l ∈ ls, l.number = x.line
  stopped : ∀ d ∈ x.stoppedAt?, d ∈ stops ∧ ∃ l ∈ ls, l.number = d
  below : ∀ d ∈ x.stoppedAt?, x.line < d

/-- Each opening is given up at the latest on the line on which the next one stands. -/
def InTurn (xs : List Unclosed) : Prop := xs.Pairwise fun x y => ∃ d ∈ x.stoppedAt?, d ≤ y.line

/-- Only the last opening can be open when the file ends. -/
theorem InTurn.length_open_le {xs : List Unclosed} (h : InTurn xs) :
    (xs.filter (·.stoppedAt?.isNone)).length ≤ 1 := by
  have hturn := h.filter (·.stoppedAt?.isNone)
  have hopen : ∀ x ∈ xs.filter (·.stoppedAt?.isNone), x.stoppedAt? = none := fun x hx =>
    Option.isNone_iff_eq_none.mp (List.mem_filter.mp hx).2
  generalize xs.filter (·.stoppedAt?.isNone) = ys at hturn hopen
  rcases ys with _ | ⟨x, _ | ⟨y, ys⟩⟩
  · exact Nat.zero_le 1
  · exact le_rfl
  · obtain ⟨d, hd, -⟩ := List.rel_of_pairwise_cons hturn List.mem_cons_self
    rw [hopen x List.mem_cons_self] at hd
    cases hd

namespace ScanState

/-! ### One line -/

private theorem unclosed_codeLine (l : SourceLine) : (codeLine l).2.unclosed = [] := by
  generalize h : codeLine l = effect
  cases Outside.of_eq h with
  | doc _ _ =>
    unfold openDoc
    split <;> rfl
  | _ => rfl

/-- A block that a line of code leaves open stands on the line. -/
theorem openLine?_codeLine {l : SourceLine} {n : Nat} (h : (codeLine l).1.openLine? = some n) :
    n = l.number := by
  have heffect := effect_codeLine .code l
  generalize (codeLine l).1 = next at h heffect
  generalize (codeLine l).2.blocks = found at heffect
  cases heffect with
  | none opened => exact (opened n h).resolve_right nofun
  | one starts ends written => cases h

/-- A line gives up the block that is being read, if it is a stop, and nothing else. -/
theorem step_unclosed_cases (stops : List Nat) (state : ScanState) (l : SourceLine) :
    (step stops state l).2.unclosed = []
      ∨ ∃ block, state = .doc block ∧ l.number ∈ stops
        ∧ (step stops state l).2.unclosed = [block.giveUp (some l.number)] := by
  cases state with
  | code => exact .inl (unclosed_codeLine l)
  | comment => exact .inl rfl
  | doc block =>
    by_cases hstop : l.number ∈ stops
    · refine .inr ⟨block, rfl, hstop, ?_⟩
      rw [step_doc_of_mem hstop]
      exact congrArg (_ :: ·) (unclosed_codeLine l)
    · left
      rw [step_doc_of_not_mem hstop]
      split <;> rfl

/-- A block that is open behind a line was open before it or stands on it. -/
theorem openLine?_step (stops : List Nat) (state : ScanState) (l : SourceLine) :
    ∀ n ∈ (step stops state l).1.openLine?, n = l.number ∨ state.openLine? = some n := by
  have heffect := effect_step stops state l
  generalize (step stops state l).1 = next at heffect
  generalize (step stops state l).2.blocks = found at heffect
  cases heffect with
  | none opened => exact opened
  | one starts ends written => exact fun n hn => by cases hn

/-! ### All lines -/

/-- Blocks that stay open are reported in the order of their lines, each where it was opened. -/
theorem run_unclosed {stops : List Nat} {state : ScanState} {ls : List SourceLine}
    (hls : SourceLine.Ascending ls) (hopen : ∀ n ∈ state.openLine?, ∀ l ∈ ls, n < l.number) :
    InTurn (run stops state ls).unclosed
      ∧ ∀ x ∈ (run stops state ls).unclosed, x.LiesOn stops state.openLine? ls := by
  induction ls generalizing state with
  | nil =>
    cases state with
    | code => exact ⟨.nil, List.forall_mem_nil _⟩
    | comment => exact ⟨.nil, List.forall_mem_nil _⟩
    | doc block =>
      exact ⟨List.pairwise_singleton _ _, List.forall_mem_singleton.mpr ⟨.inl rfl, nofun, nofun⟩⟩
  | cons l ls ih =>
    obtain ⟨hbelow, hrest⟩ := List.pairwise_cons.mp hls
    have hopened := openLine?_step stops state l
    obtain ⟨hturn, hlies⟩ := ih hrest (lt_of_opened hopened hls hopen)
    have hmore : ∀ x ∈ (run stops (step stops state l).1 ls).unclosed,
        x.LiesOn stops state.openLine? (l :: ls) := by
      intro x hx
      obtain ⟨starts, stopped, below⟩ := hlies x hx
      refine ⟨starts_of_opened hopened starts, fun d hd => ?_, below⟩
      obtain ⟨hstop, m, hm, hd⟩ := stopped d hd
      exact ⟨hstop, m, List.mem_cons_of_mem _ hm, hd⟩
    have hrun : (run stops state (l :: ls)).unclosed
        = (step stops state l).2.unclosed ++ (run stops (step stops state l).1 ls).unclosed := rfl
    rw [hrun]
    rcases step_unclosed_cases stops state l with hnone | ⟨block, rfl, hstop, hone⟩
    · rw [hnone]
      exact ⟨hturn, hmore⟩
    · rw [hone]
      refine ⟨.cons (fun y hy => ⟨l.number, rfl, ?_⟩) hturn, List.forall_mem_cons.mpr ⟨?_, hmore⟩⟩
      · -- The line itself is read as code, so what is given up later opens on it or below.
        rcases (hlies y hy).starts with hstart | ⟨m, hm, hstart⟩
        · rw [step_doc_of_mem hstop] at hstart
          exact (openLine?_codeLine hstart).ge
        · exact hstart ▸ (hbelow m hm).le
      · refine ⟨.inl rfl, fun d hd => ?_, fun d hd => ?_⟩
        · rw [← Option.some.inj hd]
          exact ⟨hstop, l, List.mem_cons_self, rfl⟩
        · rw [← Option.some.inj hd]
          exact hopen block.line rfl l List.mem_cons_self

end ScanState

/-- An opening that a scan gives up from outside comments on stands on one of its lines. -/
theorem ScanState.exists_line_of_mem_run {stops : List Nat} {ls : List SourceLine}
    (hls : SourceLine.Ascending ls) {x : Unclosed} (hx : x ∈ (run stops .code ls).unclosed) :
    ∃ l ∈ ls, l.number = x.line := by
  rcases ((run_unclosed hls forall_openLine?_code).2 x hx).starts with h | h
  · cases h
  · exact h

/-- The openings of a text that are given up come in turn, each with its lines in the text. -/
theorem scanBlocks_unclosed (stops : List Nat) (t : Text) :
    InTurn (scanBlocks stops t).unclosed
      ∧ ∀ x ∈ (scanBlocks stops t).unclosed, x.LiesOn stops none (SourceLine.ofText t) :=
  ScanState.run_unclosed (SourceLine.ascending_ofText t) ScanState.forall_openLine?_code

section Distinct

variable {stops : List Nat} {t : Text} {x y : Unclosed} {d e : Nat}
  (hx : x ∈ (scanBlocks stops t).unclosed) (hy : y ∈ (scanBlocks stops t).unclosed)

include hx hy

/-- An opening that is given up on a later line than another does not stand above the line on which
the other is given up. -/
theorem le_line_of_stoppedAt? (hd : x.stoppedAt? = some d) (he : y.stoppedAt? = some e)
    (hlt : d < e) : d ≤ y.line := by
  obtain ⟨hturn, hlies⟩ := scanBlocks_unclosed stops t
  have hbelow := (hlies x hx).below d hd
  rcases eq_or_of_pairwise hturn hx hy with rfl | ⟨n, hn, hle⟩ | ⟨n, hn, hle⟩
  · have := Option.some.inj (hd.symm.trans he)
    omega
  · have := Option.some.inj (hd.symm.trans hn)
    omega
  · have := Option.some.inj (he.symm.trans hn)
    omega

/-- Two openings stand on different lines. -/
theorem Unclosed.eq_of_line (h : x.line = y.line) : x = y := by
  obtain ⟨hturn, hlies⟩ := scanBlocks_unclosed stops t
  rcases eq_or_of_pairwise hturn hx hy with rfl | ⟨n, hn, hle⟩ | ⟨n, hn, hle⟩
  · rfl
  · have := (hlies x hx).below n hn
    omega
  · have := (hlies y hy).below n hn
    omega

/-- No two openings are given up on one line. -/
theorem Unclosed.eq_of_stoppedAt? (hxd : x.stoppedAt? = some d) (hyd : y.stoppedAt? = some d) :
    x = y := by
  obtain ⟨hturn, hlies⟩ := scanBlocks_unclosed stops t
  have hxbelow := (hlies x hx).below d hxd
  have hybelow := (hlies y hy).below d hyd
  rcases eq_or_of_pairwise hturn hx hy with rfl | ⟨n, hn, hle⟩ | ⟨n, hn, hle⟩
  · rfl
  · have := Option.some.inj (hxd.symm.trans hn)
    omega
  · have := Option.some.inj (hyd.symm.trans hn)
    omega

end Distinct

/-! ### The declaration on the line -/

namespace SourceUnit

variable {u : SourceUnit} {x y : Unclosed} {line : Nat}

/-- A declaration gets the opening that is given up on its line. -/
theorem documentation_of_stoppedAt? (hx : x ∈ u.scan.unclosed) (h : x.stoppedAt? = some line) :
    u.documentation line = .malformed x := by
  unfold documentation associate
  cases hfound : u.scan.unclosed.find? fun x => x.stoppedAt? == some line with
  | none =>
    have := List.find?_eq_none.mp hfound x hx
    simp [h] at this
  | some y =>
    have hy : y.stoppedAt? = some line := by simpa using List.find?_some hfound
    rw [Unclosed.eq_of_stoppedAt? (List.mem_of_find?_eq_some hfound) hx hy h]

/-- A symbol whose comment is malformed stops a block that stays open at its line. -/
theorem stoppedAt?_of_documentation (h : u.documentation line = .malformed y) :
    y ∈ u.scan.unclosed ∧ y.stoppedAt? = some line := by
  unfold documentation associate at h
  split at h
  · next z hz =>
    cases h
    exact ⟨List.mem_of_find?_eq_some hz, by simpa using List.find?_some hz⟩
  · dsimp only at h
    split at h
    · cases h
    · split at h <;> cases h

end SourceUnit

end DocContract
