import DocContract.DocBlock
import DocContract.Proofs.Text.Column
import DocContract.Proofs.Text.Cut
import DocContract.TestFile.Masking
import Mathlib.Data.List.TakeWhile

/-!
# Pieces of a source text

A source text is read from left to right as pieces: literals, comments and the characters of the
code between them. A line comment goes up to the next newline, a block comment to the first closing
delimiter, a literal to its closing quote; what nothing closes goes up to the end of the text.
Comment marks in a literal and quotes in a comment open nothing.
-/

namespace DocContract

open Text

/-- What a piece of a source text is. -/
inductive PieceKind where
  | code
  | literal
  | lineComment
  | blockComment
  deriving DecidableEq, Repr

/-- A piece of a source text. -/
structure Piece where
  kind : PieceKind
  text : Text
  deriving DecidableEq, Repr

/-- Is the piece a comment? -/
def Piece.isComment (p : Piece) : Bool := p.kind == .lineComment || p.kind == .blockComment

/-- The text that pieces make. -/
def Piece.joined (ps : List Piece) : Text := ps.flatMap Piece.text

/-! ### Cutting off a piece -/

/-- What stands up to the next newline, and the rest. -/
def cutLine (t : Text) : Text × Text := (t.takeWhile (· != '\n'), t.dropWhile (· != '\n'))

/-- What stands up to the end of a block comment, and the rest. -/
def cutComment (t : Text) : Text × Text :=
  match cut? closeMark t with
  | some (body, rest) => (body ++ closeMark, rest)
  | none => (t, [])

/-- What stands up to the end of a literal, and the rest. A backslash takes the character behind it
along. -/
def cutLiteral (quote : Char) : Text → Text × Text
  | [] => ([], [])
  | '\\' :: c :: r => ('\\' :: c :: (cutLiteral quote r).1, (cutLiteral quote r).2)
  | c :: r =>
    if endsLiteral quote c then ([c], r)
    else (c :: (cutLiteral quote r).1, (cutLiteral quote r).2)

private theorem append_cutLine (t : Text) : (cutLine t).1 ++ (cutLine t).2 = t :=
  List.takeWhile_append_dropWhile

/-- A comment and what follows it make up the text. -/
theorem append_cutComment (t : Text) : (cutComment t).1 ++ (cutComment t).2 = t := by
  unfold cutComment
  split
  · next body rest h => rw [append_of_cut? h, List.append_assoc]
  · exact List.append_nil t

private theorem append_cutLiteral (quote : Char) (t : Text) :
    (cutLiteral quote t).1 ++ (cutLiteral quote t).2 = t := by
  fun_induction cutLiteral quote t with
  | case1 => rfl
  | case2 c r ih => rw [List.cons_append, List.cons_append, ih]
  | case3 c r _ h => rfl
  | case4 c r _ h ih => rw [List.cons_append, ih]

/-- A line comment goes on with any character but a newline. -/
theorem cutLine_cons {c : Char} (hc : c ≠ '\n') (r : Text) :
    cutLine (c :: r) = (c :: (cutLine r).1, (cutLine r).2) := by
  simp [cutLine, hc]

/-- A comment goes on with any character that begins no closer. -/
theorem cutComment_cons {c : Char} {r : Text} (h : startsWith (c :: r) closeMark = false) :
    cutComment (c :: r) = (c :: (cutComment r).1, (cutComment r).2) := by
  unfold cutComment
  rw [cut?_cons_of_not_startsWith h]
  cases cut? closeMark r <;> rfl

/-- The rest is no longer than the text. -/
theorem length_le_of_append {t : Text} {p : Text × Text} (h : p.1 ++ p.2 = t) :
    p.2.length ≤ t.length := by
  rw [← h, List.length_append]
  exact Nat.le_add_left _ _

/-! ### All pieces -/

/-- The pieces of a text. -/
def pieces : Text → List Piece
  | [] => []
  | '/' :: '/' :: r => ⟨.lineComment, '/' :: '/' :: (cutLine r).1⟩ :: pieces (cutLine r).2
  | '/' :: '*' :: r => ⟨.blockComment, '/' :: '*' :: (cutComment r).1⟩ :: pieces (cutComment r).2
  | c :: r =>
    if isQuote c then ⟨.literal, c :: (cutLiteral c r).1⟩ :: pieces (cutLiteral c r).2
    else ⟨.code, [c]⟩ :: pieces r
termination_by t => t.length
decreasing_by
  · exact Nat.lt_succ_of_le ((length_le_of_append (append_cutLine r)).trans (Nat.le_succ _))
  · exact Nat.lt_succ_of_le ((length_le_of_append (append_cutComment r)).trans (Nat.le_succ _))
  · exact Nat.lt_succ_of_le (length_le_of_append (append_cutLiteral c r))
  · exact Nat.lt_succ_self _

/-- The pieces make the text. -/
theorem joined_pieces (t : Text) : Piece.joined (pieces t) = t := by
  unfold Piece.joined
  fun_induction pieces t with
  | case1 => rfl
  | case2 r ih =>
    rw [List.flatMap_cons, ih]
    simp only [List.cons_append, append_cutLine]
  | case3 r ih =>
    rw [List.flatMap_cons, ih]
    simp only [List.cons_append, append_cutComment]
  | case4 c r _ _ hquote ih =>
    rw [List.flatMap_cons, ih]
    simp only [List.cons_append, append_cutLiteral]
  | case5 c r _ _ hquote ih =>
    rw [List.flatMap_cons, ih]
    rfl

/-- Marks inside literals and comments open nothing. -/
example : pieces "a'//'/*'*/" = [⟨.code, ['a']⟩, ⟨.literal, "'//'"⟩, ⟨.blockComment, "/*'*/"⟩] := by
  decide +kernel

/-! ### Pieces of a longer text -/

private theorem cutLine_append {t : Text} (h : (cutLine t).2 ≠ []) (u : Text) :
    cutLine (t ++ u) = ((cutLine t).1, (cutLine t).2 ++ u) := by
  induction t with
  | nil => exact absurd rfl h
  | cons c r ih =>
    by_cases hc : c = '\n'
    · subst hc
      rfl
    · rw [cutLine_cons hc] at h ⊢
      rw [List.cons_append, cutLine_cons hc, ih h]

/-- A text that does not begin with a closer does not when more follows, unless the slash of one
does. -/
theorem startsWith_closeMark_append {c : Char} {u v : Text}
    (h : startsWith (c :: u) closeMark = false) (hv : u = [] → ¬ ['/'] <+: v) :
    startsWith (c :: (u ++ v)) closeMark = false := by
  have hmark : closeMark = ['*', '/'] := rfl
  rw [Bool.eq_false_iff, ne_eq, startsWith_iff, hmark, List.cons_prefix_cons] at h ⊢
  rintro ⟨hstar, hslash⟩
  cases u with
  | nil => exact hv rfl hslash
  | cons d u =>
    exact h ⟨hstar, List.cons_prefix_cons.mpr
      ⟨(List.cons_prefix_cons.mp hslash).1, List.nil_prefix⟩⟩

private theorem cutComment_append {t : Text} (h : (cutComment t).2 ≠ []) (u : Text) :
    cutComment (t ++ u) = ((cutComment t).1, (cutComment t).2 ++ u) := by
  induction t with
  | nil => exact absurd rfl h
  | cons c r ih =>
    cases hclose : startsWith (c :: r) closeMark with
    | true =>
      obtain ⟨rest, hrest⟩ := startsWith_iff.mp hclose
      rw [← hrest]
      rfl
    | false =>
      rw [cutComment_cons hclose] at h ⊢
      have hgoes : startsWith (c :: (r ++ u)) closeMark = false := by
        refine startsWith_closeMark_append hclose fun hnil => ?_
        subst hnil
        exact absurd rfl h
      rw [List.cons_append, cutComment_cons hgoes, ih h]

private theorem cutLiteral_append (quote : Char) {t : Text} (h : (cutLiteral quote t).2 ≠ [])
    (u : Text) :
    cutLiteral quote (t ++ u) = ((cutLiteral quote t).1, (cutLiteral quote t).2 ++ u) := by
  fun_induction cutLiteral quote t with
  | case1 => exact absurd rfl h
  | case2 c r ih =>
    rw [List.cons_append, List.cons_append, cutLiteral, ih h]
  | case3 c r hslash hends =>
    have hgoes : ∀ d v, c = '\\' → r ++ u = d :: v → False := by
      rintro d v rfl -
      cases r with
      | nil => exact h rfl
      | cons e r => exact hslash e r rfl rfl
    rw [List.cons_append, cutLiteral, if_pos hends]
    exact hgoes
  | case4 c r hslash hgoes ih =>
    have hlonger : ∀ d v, c = '\\' → r ++ u = d :: v → False := by
      rintro d v rfl -
      cases r with
      | nil => exact h rfl
      | cons e r => exact hslash e r rfl rfl
    rw [List.cons_append, cutLiteral, if_neg hgoes, ih h]
    exact hlonger

/-- A blank is no quote. -/
theorem isQuote_of_isBlank {c : Char} (h : isBlank c = true) : isQuote c = false := by
  rw [Bool.eq_false_iff]
  intro hquote
  simp only [isQuote, Bool.or_eq_true, beq_iff_eq] at hquote
  rcases hquote with (rfl | rfl) | hquote
  · exact absurd h (by decide)
  · exact absurd h (by decide)
  · rw [isBlank, hquote] at h
    exact absurd h (by decide)

/-- A character that is neither a slash nor a quote is a piece of code. -/
theorem pieces_code {c : Char} (hslash : c ≠ '/') (hquote : isQuote c = false) (r : Text) :
    pieces (c :: r) = ⟨.code, [c]⟩ :: pieces r := by
  rw [pieces, hquote, if_neg Bool.false_ne_true]
  · exact fun _ hc => absurd hc hslash
  · exact fun _ hc => absurd hc hslash

private theorem eq_nil_of_pieces {t : Text} (h : pieces t = []) : t = [] := by
  rw [← joined_pieces t, h]
  rfl

/-- What stands behind a piece that is not the last one ends as the whole text does. -/
theorem ends_of_cons_pieces {p last : Piece} {r : Text} {ps : List Piece}
    (h : p :: pieces r = ps ++ [last]) (hne : ps ≠ []) :
    r ≠ [] ∧ ∃ ps, pieces r = ps ++ [last] := by
  obtain ⟨q, ps, rfl⟩ := List.exists_cons_of_ne_nil hne
  have hr := (List.cons.inj h).2
  refine ⟨?_, ps, hr⟩
  rintro rfl
  rw [pieces] at hr
  simp at hr

/-- Behind a character of the code that is no slash a text is read on its own. -/
theorem pieces_append {t : Text} {ps : List Piece} {c : Char} (hc : c ≠ '/')
    (h : pieces t = ps ++ [⟨.code, [c]⟩]) (u : Text) : pieces (t ++ u) = pieces t ++ pieces u := by
  fun_induction pieces t generalizing ps with
  | case1 => simp at h
  | case2 r ih =>
    obtain ⟨hne, ps', hps⟩ := ends_of_cons_pieces h (by rintro rfl; cases h)
    rw [List.cons_append, List.cons_append, pieces, cutLine_append hne, ih hps]
    rfl
  | case3 r ih =>
    obtain ⟨hne, ps', hps⟩ := ends_of_cons_pieces h (by rintro rfl; cases h)
    rw [List.cons_append, List.cons_append, pieces, cutComment_append hne, ih hps]
    rfl
  | case4 d r hline hblock hquote ih =>
    obtain ⟨hne, ps', hps⟩ := ends_of_cons_pieces h (by rintro rfl; cases h)
    rw [List.cons_append, pieces, if_pos hquote, cutLiteral_append d hne, ih hps]
    · rfl
    · exact fun _ hd => absurd hquote (by rw [hd]; decide)
    · exact fun _ hd => absurd hquote (by rw [hd]; decide)
  | case5 d r hline hblock hquote ih =>
    by_cases hps : ps = []
    · subst hps
      obtain ⟨⟨rfl⟩, hr⟩ := List.cons.inj h
      obtain rfl := eq_nil_of_pieces hr
      rw [hr]
      exact pieces_code hc (Bool.eq_false_iff.mpr hquote) u
    · obtain ⟨hne, ps', hps⟩ := ends_of_cons_pieces h hps
      obtain ⟨e, r, rfl⟩ := List.exists_cons_of_ne_nil hne
      rw [List.cons_append, pieces, if_neg hquote, ih hps]
      · rfl
      · rintro v hd hv
        cases hv
        exact hline r hd rfl
      · rintro v hd hv
        cases hv
        exact hblock r hd rfl

/-! ### Pieces with their places -/

/-- A piece of a text with the number of bytes in front of it. -/
structure PlacedPiece where
  offset : Nat
  piece : Piece
  deriving DecidableEq, Repr

namespace PlacedPiece

/-- The number of bytes up to the end of the piece. -/
def stop (c : PlacedPiece) : Nat := c.offset + width c.piece.text

/-- The place is inside the piece, behind its first byte and in front of its end. -/
def Encloses (c : PlacedPiece) (offset : Nat) : Prop := c.offset < offset ∧ offset < c.stop

instance (c : PlacedPiece) (offset : Nat) : Decidable (c.Encloses offset) :=
  inferInstanceAs (Decidable (_ ∧ _))

/-- Is the piece a block comment? -/
def isBlock (c : PlacedPiece) : Bool := c.piece.kind == .blockComment

end PlacedPiece

/-- The pieces with their places, the first one at the offset. -/
def placedFrom (offset : Nat) : List Piece → List PlacedPiece
  | [] => []
  | p :: ps => ⟨offset, p⟩ :: placedFrom (offset + width p.text) ps

/-- The text of pieces is that of the first one and of the others. -/
theorem joined_cons (p : Piece) (ps : List Piece) :
    Piece.joined (p :: ps) = p.text ++ Piece.joined ps := List.flatMap_cons

/-- The text of joined pieces is that of the first ones and of the others. -/
theorem joined_append (ps qs : List Piece) :
    Piece.joined (ps ++ qs) = Piece.joined ps ++ Piece.joined qs := List.flatMap_append

/-- A piece stands behind the width of the pieces in front of it. -/
theorem mem_placedFrom {offset : Nat} {ps : List Piece} {c : PlacedPiece} :
    c ∈ placedFrom offset ps ↔ ∃ before after, ps = before ++ c.piece :: after
      ∧ c.offset = offset + width (Piece.joined before) := by
  induction ps generalizing offset with
  | nil => simp [placedFrom]
  | cons p ps ih =>
    rw [placedFrom, List.mem_cons, ih]
    constructor
    · rintro (rfl | ⟨before, after, rfl, hoffset⟩)
      · exact ⟨[], ps, rfl, rfl⟩
      · refine ⟨p :: before, after, rfl, ?_⟩
        rw [hoffset, joined_cons, width_append, Nat.add_assoc]
    · rintro ⟨before, after, hps, hoffset⟩
      cases before with
      | nil =>
        obtain ⟨rfl, rfl⟩ := List.cons.inj hps
        exact .inl (by cases c; cases hoffset; rfl)
      | cons q before =>
        obtain ⟨rfl, rfl⟩ := List.cons.inj hps
        refine .inr ⟨before, after, rfl, ?_⟩
        rw [hoffset, joined_cons, width_append, Nat.add_assoc]

/-- Each piece begins where the one before it ends, or later. -/
theorem pairwise_placedFrom (offset : Nat) (ps : List Piece) :
    (placedFrom offset ps).Pairwise fun c d => c.stop ≤ d.offset := by
  induction ps generalizing offset with
  | nil => exact .nil
  | cons p ps ih =>
    refine .cons (fun d hd => ?_) (ih _)
    obtain ⟨before, after, -, hoffset⟩ := mem_placedFrom.mp hd
    rw [hoffset, PlacedPiece.stop]
    exact Nat.le_add_right _ _

/-- The piece that the byte at the offset belongs to is of the kind. -/
def KindAt (t : Text) (kind : PieceKind) (offset : Nat) : Prop :=
  ∃ c ∈ placedFrom 0 (pieces t), c.piece.kind = kind ∧ c.offset ≤ offset ∧ offset < c.stop

instance (t : Text) (kind : PieceKind) (offset : Nat) : Decidable (KindAt t kind offset) :=
  inferInstanceAs (Decidable (∃ c ∈ _, _))

/-- A byte belongs to one piece. -/
theorem KindAt.unique {t : Text} {kind kind' : PieceKind} {offset : Nat}
    (h : KindAt t kind offset) (h' : KindAt t kind' offset) : kind = kind' := by
  obtain ⟨c, hc, rfl, hstart, hstop⟩ := h
  obtain ⟨d, hd, rfl, hstart', hstop'⟩ := h'
  rcases eq_or_of_pairwise (pairwise_placedFrom 0 _) hc hd with rfl | hapart | hapart
  · rfl
  · omega
  · omega

/-! ### Where pieces end -/

/-- What each kind of piece looks like. -/
theorem shape_of_mem_pieces {t : Text} {p : Piece} (h : p ∈ pieces t) :
    match p.kind with
    | .code => ∃ c, p.text = [c]
    | .literal => ∃ c r, p.text = c :: r ∧ isQuote c = true
    | .lineComment => '\n' ∉ p.text
    | .blockComment => ∃ r, p.text = "/*".toList ++ r := by
  fun_induction pieces t with
  | case1 => cases h
  | case2 r ih =>
    rcases List.mem_cons.mp h with rfl | h
    · simp only [List.mem_cons, not_or]
      refine ⟨by decide, by decide, fun hm => ?_⟩
      have := List.mem_takeWhile_imp hm
      simp at this
    · exact ih h
  | case3 r ih =>
    rcases List.mem_cons.mp h with rfl | h
    · exact ⟨_, rfl⟩
    · exact ih h
  | case4 c r _ _ hquote ih =>
    rcases List.mem_cons.mp h with rfl | h
    · exact ⟨c, _, rfl, hquote⟩
    · exact ih h
  | case5 c r _ _ hquote ih =>
    rcases List.mem_cons.mp h with rfl | h
    · exact ⟨c, rfl⟩
    · exact ih h

/-- The pieces behind some pieces are those of the text behind them. -/
theorem pieces_suffix {t : Text} {before after : List Piece} (h : pieces t = before ++ after) :
    after = pieces (Piece.joined after) := by
  induction before generalizing t with
  | nil => rw [← List.nil_append after, ← h, joined_pieces]
  | cons p before ih =>
    revert h
    fun_cases pieces t with
    | case1 => rintro ⟨⟩
    | case2 r => exact fun h => ih (List.cons.inj h).2
    | case3 r => exact fun h => ih (List.cons.inj h).2
    | case4 c r => exact fun h => ih (List.cons.inj h).2
    | case5 c r => exact fun h => ih (List.cons.inj h).2

/-- A part of the pieces ends with one of them, or inside one. -/
theorem ends_of_joined_eq {ps : List Piece} {seen below : Text}
    (h : Piece.joined ps = seen ++ below) :
    (∃ before after, ps = before ++ after ∧ Piece.joined before = seen)
      ∨ ∃ before p after x y, ps = before ++ p :: after ∧ p.text = x ++ y ∧ x ≠ [] ∧ y ≠ []
          ∧ seen = Piece.joined before ++ x := by
  induction ps generalizing seen with
  | nil =>
    have hseen : seen = [] := (List.append_eq_nil_iff.mp h.symm).1
    exact .inl ⟨[], [], rfl, hseen.symm⟩
  | cons p ps ih =>
    rw [joined_cons] at h
    rcases List.append_eq_append_iff.mp h with ⟨seen, rfl, hrest⟩ | ⟨y, hp, hbelow⟩
    · rcases ih hrest with
        ⟨before, after, rfl, rfl⟩ | ⟨before, q, after, x, y, rfl, hq, hx, hy, rfl⟩
      · exact .inl ⟨p :: before, after, rfl, rfl⟩
      · refine .inr ⟨p :: before, q, after, x, y, rfl, hq, hx, hy, ?_⟩
        rw [joined_cons, List.append_assoc]
    · by_cases hseen : seen = []
      · exact .inl ⟨[], p :: ps, rfl, hseen.symm⟩
      · by_cases hy : y = []
        · refine .inl ⟨[p], ps, rfl, ?_⟩
          rw [joined_cons, hp, hy]
          simp [Piece.joined]
        · exact .inr ⟨[], p, ps, seen, y, rfl, hp, hseen, hy, rfl⟩

end DocContract
