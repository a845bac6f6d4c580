import DocContract.Proofs.Comment.NamedHeader
import DocContract.Proofs.Comment.WrittenField

/-!
# Lines with a type in braces

A text that starts with a brace is split at the brace that closes it, if there is one, and in one
way only. So a nested field may have any balanced text for its type: whatever blanks stand between
the parts of its line, the type, the name, the flag and the description are read as they were
written.
-/

namespace DocContract

open Text

namespace Header

/-! ### The split at the closing brace -/

/-- The text is the first part between braces, of which the first opens it and the last closes it,
and the second part behind them. -/
def IsSplit (t : Text) (parts : Text × Text) : Prop :=
  t = '{' :: (parts.1 ++ '}' :: parts.2) ∧ IsBalanced parts.1

private theorem splitBraced?_iff {t : Text} {parts : Text × Text} :
    splitBraced? t = some parts ↔ IsSplit t parts :=
  splitBraced?_eq_some_iff

private theorem splitBraced?_eq_none_iff {t : Text} :
    splitBraced? t = none ↔ ∀ parts, ¬ IsSplit t parts := by
  rw [Option.eq_none_iff_forall_ne_some]
  exact forall_congr' fun _ => not_congr splitBraced?_iff

private theorem IsSplit.unique {t : Text} {p q : Text × Text} (hp : IsSplit t p)
    (hq : IsSplit t q) : p = q :=
  Option.some.inj ((splitBraced?_iff.mpr hp).symm.trans (splitBraced?_iff.mpr hq))

/-! ### The end of a line -/

/-- Behind the name and its flag: the end of a header, or nothing when there is no description. -/
inductive BareEnding : Text → Text → Prop
  | nothing : BareEnding [] []
  | ending {d t : Text} (h : Ending d t) : BareEnding d t

private theorem BareEnding.closes {d t : Text} (h : BareEnding d t) : Closes true t d := by
  cases h with
  | nothing => exact .inr ⟨rfl, rfl, rfl⟩
  | ending h => exact .inl h.separator?

private theorem BareEnding.endsSolid {d t : Text} (h : BareEnding d t) : EndsSolid t := by
  cases h with
  | nothing => exact endsSolid_nil
  | ending h => exact h.endsSolid.2

end Header

namespace FieldLine

/-! ### The whole line -/

/-- The ways to write the line of a nested field with its type in braces: blanks, the marker, the
type between the braces, the name with its flag, the end of the header, blanks; there may be blanks
behind the marker and behind the closing brace. -/
inductive WrittenBraced : FieldLine → Text → Prop
  | mk {before between type gap name ending behind d : Text} {marker : Marker} {optional : Bool}
      (hbefore : ∀ c ∈ before, isBlank c = true) (hbetween : ∀ c ∈ between, isBlank c = true)
      (hgap : ∀ c ∈ gap, isBlank c = true) (hbehind : ∀ c ∈ behind, isBlank c = true)
      (htype : IsBalanced type) (hne : isBlankText type = false)
      (hname : Header.isName name = true) (hend : Header.BareEnding d ending) :
      WrittenBraced
        ⟨width before, marker, .braceTyped, some ⟨some name, some (trim type), optional, d⟩⟩
        (before ++ marker.symbol :: (between ++ ('{' :: (type ++ '}'
          :: (gap ++ (name ++ ((if optional then ['?'] else []) ++ ending)))) ++ behind)))

private theorem trimmed?_of_not_blank {t : Text} (h : isBlankText t = false) :
    trimmed? t = some (trim t) := by
  have hne : trim t ≠ [] := fun hnil => by
    rw [trim_eq_nil.mp hnil] at h
    cases h
  obtain ⟨c, r, hcons⟩ := List.exists_cons_of_ne_nil hne
  rw [trimmed?, hcons]

private theorem opensField_braced {between r behind : Text} (h : ∀ c ∈ between, isBlank c = true) :
    opensField (between ++ ('{' :: r ++ behind)) = true := by
  cases between with
  | nil => rfl
  | cons b bs => exact Bool.or_eq_true_iff.mpr (.inl (h b List.mem_cons_self))

/-- A line with a type in braces is read as it was written. -/
theorem parse?_written {line : FieldLine} {text : Text} (h : WrittenBraced line text) :
    parse? text = some line := by
  cases h with
  | @mk before between type gap name ending behind d marker optional hbefore hbetween hgap hbehind
      htype hne hname hend =>
    have hheader := @Header.braced?_append type gap name ending d optional htype hgap hname
      hend.closes hend.endsSolid
    have hsolid : EndsSolid ('{' :: (type ++ '}'
        :: (gap ++ (name ++ ((if optional then ['?'] else []) ++ ending))))) := by
      have hsplit : '{' :: (type ++ '}'
          :: (gap ++ (name ++ ((if optional then ['?'] else []) ++ ending))))
          = ('{' :: (type ++ '}' :: gap))
            ++ (name ++ ((if optional then ['?'] else []) ++ ending)) := by simp
      rw [hsplit, endsSolid_append (by simp [Header.name_ne_nil hname])]
      exact Header.endsSolid_named hname hend.endsSolid
    rw [Tag.parse?_marked hbefore (opensField_braced hbetween),
      trim_between hbetween hbehind (List.cons_ne_nil _ _) (startsSolid_cons.mpr (by decide))
        hsolid, readContent, hheader, trimmed?_of_not_blank hne]

/-- A text that begins with a brace is split exactly where it can be, which is in one way at most,
and not at all when there is no way. The line of a nested field with any balanced type in braces is
read as it was written. -/
theorem braces_exact (content : Text) :
    (∀ parts, Header.splitBraced? ('{' :: content) = some parts
        ↔ Header.IsSplit ('{' :: content) parts)
      ∧ (Header.splitBraced? ('{' :: content) = none
        ↔ ∀ parts, ¬ Header.IsSplit ('{' :: content) parts)
      ∧ (∀ p q, Header.IsSplit ('{' :: content) p → Header.IsSplit ('{' :: content) q → p = q)
      ∧ ∀ line text, WrittenBraced line text → parse? text = some line :=
  ⟨fun _ => Header.splitBraced?_iff, Header.splitBraced?_eq_none_iff,
    fun _ _ => Header.IsSplit.unique, fun _ _ => parse?_written⟩

/-- The type `{id: string}` with a blank on both sides. -/
def ownerType : Text := " \x7bid: string\x7d "

/-- The line `    + { {id: string} } owner - Owner ref`. -/
def ownerText : Text := "    + \x7b \x7bid: string\x7d \x7d owner - Owner ref"

/-- The parts of the line. -/
def ownerLine : FieldLine :=
  ⟨4, .plus, .braceTyped, some ⟨some "owner", some "\x7bid: string\x7d", false, "Owner ref"⟩⟩

/-- A type that has braces and blanks of its own, below an indentation of four blanks. -/
theorem braces_exact_ownerExample :
    Header.IsSplit ('{' :: (ownerType ++ '}' :: " owner".toList)) (ownerType, " owner".toList)
      ∧ Header.splitBraced? ('{' :: (ownerType ++ '}' :: " owner".toList))
        = some (ownerType, " owner".toList)
      ∧ (∀ q, Header.IsSplit ('{' :: (ownerType ++ '}' :: " owner".toList)) q →
        q = (ownerType, " owner".toList))
      ∧ WrittenBraced ownerLine ownerText ∧ parse? ownerText = some ownerLine := by
  have htype : IsBalanced ownerType := by decide
  have hsplit : Header.IsSplit ('{' :: (ownerType ++ '}' :: " owner".toList))
      (ownerType, " owner".toList) := ⟨rfl, htype⟩
  have hspace : ∀ c ∈ [' '], isBlank c = true := List.forall_mem_singleton.mpr rfl
  have hend : Header.Ending "Owner ref" ([' '] ++ '-' :: ([' '] ++ "Owner ref")) :=
    .mk (by simp) hspace (.described (by simp) hspace (by decide) (by decide +kernel))
  have hwritten : WrittenBraced ownerLine ownerText :=
    @WrittenBraced.mk (.replicate 4 ' ') [' '] ownerType [' '] "owner" _ [] _ .plus false
      (fun _ => Tag.isBlank_of_mem_replicate) hspace hspace (by simp) htype (by decide) rfl
      (.ending hend)
  obtain ⟨hread, -, hunique, hline⟩ := braces_exact (ownerType ++ '}' :: " owner".toList)
  exact ⟨hsplit, (hread _).mpr hsplit, fun q hq => hunique q _ hq hsplit, hwritten,
    hline _ _ hwritten⟩

end FieldLine

end DocContract
