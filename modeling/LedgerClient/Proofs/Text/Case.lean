/-
  Letters in either case.

  * `SameLetter c d`: the characters are the same up to the case of an ASCII letter, and
    `SameLetters s t`: so are the texts, one by one;
  * `toList_lowerAscii` and `lowerAscii_eq_iff`: texts are the same in small letters just where they
    are the same up to their case.
-/
import LedgerClient.Text.Search
import Mathlib.Data.List.Forall2

namespace LedgerClient.Text

/-- The first character is a capital ASCII letter, and the second one is its small letter. -/
def IsCapitalOf (capital small : Char) : Prop :=
  65 ≤ capital.toNat ∧ capital.toNat ≤ 90 ∧ small.toNat = capital.toNat + 32

/-- The characters are the same up to the case of an ASCII letter. -/
def SameLetter (c d : Char) : Prop :=
  c = d ∨ IsCapitalOf c d ∨ IsCapitalOf d c

/-- The texts are the same up to the case of their ASCII letters. -/
def SameLetters (s t : String) : Prop :=
  List.Forall₂ SameLetter s.toList t.toList

theorem toNat_toLower (c : Char) :
    c.toLower.toNat = if 65 ≤ c.toNat ∧ c.toNat ≤ 90 then c.toNat + 32 else c.toNat := by
  by_cases h : 65 ≤ c.toNat ∧ c.toNat ≤ 90
  · have hlower : c.toLower = ⟨c.val + 32, _⟩ := dif_pos h
    have hsum : (c.val + 32).toNat = (c.toNat + 32) % 2 ^ 32 := UInt32.toNat_add c.val 32
    rw [if_pos h, hlower]
    exact hsum.trans (Nat.mod_eq_of_lt (by omega))
  · have hlower : c.toLower = c := dif_neg h
    rw [if_neg h, hlower]

theorem toLower_eq_toLower_iff {c d : Char} : c.toLower = d.toLower ↔ SameLetter c d := by
  rw [← Char.toNat_inj, toNat_toLower, toNat_toLower, SameLetter, IsCapitalOf, IsCapitalOf,
    ← Char.toNat_inj]
  split <;> split <;> omega

/-- A text in small letters. -/
theorem toList_lowerAscii (s : String) : (lowerAscii s).toList = s.toList.map Char.toLower := by
  rw [lowerAscii, String.toList_ofList]
  congr 1
  funext c
  rw [← Char.toNat_inj, toNat_toLower]
  by_cases h : 65 ≤ c.toNat ∧ c.toNat ≤ 90
  · have hvalid : (c.toNat + 32).isValidChar := Or.inl (by omega)
    have hchar : Char.ofNat (c.toNat + 32) = Char.ofNatAux (c.toNat + 32) hvalid := dif_pos hvalid
    have hletter : (65 ≤ c.toNat && c.toNat ≤ 90) = true := by simpa using h
    rw [if_pos h, if_pos hletter, hchar]
    rfl
  · have hletter : ¬(65 ≤ c.toNat && c.toNat ≤ 90) = true := by simpa using h
    rw [if_neg h, if_neg hletter]

theorem lowerAscii_eq_iff {s t : String} : lowerAscii s = lowerAscii t ↔ SameLetters s t := by
  rw [← String.toList_inj, toList_lowerAscii, toList_lowerAscii, ← List.forall₂_eq_eq_eq,
    List.forall₂_map_left_iff, List.forall₂_map_right_iff, SameLetters]
  simp only [toLower_eq_toLower_iff]

end LedgerClient.Text
