import Mathlib
import Dialogue.Text.Blank

/-!
# Characters by their numbers

The digits and the letters of ASCII are ranges of numbers (`isDigit_iff`, `isAlpha_iff`), and no graphic character of
ASCII is a blank.
-/

namespace Dialogue.Text

variable {c : Char}

theorem isDigit_iff : c.isDigit = true ↔ 48 ≤ c.toNat ∧ c.toNat ≤ 57 := by
  rw [Char.isDigit, Bool.and_eq_true, decide_eq_true_eq, decide_eq_true_eq]
  exact and_congr UInt32.le_iff_toNat_le UInt32.le_iff_toNat_le

theorem isAlpha_iff : c.isAlpha = true ↔ (65 ≤ c.toNat ∧ c.toNat ≤ 90) ∨ (97 ≤ c.toNat ∧ c.toNat ≤ 122) := by
  simp only [Char.isAlpha, Char.isUpper, Char.isLower, Bool.or_eq_true, Bool.and_eq_true, decide_eq_true_eq]
  exact or_congr (and_congr UInt32.le_iff_toNat_le UInt32.le_iff_toNat_le)
    (and_congr UInt32.le_iff_toNat_le UInt32.le_iff_toNat_le)

theorem isBlank_eq_false_of_graphic (h : 33 ≤ c.toNat ∧ c.toNat ≤ 126) : isBlank c = false := by
  simp only [isBlank, inRanges, blankRanges, List.any_cons, List.any_nil, Bool.or_eq_false_iff, Bool.and_eq_false_iff,
    decide_eq_false_iff_not, and_true]
  refine ⟨?_, ?_, ?_, ?_, ?_, ?_, ?_, ?_, ?_, ?_⟩ <;> omega

theorem isBlank_eq_false_of_isDigit (h : c.isDigit = true) : isBlank c = false := by
  have hrange := isDigit_iff.1 h
  exact isBlank_eq_false_of_graphic ⟨by omega, by omega⟩

theorem isBlank_eq_false_of_isAlpha (h : c.isAlpha = true) : isBlank c = false := by
  have hrange := isAlpha_iff.1 h
  exact isBlank_eq_false_of_graphic ⟨by omega, by omega⟩

theorem isDigit_eq_false_of_isAlpha (h : c.isAlpha = true) : c.isDigit = false := by
  have hrange := isAlpha_iff.1 h
  rw [Bool.eq_false_iff, ne_eq, isDigit_iff]
  omega

end Dialogue.Text
