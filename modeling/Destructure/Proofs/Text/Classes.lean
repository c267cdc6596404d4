import Destructure.Text.Blank

/-! # Classes of characters

Digits, letters and blanks as ranges of code points, which keeps the three classes apart, and the two
cases of letters.
-/

namespace Destructure.Text

theorem isDigit_iff {c : Char} : c.isDigit = true ↔ 48 ≤ c.toNat ∧ c.toNat ≤ 57 := by
  simp [Char.isDigit, UInt32.le_iff_toNat_le, ← Char.toNat_val]

theorem isLower_iff {c : Char} : c.isLower = true ↔ 97 ≤ c.toNat ∧ c.toNat ≤ 122 := by
  have lower : c.isLower = (decide (97 ≤ c.val) && decide (c.val ≤ 122)) := rfl
  simp [lower, UInt32.le_iff_toNat_le, ← Char.toNat_val]

theorem isAlpha_iff {c : Char} : c.isAlpha = true ↔
    (65 ≤ c.toNat ∧ c.toNat ≤ 90) ∨ (97 ≤ c.toNat ∧ c.toNat ≤ 122) := by
  have alpha : c.isAlpha = (c.isUpper || c.isLower) := rfl
  have upper : c.isUpper = decide (65 ≤ c.val ∧ c.val ≤ 90) := rfl
  have lower : c.isLower = (decide (97 ≤ c.val) && decide (c.val ≤ 122)) := rfl
  simp [alpha, upper, lower, UInt32.le_iff_toNat_le, ← Char.toNat_val]

theorem isAlpha_of_isLower {c : Char} (h : c.isLower = true) : c.isAlpha = true :=
  isAlpha_iff.mpr (.inr (isLower_iff.mp h))

/-- The small letters of ASCII lie 32 places above the capitals. -/
theorem toNat_toLower (c : Char) :
    c.toLower.toNat = if 65 ≤ c.toNat ∧ c.toNat ≤ 90 then c.toNat + 32 else c.toNat := by
  have capital : (c.val ≥ 'A'.val ∧ c.val ≤ 'Z'.val) ↔ 65 ≤ c.toNat ∧ c.toNat ≤ 90 := by
    simp [UInt32.le_iff_toNat_le]
  split
  · rename_i range
    have small : c.toLower = ⟨c.val + ('a'.val - 'A'.val), _⟩ := dif_pos (capital.mpr range)
    rw [small, ← Char.toNat_val, UInt32.toNat_add]
    change (c.toNat + 32) % 4294967296 = _
    omega
  · rename_i other
    have same : c.toLower = c := dif_neg (mt capital.mp other)
    rw [same]

theorem toNat_toUpper (c : Char) :
    c.toUpper.toNat = if 97 ≤ c.toNat ∧ c.toNat ≤ 122 then c.toNat - 32 else c.toNat := by
  have small : ('a'.val ≤ c.val ∧ c.val ≤ 'z'.val) ↔ 97 ≤ c.toNat ∧ c.toNat ≤ 122 := by
    simp [UInt32.le_iff_toNat_le]
  split
  · rename_i range
    have capital : c.toUpper = ⟨c.val + ('A'.val - 'a'.val), _⟩ := dif_pos (small.mpr range)
    rw [capital, ← Char.toNat_val, UInt32.toNat_add]
    -- the difference of the two letters is negative, so it wraps round
    change (c.toNat + 4294967264) % 4294967296 = _
    omega
  · rename_i other
    have same : c.toUpper = c := dif_neg (mt small.mp other)
    rw [same]

theorem isAlpha_toLower (c : Char) : c.toLower.isAlpha = c.isAlpha := by
  rw [Bool.eq_iff_iff, isAlpha_iff, isAlpha_iff, toNat_toLower]
  split <;> omega

theorem toLower_eq_iff {c letter : Char} (small : letter.isLower = true) :
    c.toLower = letter ↔ c = letter ∨ c = letter.toUpper := by
  have range := isLower_iff.mp small
  simp only [← Char.toNat_inj, toNat_toLower, toNat_toUpper, if_pos range]
  split <;> omega

/-- A visible character of ASCII is not blank. -/
theorem isBlank_eq_false {c : Char} (low : 33 ≤ c.toNat) (high : c.toNat ≤ 126) :
    isBlank c = false := by
  simp only [isBlank, Bool.or_eq_false_iff, Bool.and_eq_false_iff, decide_eq_false_iff_not,
    beq_eq_false_iff_ne]
  omega

theorem isBlank_of_isDigit {c : Char} (h : c.isDigit = true) : isBlank c = false := by
  obtain ⟨low, high⟩ := isDigit_iff.mp h
  exact isBlank_eq_false (by omega) (by omega)

theorem isBlank_of_isAlpha {c : Char} (h : c.isAlpha = true) : isBlank c = false := by
  have range := isAlpha_iff.mp h
  exact isBlank_eq_false (by omega) (by omega)

theorem isAlpha_of_isDigit {c : Char} (h : c.isDigit = true) : c.isAlpha = false := by
  obtain ⟨low, high⟩ := isDigit_iff.mp h
  rw [Bool.eq_false_iff, ne_eq, isAlpha_iff]
  omega

end Destructure.Text
