import Destructure.Binary64.Shortest
import Destructure.Proofs.Binary64.Rounding

/-! # Rounding decimals and writing numbers as decimals

A decimal rounds like every other decimal of its value; the shortcuts for very large and very small
decimals make no difference.  The decimals that a number is written as round to the number.
-/

namespace Destructure.Binary64

theorem ofRank_of_lt {rank : Nat} (h : rank < magnitudes) (negative : Bool) :
    ofRank negative rank = finite negative ⟨rank, h⟩ :=
  dif_pos h

theorem ofRank_of_le {rank : Nat} (h : magnitudes ≤ rank) (negative : Bool) :
    ofRank negative rank = infinite negative :=
  dif_neg (Nat.not_lt_of_le h)

theorem overflow_le_of_exponent {d : Decimal} (nonzero : d.coefficient ≠ 0)
    (large : 310 < d.exponent) : overflow * d.denominator ≤ d.numerator := by
  have whole : d.denominator = 1 := by
    rw [Decimal.denominator, show (-d.exponent).toNat = 0 by omega, Nat.pow_eq, Nat.pow_zero]
  have bound : overflow ≤ 10 ^ 311 := by decide +kernel
  have power : 10 ^ 311 ≤ 10 ^ d.exponent.toNat := by
    rw [Nat.pow_le_pow_iff_right (by decide)]
    omega
  rw [whole, Nat.mul_one, Decimal.numerator]
  exact Nat.le_trans (Nat.le_trans bound power) (Nat.le_mul_of_pos_left _ (by omega))

theorem small_of_exponent {d : Decimal}
    (small : (d.coefficient.log2 + 1080 : Int) < -(3 * d.exponent)) :
    2 * (d.numerator * 2 ^ 1074) < d.denominator := by
  obtain ⟨places, negative⟩ : ∃ places : Nat, d.exponent = -places := ⟨(-d.exponent).toNat, by omega⟩
  have numerator : d.numerator = d.coefficient := by
    rw [Decimal.numerator, show d.exponent.toNat = 0 by omega]
    exact Nat.mul_one _
  have denominator : d.denominator = 10 ^ places := by
    rw [Decimal.denominator, show (-d.exponent).toNat = places by omega]
    rfl
  rw [numerator, denominator]
  calc 2 * (d.coefficient * 2 ^ 1074)
      < 2 * (2 ^ (d.coefficient.log2 + 1) * 2 ^ 1074) := by
        have := Nat.lt_log2_self (n := d.coefficient)
        have := Nat.mul_lt_mul_of_pos_right this (Nat.two_pow_pos 1074)
        omega
    _ = 2 ^ (d.coefficient.log2 + 1076) := by
        rw [← Nat.pow_add, ← Nat.pow_succ']
    _ ≤ 2 ^ (3 * places) := Nat.pow_le_pow_right (by decide) (by omega)
    _ = 8 ^ places := by rw [Nat.pow_mul]
    _ ≤ 10 ^ places := Nat.pow_le_pow_left (by decide) places

/-- The shortcuts do not change the result. -/
theorem ofDecimal_eq (d : Decimal) :
    ofDecimal d = ofRank d.negative (nearestRank d.numerator d.denominator) := by
  rw [ofDecimal]
  split
  · rename_i zero
    rw [Decimal.numerator, zero, Nat.zero_mul, nearestRank_zero d.denominator_pos]
  · rename_i nonzero
    split
    · rename_i large
      have past := (magnitudes_le_nearestRank_iff d.denominator_pos).mpr
        (overflow_le_of_exponent nonzero large)
      rw [ofRank_of_le past]
    · split
      · rename_i small
        rw [nearestRank_eq_zero (small_of_exponent small)]
      · rfl

theorem ofDecimal_congr {d d' : Decimal} (sign : d.negative = d'.negative)
    (value : d.numerator * d'.denominator = d'.numerator * d.denominator) :
    ofDecimal d = ofDecimal d' := by
  rw [ofDecimal_eq, ofDecimal_eq, sign, nearestRank_congr d.denominator_pos d'.denominator_pos value]

theorem ofDecimal_of_exact {d : Decimal} (rank : Fin magnitudes)
    (exact : d.numerator * 2 ^ 1074 = units rank * d.denominator) :
    ofDecimal d = finite d.negative rank := by
  rw [ofDecimal_eq, nearestRank_units d.denominator_pos exact, ofRank_of_lt rank.isLt]

theorem ofDecimal_eq_infinite_iff {d : Decimal} :
    (∃ negative, ofDecimal d = infinite negative) ↔ overflow * d.denominator ≤ d.numerator := by
  rw [ofDecimal_eq, ← magnitudes_le_nearestRank_iff d.denominator_pos]
  constructor
  · intro given
    obtain ⟨negative, h⟩ := given
    rcases Nat.lt_or_ge (nearestRank d.numerator d.denominator) magnitudes with below | past
    · rw [ofRank_of_lt below] at h
      cases h
    · exact past
  · exact fun past => ⟨_, ofRank_of_le past _⟩

theorem ofDecimal_ne_nan (d : Decimal) : ofDecimal d ≠ nan := by
  rw [ofDecimal_eq, ofRank]
  split <;> exact Binary64.noConfusion

/-! ## Decimals of a number -/

theorem ofDecimal_exactDecimal (negative : Bool) (rank : Fin magnitudes) :
    ofDecimal (exactDecimal negative rank) = finite negative rank := by
  have numerator : (exactDecimal negative rank).numerator = units rank * Nat.pow 5 1074 :=
    Nat.mul_one _
  have denominator : (exactDecimal negative rank).denominator = 10 ^ 1074 := by
    rw [Decimal.denominator, exactDecimal, Nat.pow_eq]
    rfl
  apply ofDecimal_of_exact rank
  rw [numerator, denominator]
  -- no power is computed
  generalize 1074 = k
  rw [Nat.mul_assoc, Nat.pow_eq, ← Nat.mul_pow]

theorem accepts_of_neighbour? {tie accepts d places found}
    (h : neighbour? tie accepts d places = some found) : accepts found = true := by
  simp only [neighbour?] at h
  split at h
  · rename_i below above
    split at h
    · cases h
      exact below
    · split at h
      · cases h
        exact above
      · split at h
        · cases h
          exact below
        · cases h
          exact above
  · rename_i below above
    cases h
    exact below
  · rename_i below above
    cases h
    exact above
  · cases h

theorem ofDecimal_shortest (tie : Tie) (negative : Bool) (rank : Fin magnitudes) :
    ofDecimal (shortest tie negative rank) = finite negative rank := by
  rw [shortest]
  split
  · rename_i zero
    obtain rfl : rank = ⟨0, by decide⟩ := Fin.ext zero
    rfl
  · simp only
    generalize search : List.findSome? _ (List.range 18) = result
    cases result with
    | none => exact ofDecimal_exactDecimal negative rank
    | some found =>
        obtain ⟨count, -, tested⟩ := List.exists_of_findSome?_eq_some search
        exact of_decide_eq_true (accepts_of_neighbour? tested)

end Destructure.Binary64
