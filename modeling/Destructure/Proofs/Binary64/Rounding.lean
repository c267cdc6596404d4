import Destructure.Binary64.Rounding
import Mathlib.Data.Nat.Basic
import Mathlib.Tactic.Ring
import Mathlib.Tactic.Linarith

/-! # The nearest rank of a fraction

The nearest rank depends on the value of a fraction only, and the value of a rank is nearest to that
rank.  It lies past the largest rank exactly from `2 ^ 1024 - 2 ^ 970` on, which is half-way between
the largest finite magnitude and the power of two above it.
-/

namespace Destructure.Binary64

/-! ## Fractions -/

theorem roundHalfEven_mul {k : Nat} (positive : 0 < k) (n d : Nat) :
    roundHalfEven (n * k) (d * k) = roundHalfEven n d := by
  have quotient : n * k / (d * k) = n / d := Nat.mul_div_mul_right n d positive
  have remainder : n * k % (d * k) = n % d * k := Nat.mul_mod_mul_right k n d
  have below : 2 * (n % d * k) < d * k ↔ 2 * (n % d) < d := by
    rw [← Nat.mul_assoc, Nat.mul_lt_mul_right positive]
  have above : d * k < 2 * (n % d * k) ↔ d < 2 * (n % d) := by
    rw [← Nat.mul_assoc, Nat.mul_lt_mul_right positive]
  simp only [roundHalfEven, quotient, remainder, below, above]

theorem roundHalfEven_exact (m : Nat) {d : Nat} (positive : 0 < d) :
    roundHalfEven (m * d) d = m := by
  have remainder : m * d % d = 0 := Nat.mul_mod_left m d
  simp only [roundHalfEven, Nat.mul_div_cancel m positive, remainder, Nat.mul_zero, positive,
    if_true]

theorem le_roundHalfEven (n d : Nat) : n / d ≤ roundHalfEven n d := by
  simp only [roundHalfEven]
  split
  · exact Nat.le_refl _
  · split <;> omega

theorem roundHalfEven_le (n d : Nat) : roundHalfEven n d ≤ n / d + 1 := by
  simp only [roundHalfEven]
  split
  · omega
  · split <;> omega

theorem roundHalfEven_eq_zero {n d : Nat} (small : 2 * n < d) : roundHalfEven n d = 0 := by
  have quotient : n / d = 0 := Nat.div_eq_of_lt (by omega)
  have remainder : n % d = n := Nat.mod_eq_of_lt (by omega)
  simp only [roundHalfEven, quotient, remainder, small, if_true]

theorem nearestRank_eq (n d : Nat) : nearestRank n d =
    ((n * 2 ^ 1074 / d).log2 - 52) * binade +
      roundHalfEven (n * 2 ^ 1074) (d * 2 ^ ((n * 2 ^ 1074 / d).log2 - 52)) := by
  rw [← Nat.shiftLeft_eq, ← Nat.shiftLeft_eq, nearestRank]

theorem nearestRank_mul {k : Nat} (positive : 0 < k) (n d : Nat) :
    nearestRank (n * k) (d * k) = nearestRank n d := by
  have quotient : n * 2 ^ 1074 * k / (d * k) = n * 2 ^ 1074 / d :=
    Nat.mul_div_mul_right _ _ positive
  rw [nearestRank_eq, nearestRank_eq, Nat.mul_right_comm n k, quotient, Nat.mul_right_comm d k,
    roundHalfEven_mul positive]

theorem nearestRank_congr {n d n' d' : Nat} (positive : 0 < d) (positive' : 0 < d')
    (same : n * d' = n' * d) : nearestRank n d = nearestRank n' d' := by
  calc nearestRank n d = nearestRank (n * d') (d * d') := (nearestRank_mul positive' n d).symm
    _ = nearestRank (n' * d) (d' * d) := by rw [same, Nat.mul_comm d d']
    _ = nearestRank n' d' := nearestRank_mul positive n' d'

/-! ## Values of ranks -/

/-- A rank is a significand and how often the spacing of the format is doubled for it. -/
theorem exists_significand (rank : Nat) : ∃ m k, units rank = m * 2 ^ k ∧ rank = k * binade + m ∧
    m < 2 * binade ∧ (k = 0 ∨ binade ≤ m) := by
  rw [units]
  split
  · exact ⟨rank, 0, by omega, by omega, by omega, .inl rfl⟩
  · refine ⟨binade + rank % binade, rank / binade - 1, Nat.shiftLeft_eq _ _, ?_, ?_, ?_⟩
    all_goals
      simp only [binade] at *
      omega

theorem log2_significand {m k : Nat} (bound : m < 2 * binade) (normal : k = 0 ∨ binade ≤ m) :
    (m * 2 ^ k).log2 - 52 = k := by
  by_cases full : binade ≤ m
  · have log : (m * 2 ^ k).log2 = 52 + k := by
      have nonzero : m * 2 ^ k ≠ 0 := by
        have := Nat.two_pow_pos k
        exact Nat.mul_ne_zero (by omega) (by omega)
      rw [Nat.log2_eq_iff nonzero, Nat.pow_add, show 52 + k + 1 = 53 + k by omega, Nat.pow_add]
      exact ⟨Nat.mul_le_mul_right _ full, Nat.mul_lt_mul_of_pos_right bound (Nat.two_pow_pos k)⟩
    omega
  · obtain rfl : k = 0 := normal.resolve_right full
    rw [Nat.pow_zero, Nat.mul_one]
    by_cases zero : m = 0
    · subst zero
      rfl
    · have := (Nat.log2_lt (k := 52) zero).mpr (Nat.lt_of_not_le full)
      omega

theorem nearestRank_units {n d rank : Nat} (positive : 0 < d)
    (exact : n * 2 ^ 1074 = units rank * d) : nearestRank n d = rank := by
  obtain ⟨m, k, value, split, bound, normal⟩ := exists_significand rank
  have quotient : m * 2 ^ k * d / d = m * 2 ^ k := Nat.mul_div_cancel _ positive
  have rounded : roundHalfEven (m * 2 ^ k * d) (d * 2 ^ k) = m := by
    rw [Nat.mul_assoc, Nat.mul_comm (2 ^ k)]
    exact roundHalfEven_exact m (Nat.mul_pos positive (Nat.two_pow_pos k))
  rw [nearestRank_eq, exact, value, quotient, log2_significand bound normal, rounded]
  exact split.symm

theorem nearestRank_zero {d : Nat} (positive : 0 < d) : nearestRank 0 d = 0 :=
  nearestRank_units positive (by rw [Nat.zero_mul, show units 0 = 0 from rfl, Nat.zero_mul])

theorem one_eq : one = 2 ^ 1074 := by
  decide +kernel

theorem one_pos : 0 < one := by
  decide +kernel

/-- Different ranks have different values, since a rank is the nearest one to its own value. -/
theorem units_inj {a b : Nat} : units a = units b ↔ a = b := by
  have nearest : ∀ rank, nearestRank (units rank) one = rank := by
    intro rank
    apply nearestRank_units one_pos
    rw [one_eq]
  constructor
  · intro same
    rw [← nearest a, same, nearest b]
  · intro same
    rw [same]

/-! ## Very small and very large fractions -/

theorem nearestRank_eq_zero {n d : Nat} (small : 2 * (n * 2 ^ 1074) < d) : nearestRank n d = 0 := by
  have quotient : n * 2 ^ 1074 / d = 0 := Nat.div_eq_of_lt (by omega)
  rw [nearestRank_eq, quotient, Nat.log2_zero, Nat.zero_sub, Nat.zero_mul, Nat.pow_zero, Nat.mul_one,
    roundHalfEven_eq_zero small]

/-- The least magnitude that is infinite, half-way from the largest finite one to `2 ^ 1024`. -/
def overflow : Nat :=
  2 ^ 1024 - 2 ^ 970

theorem overflow_mul : overflow * 2 ^ 1074 = (2 * (2 ^ 53 - 1) + 1) * 2 ^ 2044 := by
  decide +kernel

/-- Above an odd number the half rounds up. -/
theorem lt_roundHalfEven_iff {m n d : Nat} (positive : 0 < d) (odd : m % 2 = 1) :
    m < roundHalfEven n d ↔ (2 * m + 1) * d ≤ 2 * n := by
  have split := Nat.div_add_mod n d
  have small := Nat.mod_lt n positive
  rcases Nat.lt_trichotomy (n / d) m with less | same | more
  · have upper := roundHalfEven_le n d
    have step : d * (n / d + 1) ≤ d * m := Nat.mul_le_mul_left d less
    have : ¬ (2 * m + 1) * d ≤ 2 * n := by
      intro above
      nlinarith
    omega
  · have : (2 * m + 1) * d = 2 * (d * (n / d)) + d := by
      rw [same]
      ring
    simp only [roundHalfEven]
    split
    · omega
    · split <;> omega
  · have lower := le_roundHalfEven n d
    have step : d * (m + 1) ≤ d * (n / d) := Nat.mul_le_mul_left d more
    have : (2 * m + 1) * d ≤ 2 * (d * (m + 1)) := by
      rw [Nat.mul_comm d, ← Nat.mul_assoc]
      exact Nat.mul_le_mul_right d (by omega)
    omega

/-- A fraction of `2 ^ l` units up to twice as many lies in the binade of that number. -/
theorem nearestRank_binade {n d l : Nat} (lower : 2 ^ (52 + l) ≤ n * 2 ^ 1074 / d)
    (upper : n * 2 ^ 1074 / d < 2 ^ (53 + l)) :
    nearestRank n d = l * binade + roundHalfEven (n * 2 ^ 1074) (d * 2 ^ l) := by
  have nonzero : n * 2 ^ 1074 / d ≠ 0 :=
    Nat.ne_of_gt (Nat.lt_of_lt_of_le (Nat.two_pow_pos _) lower)
  have log : (n * 2 ^ 1074 / d).log2 = 52 + l := by
    rw [Nat.log2_eq_iff nonzero, show 52 + l + 1 = 53 + l by omega]
    exact ⟨lower, upper⟩
  rw [nearestRank_eq, log, Nat.add_sub_cancel_left]

theorem nearestRank_bounds {n d l : Nat} (lower : 2 ^ (52 + l) ≤ n * 2 ^ 1074 / d)
    (upper : n * 2 ^ 1074 / d < 2 ^ (53 + l)) :
    l * binade + binade ≤ nearestRank n d ∧ nearestRank n d ≤ l * binade + 2 * binade := by
  have quotient : n * 2 ^ 1074 / (d * 2 ^ l) = n * 2 ^ 1074 / d / 2 ^ l :=
    (Nat.div_div_eq_div_mul _ _ _).symm
  have least : binade ≤ n * 2 ^ 1074 / (d * 2 ^ l) := by
    rw [quotient, Nat.le_div_iff_mul_le (Nat.two_pow_pos l)]
    rwa [Nat.pow_add] at lower
  have most : n * 2 ^ 1074 / (d * 2 ^ l) < 2 * binade := by
    rw [quotient, Nat.div_lt_iff_lt_mul (Nat.two_pow_pos l)]
    rwa [Nat.pow_add] at upper
  have atLeast := le_roundHalfEven (n * 2 ^ 1074) (d * 2 ^ l)
  have atMost := roundHalfEven_le (n * 2 ^ 1074) (d * 2 ^ l)
  rw [nearestRank_binade lower upper]
  generalize n * 2 ^ 1074 / (d * 2 ^ l) = q at *
  omega

theorem nearestRank_of_small {n d : Nat} (small : n * 2 ^ 1074 / d < 2 ^ 52) :
    nearestRank n d ≤ binade := by
  have doublings : (n * 2 ^ 1074 / d).log2 - 52 = 0 := by
    have := log2_significand (k := 0) (Nat.lt_trans small (by decide)) (.inl rfl)
    rwa [Nat.pow_zero, Nat.mul_one] at this
  have := roundHalfEven_le (n * 2 ^ 1074) d
  rw [nearestRank_eq, doublings, Nat.zero_mul, Nat.zero_add, Nat.pow_zero, Nat.mul_one]
  exact Nat.le_trans this small

theorem exists_binade {u : Nat} (normal : 2 ^ 52 ≤ u) : ∃ l, 2 ^ (52 + l) ≤ u ∧ u < 2 ^ (53 + l) := by
  have nonzero : u ≠ 0 := Nat.ne_of_gt (Nat.lt_of_lt_of_le (Nat.two_pow_pos 52) normal)
  have least := (Nat.le_log2 nonzero).mpr normal
  refine ⟨u.log2 - 52, ?_, ?_⟩
  · rw [Nat.add_sub_cancel' least]
    exact Nat.log2_self_le nonzero
  · rw [show 53 + (u.log2 - 52) = u.log2 + 1 by omega]
    exact Nat.lt_log2_self

/-- A rank past a binade is nearest from half a spacing below the end of that binade on. -/
theorem le_nearestRank_iff {n d : Nat} (positive : 0 < d) (b : Nat) :
    (b + 3) * binade ≤ nearestRank n d ↔
      (2 * (2 ^ 53 - 1) + 1) * 2 ^ b ≤ n * 2 ^ 1074 / d := by
  rcases Nat.lt_or_ge (n * 2 ^ 1074 / d) (2 ^ 52) with small | normal
  · have rank := nearestRank_of_small small
    have below : 2 ^ 52 * 1 ≤ (2 * (2 ^ 53 - 1) + 1) * 2 ^ b :=
      Nat.mul_le_mul (by decide) (Nat.two_pow_pos b)
    constructor
    · intro h
      simp only [binade] at *
      omega
    · intro h
      exact absurd small (Nat.not_lt_of_le (Nat.le_trans below h))
  · obtain ⟨l, lower, upper⟩ := exists_binade normal
    obtain ⟨least, most⟩ := nearestRank_bounds lower upper
    rcases Nat.lt_trichotomy l (b + 1) with fewer | rfl | more
    · have spacing : 2 ^ l ≤ 2 ^ b := Nat.pow_le_pow_right Nat.zero_lt_two (Nat.le_of_lt_succ fewer)
      have below : 2 ^ (53 + l) ≤ (2 * (2 ^ 53 - 1) + 1) * 2 ^ b := by
        rw [Nat.pow_add]
        exact Nat.mul_le_mul (by decide) spacing
      constructor
      · intro h
        simp only [binade] at *
        omega
      · intro h
        exact absurd upper (Nat.not_lt_of_le (Nat.le_trans below h))
    · have odd := lt_roundHalfEven_iff (m := 2 ^ 53 - 1) (n := n * 2 ^ 1074)
        (Nat.mul_pos positive (Nat.two_pow_pos (b + 1))) (by decide)
      have half : (2 * (2 ^ 53 - 1) + 1) * (d * 2 ^ (b + 1)) ≤ 2 * (n * 2 ^ 1074) ↔
          (2 * (2 ^ 53 - 1) + 1) * 2 ^ b ≤ n * 2 ^ 1074 / d := by
        have double : (2 * (2 ^ 53 - 1) + 1) * (d * 2 ^ (b + 1)) =
            2 * ((2 * (2 ^ 53 - 1) + 1) * 2 ^ b * d) := by
          rw [Nat.pow_succ]
          ring
        rw [Nat.le_div_iff_mul_le positive, double, Nat.mul_le_mul_left_iff Nat.zero_lt_two]
      rw [nearestRank_binade lower upper, ← half, ← odd]
      simp only [binade]
      omega
    · have spacing : 2 ^ (b + 2) ≤ 2 ^ l := Nat.pow_le_pow_right Nat.zero_lt_two more
      have above : (2 * (2 ^ 53 - 1) + 1) * 2 ^ b ≤ 2 ^ (52 + l) := by
        rw [Nat.pow_add]
        refine Nat.le_trans ?_ (Nat.mul_le_mul_left _ spacing)
        rw [Nat.pow_add, Nat.mul_left_comm, Nat.mul_comm]
        exact Nat.mul_le_mul_left _ (by decide)
      constructor
      · intro _
        exact Nat.le_trans above lower
      · intro _
        simp only [binade] at *
        omega

/-- Exactly the fractions from `overflow` on have no finite nearest rank. -/
theorem magnitudes_le_nearestRank_iff {n d : Nat} (positive : 0 < d) :
    magnitudes ≤ nearestRank n d ↔ overflow * d ≤ n := by
  have top : magnitudes = (2044 + 3) * binade := rfl
  rw [top, le_nearestRank_iff positive, ← overflow_mul, Nat.le_div_iff_mul_le positive,
    Nat.mul_right_comm, Nat.mul_le_mul_right_iff (Nat.two_pow_pos 1074)]

end Destructure.Binary64
