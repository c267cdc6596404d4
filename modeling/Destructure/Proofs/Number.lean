import Destructure.Number
import Destructure.Proofs.Binary64.Shortest
import Destructure.Proofs.Decimal

/-! # Numbers and their numerals

Every number but the infinities and `nan` is displayed as a numeral that denotes it.  A numeral
denotes an infinity exactly if its value overflows.
-/

namespace Destructure

/-- The value rounds to an infinity. -/
def Numeral.Overflows (k : Numeral) : Prop :=
  Binary64.overflow * (k.toDecimal 0).denominator ≤ (k.toDecimal 0).numerator

namespace Number

def IsInfinite (n : Number) : Prop :=
  ∃ negative, n = float (.infinite negative)

/-- Holds of all numbers but the infinities and `nan`. -/
def IsFinite : Number → Prop
  | int _ => True
  | float x => x.isFinite = true

theorem ofInt?_toInt (i : Int64) : ofInt? i.toInt = some (int i) := by
  rw [ofInt?, if_pos ⟨i.minValue_le_toInt, i.toInt_le⟩, Int64.ofInt_toInt]

theorem ofNumeral_integerNumeral (i : Int64) :
    ofNumeral (Decimal.integerNumeral i.toInt) = int i := by
  rw [ofNumeral, Decimal.integer_integerNumeral, ofInt?_toInt]
  rfl

theorem ofNumeral_of_fraction {k : Numeral} (h : k.fraction ≠ []) :
    ofNumeral k = float (.ofDecimal (k.toDecimal 0)) := by
  rw [ofNumeral, Numeral.isIntegral, List.isEmpty_eq_false_iff.mpr h]
  rfl

theorem ofNumeral_positionalNumeral (d : Decimal) :
    ofNumeral d.positionalNumeral = float (.ofDecimal d) := by
  have same : Binary64.ofDecimal (d.positionalNumeral.toDecimal 0) = .ofDecimal d :=
    Binary64.ofDecimal_congr rfl d.positionalNumeral_value
  rw [ofNumeral_of_fraction d.fraction_ne_nil, same]

theorem ofNumeral_cases (k : Numeral) :
    (k.fraction = [] ∧ k.integer.natAbs ≤ 2 ^ 63 ∧ ∃ i, ofNumeral k = int i) ∨
      ofNumeral k = float (.ofDecimal (k.toDecimal 0)) := by
  rw [ofNumeral, ofInt?]
  split
  · rename_i number found
    split at found
    · rename_i integral
      split at found
      · rename_i inRange
        cases found
        refine .inl ⟨List.isEmpty_iff.mp integral, ?_, _, rfl⟩
        have least : Int64.minValue.toInt = -2 ^ 63 := rfl
        have most : Int64.maxValue.toInt = 2 ^ 63 - 1 := rfl
        omega
      · cases found
    · cases found
  · exact .inr rfl

theorem ofNumeral_ne_nan (k : Numeral) : ofNumeral k ≠ float .nan := by
  rcases ofNumeral_cases k with ⟨-, -, i, h⟩ | h
  · rw [h]
    exact Number.noConfusion
  · rw [h]
    intro nan
    exact Binary64.ofDecimal_ne_nan _ (Number.float.inj nan)

theorem not_overflows_of_integer {k : Numeral} (whole : k.fraction = [])
    (small : k.integer.natAbs ≤ 2 ^ 63) : ¬ k.Overflows := by
  have shape : k.toDecimal 0 = ⟨k.negative, Decimal.ofDigits k.whole, 0⟩ := by
    rw [Numeral.toDecimal, whole, List.append_nil]
    rfl
  have magnitude : k.integer.natAbs = Decimal.ofDigits k.whole := by
    simp only [Numeral.integer]
    split <;> omega
  have past : 2 ^ 63 < Binary64.overflow := by decide +kernel
  rw [Numeral.Overflows, shape, Decimal.numerator_whole, Decimal.denominator_whole]
  omega

/-- Overflow is the only way to an infinity. -/
theorem isInfinite_ofNumeral_iff (k : Numeral) : (ofNumeral k).IsInfinite ↔ k.Overflows := by
  rcases ofNumeral_cases k with ⟨whole, small, i, h⟩ | h
  · rw [h]
    constructor
    · intro given
      obtain ⟨negative, infinite⟩ := given
      cases infinite
    · exact fun above => absurd above (not_overflows_of_integer whole small)
  · rw [h, Numeral.Overflows, ← Binary64.ofDecimal_eq_infinite_iff]
    simp only [IsInfinite, float.injEq]

/-! ## Numerals of displayed numbers -/

theorem ofDecimal_whole (negative : Bool) (rank : Fin Binary64.magnitudes)
    (whole : Binary64.units rank % Binary64.one = 0) :
    Binary64.ofDecimal ⟨negative, Binary64.units rank / Binary64.one, 0⟩ =
      .finite negative rank := by
  have divides : Binary64.units rank / Binary64.one * Binary64.one = Binary64.units rank :=
    Nat.div_mul_cancel (Nat.dvd_of_mod_eq_zero whole)
  apply Binary64.ofDecimal_of_exact rank
  rw [Decimal.numerator_whole, Decimal.denominator_whole, Nat.mul_one, ← Binary64.one_eq, divides]

/-- The display of a number that is no infinity is a numeral of that number. -/
theorem exists_numeral {n : Number} (number : n ≠ float .nan) (bounded : ¬ n.IsInfinite) :
    ∃ k : Numeral, k.Proper ∧ n.display = k.text ∧ ofNumeral k = n := by
  cases n with
  | int i =>
      exact ⟨_, Decimal.integerNumeral_proper i.toInt, Decimal.integer_eq_text i.toInt,
        ofNumeral_integerNumeral i⟩
  | float x =>
      cases x with
      | nan => exact absurd rfl number
      | infinite negative => exact absurd ⟨negative, rfl⟩ bounded
      | finite negative rank =>
          rw [display]
          split
          · rename_i whole
            refine ⟨_, Decimal.positionalNumeral_proper _, Decimal.positional_eq_text _, ?_⟩
            rw [ofNumeral_positionalNumeral, ofDecimal_whole negative rank whole]
          · refine ⟨_, Decimal.positionalNumeral_proper _, Decimal.positional_eq_text _, ?_⟩
            rw [ofNumeral_positionalNumeral, Binary64.ofDecimal_shortest]

theorem IsFinite.exists_numeral {n : Number} (finite : n.IsFinite) :
    ∃ k : Numeral, k.Proper ∧ n.display = k.text ∧ ofNumeral k = n := by
  apply Number.exists_numeral
  · rintro rfl
    cases finite
  · rintro ⟨negative, rfl⟩
    cases finite

end Number

end Destructure
