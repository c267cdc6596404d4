import Destructure.Proofs.Numeral
import Mathlib.Tactic.Ring

/-! # Decimals written out

The positional layout of a decimal is a numeral of the same value, and the text of an integer is the
numeral of its digits.
-/

namespace Destructure.Decimal

theorem isDigit_of_mem_digits {n : Nat} {c : Char} (h : c ∈ digits n) : c.isDigit = true :=
  Nat.isDigit_of_mem_toDigits (by decide) (by decide) h

theorem digits_ne_nil (n : Nat) : digits n ≠ [] :=
  Nat.toDigits_ne_nil

/-- Only zero is written with a zero in front. -/
theorem eq_zero_of_head_digits {n : Nat} (h : (digits n).head? = some '0') : n = 0 := by
  induction n using Nat.strongRecOn with
  | ind n ih =>
      have single : ∀ m < 10, [Nat.digitChar m].head? = some '0' → m = 0 := by decide
      rw [digits, Nat.toDigits_eq_if (by decide)] at h
      split at h
      · rename_i small
        exact single n small h
      · rename_i large
        obtain ⟨d, others, front⟩ := List.exists_cons_of_ne_nil (digits_ne_nil (n / 10))
        have shorter := ih (n / 10) (by omega)
        rw [digits] at front shorter
        rw [front] at h shorter
        have zero := shorter h
        omega

theorem ofDigits_append (s t : List Char) :
    ofDigits (s ++ t) = ofDigits s * 10 ^ t.length + ofDigits t := by
  rw [ofDigits, Nat.ofDigitChars_append, Nat.ofDigitChars_eq_ofDigitChars_zero, Nat.mul_comm]
  rfl

theorem ofDigits_leftpad (n places : Nat) : ofDigits ((digits n).leftpad places '0') = n := by
  have zeros : ∀ k, ofDigits (List.replicate k '0') = 0 := by
    intro k
    rw [ofDigits, Nat.ofDigitChars_replicate_zero, Nat.mul_zero]
  rw [List.leftpad, ofDigits_append, zeros, Nat.zero_mul, Nat.zero_add, ofDigits_digits]

theorem length_leftpad_digits {n places : Nat} (positive : 0 < places) (small : n < 10 ^ places) :
    ((digits n).leftpad places '0').length = places := by
  have := (Nat.length_toDigits_le_iff (b := 10) (by decide) positive).mpr small
  rw [List.length_leftpad]
  exact Nat.max_eq_left this

theorem numerator_whole (negative : Bool) (n : Nat) : numerator ⟨negative, n, 0⟩ = n :=
  Nat.mul_one n

theorem denominator_whole (negative : Bool) (n : Nat) : denominator ⟨negative, n, 0⟩ = 1 :=
  rfl

def integerNumeral (i : Int) : Numeral where
  negative := decide (i < 0)
  whole := digits i.natAbs
  fraction := []

theorem integer_eq_text (i : Int) : integer i = (integerNumeral i).text := by
  rw [integer, Numeral.text, integerNumeral, List.isEmpty_nil, if_pos rfl, List.append_nil]

theorem integerNumeral_proper (i : Int) : (integerNumeral i).Proper where
  whole_ne_nil := digits_ne_nil _
  whole_digits _ := isDigit_of_mem_digits
  fraction_digits _ member := absurd member List.not_mem_nil

theorem integer_integerNumeral (i : Int) : (integerNumeral i).integer = i := by
  simp only [Numeral.integer, integerNumeral, ofDigits_digits, decide_eq_true_eq]
  split <;> omega

def positionalNumeral (d : Decimal) : Numeral where
  negative := d.negative
  whole := if 0 ≤ d.exponent then digits d.numerator else digits (d.coefficient / d.denominator)
  fraction :=
    if 0 ≤ d.exponent then ['0']
    else (digits (d.coefficient % d.denominator)).leftpad (-d.exponent).toNat '0'

theorem fraction_ne_nil (d : Decimal) : d.positionalNumeral.fraction ≠ [] := by
  simp only [positionalNumeral]
  split
  · exact List.cons_ne_nil _ _
  · have := List.length_pos_iff.mpr (digits_ne_nil (d.coefficient % d.denominator))
    rw [← List.length_pos_iff, List.length_leftpad]
    omega

theorem positional_eq_text (d : Decimal) : d.positional = d.positionalNumeral.text := by
  rw [Numeral.text, List.isEmpty_eq_false_iff.mpr d.fraction_ne_nil, if_neg Bool.false_ne_true,
    positional, positionalNumeral]
  split <;> simp only [List.append_assoc]

theorem positionalNumeral_proper (d : Decimal) : d.positionalNumeral.Proper := by
  rw [positionalNumeral]
  constructor
  · split <;> exact digits_ne_nil _
  · intro c
    split <;> exact isDigit_of_mem_digits
  · intro c member
    split at member
    · rw [List.mem_singleton.mp member]
      rfl
    · rcases List.mem_append.mp member with zero | digit
      · rw [List.eq_of_mem_replicate zero]
        rfl
      · exact isDigit_of_mem_digits digit

theorem positionalNumeral_value (d : Decimal) :
    (d.positionalNumeral.toDecimal 0).numerator * d.denominator =
      d.numerator * (d.positionalNumeral.toDecimal 0).denominator := by
  by_cases whole : 0 ≤ d.exponent
  · have shape : d.positionalNumeral.toDecimal 0 = ⟨d.negative, d.numerator * 10, -1⟩ := by
      rw [Numeral.toDecimal, positionalNumeral, if_pos whole, if_pos whole, ofDigits_append,
        ofDigits_digits]
      rfl
    have denominator : d.denominator = 1 := by
      rw [Decimal.denominator, show (-d.exponent).toNat = 0 by omega, Nat.pow_eq, Nat.pow_zero]
    rw [shape, denominator, Nat.mul_one]
    exact Nat.mul_one _
  · have fractional : 0 < (-d.exponent).toNat := by omega
    have small : d.coefficient % d.denominator < 10 ^ (-d.exponent).toNat :=
      Nat.mod_lt _ d.denominator_pos
    have same : d.positionalNumeral.toDecimal 0 = d := by
      rw [Numeral.toDecimal, positionalNumeral, if_neg whole, if_neg whole, ofDigits_append,
        ofDigits_digits, ofDigits_leftpad, length_leftpad_digits fractional small]
      refine congrArg₂ (Decimal.mk d.negative) ?_ (by omega)
      exact Nat.div_add_mod' d.coefficient d.denominator
    rw [same]

end Destructure.Decimal
