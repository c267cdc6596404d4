import Destructure.Number
import Destructure.Proofs.Binary64.Rounding

/-! # Where numbers lie

Every number but `nan` has a position: an integer count of units of `2 ^ -1074`, or one of the two
ends of the line.  Two numbers are equal exactly if they have the same position, whatever their
kinds.  So equality is symmetric and transitive, though `nan` keeps it from being reflexive.
-/

namespace Destructure

/-- A place on the line of numbers. -/
inductive Position where
  /-- Below all finite numbers. -/
  | lowest
  /-- So many units above zero. -/
  | units (count : Int)
  /-- Above all finite numbers. -/
  | highest

namespace Binary64

/-- The value of a sign and a rank in units. -/
def signedUnits (negative : Bool) (rank : Nat) : Int :=
  if negative then -(units rank : Int) else units rank

/-- Zero has two signs, and every other value has one. -/
theorem signedUnits_inj {s t : Bool} {a b : Nat} :
    signedUnits s a = signedUnits t b ↔ a = b ∧ (s = t ∨ a = 0) := by
  have same := @units_inj a b
  have zero := @units_inj a 0
  have otherZero := @units_inj b 0
  rw [show units 0 = 0 from rfl] at zero otherZero
  cases s <;> cases t <;> simp only [signedUnits, reduceIte, Bool.false_eq_true, reduceCtorEq,
    true_or, false_or, and_true] <;> omega

/-- Where a number lies. -/
def position : Binary64 → Option Position
  | nan => none
  | infinite true => some .lowest
  | infinite false => some .highest
  | finite negative rank => some (.units (signedUnits negative rank))

theorem beq_iff_position {x y : Binary64} :
    (x == y) = true ↔ ∃ p, x.position = some p ∧ y.position = some p := by
  change beq x y = true ↔ _
  cases x with
  | nan => simp [beq, position]
  | infinite s => cases s <;> cases y with
      | nan => simp [beq, position]
      | infinite t => cases t <;> simp [beq, position]
      | finite t b => simp [beq, position]
  | finite s a =>
      cases y with
      | nan => simp [beq, position]
      | infinite t => cases t <;> simp [beq, position]
      | finite t b =>
          simp only [beq, position, Bool.and_eq_true, Bool.or_eq_true, beq_iff_eq, Fin.ext_iff,
            Option.some.injEq, exists_eq_left', Position.units.injEq]
          rw [eq_comm (a := signedUnits t b), signedUnits_inj]

/-! ## Comparison with integers -/

theorem signedUnits_eq_iff {negative : Bool} {rank : Nat} {count : Int} :
    signedUnits negative rank = count ↔ (units rank : Int) = if negative then -count else count := by
  cases negative with
  | false => rfl
  | true => exact neg_eq_iff_eq_neg

/-- A number has no fraction exactly if it lies at an integer. -/
theorem isWhole_iff {x : Binary64} :
    x.isWhole = true ↔ ∃ i : Int, x.position = some (.units (i * one)) := by
  cases x with
  | nan => simp [isWhole, position]
  | infinite negative => cases negative <;> simp [isWhole, position]
  | finite negative rank =>
      simp only [isWhole, position, beq_iff_eq, Option.some.injEq, Position.units.injEq,
        signedUnits_eq_iff]
      constructor
      · intro whole
        obtain ⟨m, exact⟩ := Nat.dvd_of_mod_eq_zero whole
        refine ⟨if negative then -m else m, ?_⟩
        rw [exact, Nat.cast_mul, Int.mul_comm]
        cases negative <;> simp
      · rintro ⟨i, place⟩
        have divides : (one : Int) ∣ units rank := by
          cases negative with
          | false => exact ⟨i, place.trans (Int.mul_comm _ _)⟩
          | true => exact Int.dvd_neg.mp ⟨i, (neg_eq_iff_eq_neg.mpr place).trans (Int.mul_comm _ _)⟩
        exact Nat.mod_eq_zero_of_dvd (Int.natCast_dvd_natCast.mp divides)

section

variable {x : Binary64} {i : Int} (place : x.position = some (.units (i * one)))
include place

/-- A number that lies at an integer is in range exactly if the integer is. -/
theorem inRange_iff : x.inRange = true ↔ -2 ^ 63 ≤ i ∧ i < 2 ^ 63 := by
  have positive : (0 : Int) < one := Int.natCast_pos.mpr one_pos
  cases x with
  | nan => cases place
  | infinite negative => cases negative <;> cases place
  | finite negative rank =>
      simp only [position, Option.some.injEq, Position.units.injEq, signedUnits_eq_iff] at place
      have nonneg {m : Int} (exact : (units rank : Int) = m * one) : 0 ≤ m := by
        apply nonneg_of_mul_nonneg_left _ positive
        rw [← exact]
        exact Int.natCast_nonneg _
      cases negative with
      | false =>
          simp only [Bool.false_eq_true, if_false] at place
          have least := nonneg place
          have most : units rank < 0x8000000000000000 * one ↔ i < 0x8000000000000000 := by
            rw [← Int.ofNat_lt, place, Nat.cast_mul]
            exact mul_lt_mul_iff_of_pos_right positive
          rw [inRange, decide_eq_true_iff, most]
          omega
      | true =>
          simp only [if_true, ← Int.neg_mul] at place
          have most := nonneg place
          have least : units rank ≤ 0x8000000000000000 * one ↔ -i ≤ 0x8000000000000000 := by
            rw [← Int.ofNat_le, place, Nat.cast_mul]
            exact mul_le_mul_iff_of_pos_right positive
          rw [inRange, decide_eq_true_iff, least]
          omega

/-- A number that lies at an integer is cut down to the integer. -/
theorem toInt64_eq : x.toInt64 = Int64.ofIntClamp i := by
  have nonzero : (one : Int) ≠ 0 := Int.natCast_ne_zero.mpr one_pos.ne'
  cases x with
  | nan => cases place
  | infinite negative => cases negative <;> cases place
  | finite negative rank =>
      simp only [position, Option.some.injEq, Position.units.injEq, signedUnits_eq_iff] at place
      rw [toInt64, Int.natCast_ediv, place]
      cases negative with
      | false => exact congrArg _ (Int.mul_ediv_cancel i nonzero)
      | true =>
          simp only [if_true]
          rw [← Int.neg_mul, Int.mul_ediv_cancel _ nonzero, Int.neg_neg]

end

/-- A number equals an integer of 64 bits if it lies at the integer. -/
theorem equalsInt_iff {x : Binary64} {i : Int64} :
    x.equalsInt i = true ↔ x.position = some (.units (i.toInt * one)) := by
  simp only [equalsInt, Bool.and_eq_true, beq_iff_eq]
  constructor
  · rintro ⟨⟨whole, inside⟩, same⟩
    obtain ⟨j, place⟩ := isWhole_iff.mp whole
    obtain ⟨least, most⟩ := (inRange_iff place).mp inside
    rw [← same, toInt64_eq place, Int64.toInt_ofIntClamp least (Int.le_of_lt_add_one most)]
    exact place
  · intro place
    refine ⟨⟨isWhole_iff.mpr ⟨_, place⟩, (inRange_iff place).mpr ⟨i.le_toInt, i.toInt_lt⟩⟩, ?_⟩
    rw [toInt64_eq place, Int64.ofIntClamp_toInt]

end Binary64

namespace Number

def position : Number → Option Position
  | int i => some (.units (i.toInt * Binary64.one))
  | float x => x.position

/-- Numbers are equal if they lie in one place. -/
theorem beq_iff_position {m n : Number} :
    (m == n) = true ↔ ∃ p, m.position = some p ∧ n.position = some p := by
  have nonzero : (Binary64.one : Int) ≠ 0 := by
    have := Binary64.one_pos
    omega
  cases m with
  | int i =>
      cases n with
      | int j =>
          change (i == j) = true ↔ _
          simp only [position, Option.some.injEq, exists_eq_left', Position.units.injEq, beq_iff_eq]
          rw [Int.mul_eq_mul_right_iff nonzero, Int64.toInt_inj, eq_comm]
      | float x =>
          change x.equalsInt i = true ↔ _
          simp only [Binary64.equalsInt_iff, position, Option.some.injEq, exists_eq_left']
  | float x =>
      cases n with
      | int i =>
          change x.equalsInt i = true ↔ _
          simp only [Binary64.equalsInt_iff, position, Option.some.injEq, exists_eq_right']
      | float y => exact Binary64.beq_iff_position

instance : PartialEquivBEq Number where
  symm same := by
    rw [beq_iff_position] at same ⊢
    obtain ⟨p, left, right⟩ := same
    exact ⟨p, right, left⟩
  trans first second := by
    rw [beq_iff_position] at first second ⊢
    obtain ⟨p, left, middle⟩ := first
    obtain ⟨q, middle', right⟩ := second
    rw [middle, Option.some.injEq] at middle'
    exact ⟨p, left, middle' ▸ right⟩

end Number

end Destructure
