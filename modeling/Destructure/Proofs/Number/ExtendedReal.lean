import Destructure.Proofs.Number.Position
import Mathlib.Data.EReal.Basic

/-! # What numbers denote

The 64 bits of a floating point number denote an extended real number by the rule of the format, and
an integer denotes itself.  Numbers are equal exactly if they denote the same: cutting a floating
point number down to an integer of 64 bits changes nothing where the comparison relies on it, so no
rounding takes part.
-/

namespace Destructure

namespace Binary64

/-- The magnitude of an exponent field and a fraction field.  The fraction goes with a leading one that
is not stored, but for the smallest exponent, which has none. -/
noncomputable def magnitude (exponent fraction : Nat) : ℝ :=
  if exponent = 0 then fraction * 2 ^ (-1074 : ℤ)
  else (binade + fraction) * 2 ^ ((exponent : ℤ) - 1075)

/-- The extended real number that 64 bits denote: one of them for the sign, eleven for the exponent
and 52 for the fraction.  The largest exponent stands for an infinity, or for no number at all if the
fraction is not zero. -/
noncomputable def decode? (bits : Nat) : Option EReal :=
  let negative := bits / 0x8000000000000000 % 2 = 1
  let exponent := bits / binade % 0x800
  let fraction := bits % binade
  if exponent = 0x7FF then
    if fraction = 0 then some (if negative then ⊥ else ⊤) else none
  else if negative then some ((-magnitude exponent fraction : ℝ) : EReal)
  else some (magnitude exponent fraction : EReal)

noncomputable def toEReal? (x : Binary64) : Option EReal :=
  decode? x.bits

end Binary64

noncomputable def Position.toEReal : Position → EReal
  | lowest => ⊥
  | units count => ((count * 2 ^ (-1074 : ℤ) : ℝ) : EReal)
  | highest => ⊤

theorem Position.toEReal_injective : Function.Injective Position.toEReal := by
  intro p q same
  cases p with
  | lowest =>
      cases q with
      | lowest => rfl
      | units n => exact absurd same (EReal.bot_ne_coe _)
      | highest => exact absurd same bot_ne_top
  | highest =>
      cases q with
      | lowest => exact absurd same top_ne_bot
      | units n => exact absurd same (EReal.top_ne_coe _)
      | highest => rfl
  | units m =>
      cases q with
      | lowest => exact absurd same (EReal.coe_ne_bot _)
      | highest => exact absurd same (EReal.coe_ne_top _)
      | units n =>
          have unit : (2 : ℝ) ^ (-1074 : ℤ) ≠ 0 := zpow_ne_zero _ two_ne_zero
          have counts : (m : ℝ) = n := mul_right_cancel₀ unit (EReal.coe_eq_coe_iff.mp same)
          rw [Int.cast_inj.mp counts]

namespace Binary64

/-- The fields of a rank are those of the bits. -/
theorem magnitude_fields (rank : Nat) :
    magnitude (rank / binade) (rank % binade) = units rank * 2 ^ (-1074 : ℤ) := by
  rw [magnitude, units]
  split
  · rename_i subnormal
    have small : rank < binade := (Nat.div_eq_zero_iff_lt (by decide)).mp subnormal
    rw [if_pos small, Nat.mod_eq_of_lt small]
  · rename_i normal
    have large : ¬ rank < binade := mt (Nat.div_eq_zero_iff_lt (by decide)).mpr normal
    obtain ⟨doublings, spacing⟩ := Nat.exists_eq_succ_of_ne_zero normal
    have power : (2 : ℝ) ^ ((rank / binade : ℕ) - 1075 : ℤ) =
        2 ^ doublings * 2 ^ (-1074 : ℤ) := by
      rw [← zpow_natCast, ← zpow_add₀ two_ne_zero, spacing]
      congr 1
      omega
    rw [if_neg large, Nat.shiftLeft_eq, power, spacing, Nat.succ_sub_one]
    push_cast
    ring

theorem decode?_fields {negative : Bool} {exponent fraction : Nat} (ordinary : exponent < 0x7FF)
    (proper : fraction < binade) :
    decode? (negative.toNat <<< 63 + (exponent * binade + fraction)) =
      some ((if negative then -magnitude exponent fraction else magnitude exponent fraction : ℝ) :
        EReal) := by
  have sign : negative.toNat ≤ 1 := Bool.toNat_le negative
  generalize pattern : negative.toNat <<< 63 + (exponent * binade + fraction) = bits
  rw [Nat.shiftLeft_eq] at pattern
  simp only [binade] at pattern proper
  have signField : bits / 0x8000000000000000 % 2 = negative.toNat := by omega
  have exponentField : bits / binade % 0x800 = exponent := by
    simp only [binade]
    omega
  have fractionField : bits % binade = fraction := by
    simp only [binade]
    omega
  simp only [decode?, signField, exponentField, fractionField, if_neg (Nat.ne_of_lt ordinary)]
  cases negative <;> simp

theorem toEReal?_eq (x : Binary64) : x.toEReal? = x.position.map Position.toEReal := by
  cases x with
  | nan => simp [toEReal?, decode?, bits, binade, position]
  | infinite negative =>
      cases negative <;>
        simp [toEReal?, decode?, bits, binade, magnitudes, position, Position.toEReal]
  | finite negative rank =>
      have bound := rank.isLt
      have split : rank.val = rank / binade * binade + rank % binade :=
        (Nat.div_add_mod' _ _).symm
      -- the infinities come right after the largest rank, so no rank has the largest exponent
      have ordinary : rank.val / binade < 0x7FF := by
        simp only [binade] at *
        omega
      have proper : rank.val % binade < binade := Nat.mod_lt _ (by decide)
      rw [toEReal?, bits, split, decode?_fields ordinary proper, magnitude_fields]
      cases negative <;> simp [position, Position.toEReal, signedUnits]

end Binary64

namespace Number

/-- The extended real number that a number denotes. -/
noncomputable def toEReal? : Number → Option EReal
  | int i => some ((i.toInt : ℝ) : EReal)
  | float x => x.toEReal?

theorem toEReal?_eq (a : Number) : a.toEReal? = a.position.map Position.toEReal := by
  cases a with
  | int i =>
      have unit : (Binary64.one : ℝ) * 2 ^ (-1074 : ℤ) = 1 := by
        rw [Binary64.one_eq, Nat.cast_pow, Nat.cast_ofNat, ← zpow_natCast, ← zpow_add₀ two_ne_zero]
        rfl
      simp only [toEReal?, position, Option.map_some, Position.toEReal, Option.some.injEq]
      rw [Int.cast_mul, Int.cast_natCast, mul_assoc, unit, mul_one]
  | float x => exact x.toEReal?_eq

theorem beq_iff_toEReal? {a b : Number} :
    (a == b) = true ↔ ∃ value, a.toEReal? = some value ∧ b.toEReal? = some value := by
  simp only [beq_iff_position, toEReal?_eq, Option.map_eq_some_iff]
  constructor
  · rintro ⟨p, left, right⟩
    exact ⟨p.toEReal, ⟨p, left, rfl⟩, ⟨p, right, rfl⟩⟩
  · rintro ⟨_, ⟨p, left, rfl⟩, ⟨q, right, same⟩⟩
    rw [Position.toEReal_injective same] at right
    exact ⟨p, left, right⟩

theorem toEReal?_eq_none_iff {a : Number} : a.toEReal? = none ↔ a = float .nan := by
  rw [toEReal?_eq, Option.map_eq_none_iff]
  cases a with
  | int i => simp [position]
  | float x =>
      cases x with
      | nan => simp [position, Binary64.position]
      | infinite negative => cases negative <;> simp [position, Binary64.position]
      | finite negative rank => simp [position, Binary64.position]

/-- Two numbers are equal exactly if they denote the same extended real number, and only `nan` denotes
none.  So equality is symmetric and transitive, and reflexive but for `nan`.  An integer and a
floating point number are equal exactly if the latter has no fraction, lies in the range of the
integers and gives the integer when it is cut down to one. -/
theorem beq_exact :
    (∀ a b : Number, (a == b) = true ↔
      ∃ value, a.toEReal? = some value ∧ b.toEReal? = some value) ∧
    (∀ a : Number, a.toEReal? = none ↔ a = float .nan) ∧
    (∀ a b : Number, (a == b) = (b == a)) ∧
    (∀ a : Number, a ≠ float .nan → (a == a) = true) ∧
    (∀ a b c : Number, (a == b) = true → (b == c) = true → (a == c) = true) ∧
    (∀ i x, (int i == float x) = (x.isWhole && x.inRange && x.toInt64 == i)) := by
  refine ⟨fun a b => beq_iff_toEReal?, fun a => toEReal?_eq_none_iff, fun a b => BEq.comm,
    ?_, fun a b c => BEq.trans, ?_⟩
  · intro a number
    obtain ⟨value, found⟩ := Option.ne_none_iff_exists'.mp (mt toEReal?_eq_none_iff.mp number)
    exact beq_iff_toEReal?.mpr ⟨value, found, found⟩
  · intro i x
    rfl

/-- No floating point number lies between `2 ^ 53` and `2 ^ 53 + 2`, and `2 ^ 63` is just out of range. -/
example :
    (int 0x20000000000001 == float (.ofInt 0x20000000000000)) = false ∧
      (int Int64.maxValue == float (.ofInt 0x8000000000000000)) = false ∧
      (int Int64.minValue == float (.ofInt (-0x8000000000000000))) = true := by
  decide +kernel

end Number

end Destructure
