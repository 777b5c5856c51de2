import ApiScript.Number.Binary64
import Mathlib.Data.Rat.Cast.Order
import Mathlib.Tactic.Linarith
import Mathlib.Tactic.NormNum
import Mathlib.Tactic.Ring

/-! # The number that 64 bits stand for

Finite numbers are multiples of the smallest one above zero, and each multiple has one mantissa and
one exponent. So two numbers are equal just if their bits are, but for the sign of zero.
-/

namespace ApiScript.Binary64

variable {x y : Binary64}

def value (x : Binary64) : ℚ :=
  (if x.isNegative then -1 else 1) * ((x.mantissa : ℚ) * 2 ^ x.exponent)

/-- The size of a finite number, counted in the smallest number above zero. -/
def steps (x : Binary64) : ℕ := x.mantissa * 2 ^ (x.exponentField - 1)

theorem fraction_lt (x : Binary64) : x.fraction < 2 ^ 52 :=
  Nat.mod_lt _ (Nat.two_pow_pos 52)

theorem size_eq (x : Binary64) : (x.mantissa : ℚ) * 2 ^ x.exponent = x.steps * 2 ^ (-1074 : ℤ) := by
  have he : x.exponent = ((x.exponentField - 1 : ℕ) : ℤ) + -1074 := by
    rw [exponent]
    split <;> omega
  rw [he, zpow_add₀ two_ne_zero, zpow_natCast, steps, Nat.cast_mul, Nat.cast_pow, Nat.cast_ofNat,
    mul_assoc]

theorem steps_lt (x : Binary64) : x.steps < 2 ^ 52 * 2 ^ x.exponentField := by
  have hf := x.fraction_lt
  rw [steps, mantissa]
  cases he : x.exponentField with
  | zero => simpa using hf
  | succ e =>
    have htwice : 2 ^ 52 * 2 ^ (e + 1) = 2 ^ 53 * 2 ^ e := by ring
    rw [if_neg e.succ_ne_zero, Nat.add_sub_cancel, htwice]
    refine Nat.mul_lt_mul_of_pos_right ?_ (Nat.two_pow_pos e)
    rw [Nat.pow_eq]
    omega

theorem le_steps (h : x.exponentField ≠ 0) : 2 ^ 52 * 2 ^ (x.exponentField - 1) ≤ x.steps := by
  rw [steps, mantissa, if_neg h]
  exact Nat.mul_le_mul_right _ (Nat.le_add_right _ _)

theorem steps_lt_steps (h : x.exponentField < y.exponentField) : x.steps < y.steps :=
  calc x.steps
    _ < 2 ^ 52 * 2 ^ x.exponentField := x.steps_lt
    _ ≤ 2 ^ 52 * 2 ^ (y.exponentField - 1) :=
        Nat.mul_le_mul_left _ (Nat.pow_le_pow_right two_pos (Nat.le_sub_one_of_lt h))
    _ ≤ y.steps := le_steps (Nat.ne_zero_of_lt h)

theorem exponentField_eq_of_steps (h : x.steps = y.steps) :
    x.exponentField = y.exponentField := by
  rcases lt_trichotomy x.exponentField y.exponentField with hlt | he | hlt
  · exact absurd h (steps_lt_steps hlt).ne
  · exact he
  · exact absurd h (steps_lt_steps hlt).ne'

theorem fraction_eq_of_steps (h : x.steps = y.steps) : x.fraction = y.fraction := by
  have he := exponentField_eq_of_steps h
  rw [steps, steps, he] at h
  have hm : x.mantissa = y.mantissa := Nat.eq_of_mul_eq_mul_right (Nat.two_pow_pos _) h
  rw [mantissa, mantissa, he] at hm
  split at hm
  · exact hm
  · exact Nat.add_left_cancel hm

theorem toNat_bits (x : Binary64) : x.bits.toNat =
    (if x.isNegative then 2 ^ 63 else 0) + (x.exponentField * 2 ^ 52 + x.fraction) := by
  have hb : x.bits.toNat < 2 ^ 64 := x.bits.toNat_lt
  simp only [isNegative, exponentField, fraction, Nat.pow_eq, beq_iff_eq]
  split <;> omega

theorem isZero_iff (x : Binary64) : x.isZero = true ↔ x.steps = 0 := by
  have hb : x.bits.toNat < 2 ^ 64 := x.bits.toNat_lt
  have hz : x.isZero = true ↔ x.exponentField = 0 ∧ x.fraction = 0 := by
    simp only [isZero, exponentField, fraction, Nat.pow_eq, beq_iff_eq]
    omega
  have hs : x.steps = 0 ↔ x.mantissa = 0 := by simp [steps]
  rw [hz, hs, mantissa]
  split
  · rename_i he
    exact ⟨fun h => h.2, fun h => ⟨he, h⟩⟩
  · rename_i he
    rw [Nat.pow_eq]
    omega

theorem value_eq_iff : x.value = y.value ↔
    x.steps = y.steps ∧ (x.isNegative = y.isNegative ∨ x.steps = 0) := by
  have hstep : (0 : ℚ) < 2 ^ (-1074 : ℤ) := zpow_pos two_pos _
  rw [value, value, size_eq, size_eq, ← mul_assoc, ← mul_assoc, mul_left_inj' hstep.ne']
  rw [← Nat.cast_inj (R := ℚ), ← Nat.cast_eq_zero (R := ℚ)]
  have hopposite : (x.steps : ℚ) = -y.steps ↔ (x.steps : ℚ) = y.steps ∧ (x.steps : ℚ) = 0 := by
    have hx : (0 : ℚ) ≤ x.steps := Nat.cast_nonneg _
    have hy : (0 : ℚ) ≤ y.steps := Nat.cast_nonneg _
    constructor
    · intro h
      constructor <;> linarith
    · rintro ⟨h, h0⟩
      linarith
  cases x.isNegative <;> cases y.isNegative
  · simp
  · simpa using hopposite
  · simpa [neg_eq_iff_eq_neg] using hopposite
  · simp

/-- Equality of the data is equality of the numbers. -/
theorem same_iff : x.same y = true ↔ x.value = y.value := by
  have hbits : x.bits = y.bits ↔ x.isNegative = y.isNegative ∧ x.steps = y.steps := by
    constructor
    · intro h
      obtain ⟨b⟩ := x
      cases h
      exact ⟨rfl, rfl⟩
    · rintro ⟨hn, hs⟩
      refine UInt64.toNat_inj.mp ?_
      rw [toNat_bits, toNat_bits, hn, exponentField_eq_of_steps hs, fraction_eq_of_steps hs]
  rw [same, Bool.or_eq_true, Bool.and_eq_true, beq_iff_eq, hbits, isZero_iff, isZero_iff,
    value_eq_iff]
  grind

end ApiScript.Binary64
